import Specimen.Proofs.Generating

/-!
# Agreement of two runs

Two runs agree when they leave the same source behind and either both fail or end in related
results. Composed runs agree if their parts do, and so do the runs of generators and drafts that are
built alike from parts whose runs agree.
-/

namespace Specimen

namespace Outcome

variable {ε δ α β γ κ : Type}

/-- Two outcomes are both results or both errors, related either way. -/
inductive Related (E : ε → δ → Prop) (R : α → β → Prop) : Except ε α → Except δ β → Prop where
  | ok {a : α} {b : β} (results : R a b) : Related E R (.ok a) (.ok b)
  | error {e : ε} {f : δ} (errors : E e f) : Related E R (.error e) (.error f)

variable {E : ε → δ → Prop} {R : α → β → Prop} {S : γ → κ → Prop} {x : Except ε α} {y : Except δ β}

theorem Related.bind {f : α → Except ε γ} {g : β → Except δ κ} (h : Related E R x y)
    (hnext : ∀ a b, R a b → Related E S (f a) (g b)) : Related E S (x >>= f) (y >>= g) := by
  cases h with
  | ok results => exact hnext _ _ results
  | error errors => exact .error errors

theorem Related.imp {F : ε → δ → Prop} {T : α → β → Prop} (h : Related E R x y)
    (herrors : ∀ e f, E e f → F e f) (hresults : ∀ a b, R a b → T a b) : Related F T x y := by
  cases h with
  | ok results => exact .ok (hresults _ _ results)
  | error errors => exact .error (herrors _ _ errors)

theorem Related.cases (h : Related E R x y) : (∃ a b, x = .ok a ∧ y = .ok b ∧ R a b) ∨
    ∃ e f, x = .error e ∧ y = .error f ∧ E e f := by
  cases h with
  | ok results => exact .inl ⟨_, _, rfl, rfl, results⟩
  | error errors => exact .inr ⟨_, _, rfl, rfl, errors⟩

theorem Related.of_ok {a : α} {b : β} (h : Related E R (.ok a) (.ok b)) : R a b := by
  cases h with
  | ok results => exact results

theorem related_self {E : ε → ε → Prop} (hrefl : ∀ e, E e e) (x : Except ε α) :
    Related E Eq x x := by
  cases x with
  | ok a => exact .ok rfl
  | error e => exact .error (hrefl e)

theorem related_mapM {P : γ → κ → Prop} {f : γ → Except ε α} {g : κ → Except δ β} {as : List γ}
    {bs : List κ} (h : List.Forall₂ P as bs) (heach : ∀ a b, P a b → Related E R (f a) (g b)) :
    Related E (List.Forall₂ R) (as.mapM f) (bs.mapM g) := by
  induction h with
  | nil => exact .ok .nil
  | cons hfirst _ ih =>
      rw [List.mapM_cons, List.mapM_cons]
      apply (heach _ _ hfirst).bind
      intro a b hab
      apply ih.bind
      intro as bs hrest
      exact .ok (.cons hab hrest)

end Outcome

namespace Run

variable {ε σ α β γ κ : Type}

/-- Started in the same state, two computations end in the same state and in related outcomes. -/
def Agree (E : ε → ε → Prop) (R : α → β → Prop) (x : ExceptT ε (StateM σ) α)
    (y : ExceptT ε (StateM σ) β) : Prop :=
  ∀ s, (x s).2 = (y s).2 ∧ Outcome.Related E R (x s).1 (y s).1

variable {E : ε → ε → Prop} {R : α → β → Prop} {S : γ → κ → Prop}

theorem agree_pure {a : α} {b : β} (h : R a b) :
    Agree E R (pure a : ExceptT ε (StateM σ) α) (pure b) :=
  fun _ => ⟨rfl, .ok h⟩

theorem agree_throw {e f : ε} (h : E e f) :
    Agree E R (throw e : ExceptT ε (StateM σ) α) (throw f) :=
  fun _ => ⟨rfl, .error h⟩

theorem agree_adapt {ι : Type} {f : ι → ε} (hrefl : ∀ cause, E (f cause) (f cause))
    (x : ExceptT ι (StateM σ) α) : Agree E Eq (ExceptT.adapt f x) (ExceptT.adapt f x) := by
  intro s
  rw [adapt_apply]
  rcases x s with ⟨cause | a, t⟩
  · exact ⟨rfl, .error (hrefl cause)⟩
  · exact ⟨rfl, .ok rfl⟩

theorem agree_self (hrefl : ∀ e, E e e) (x : ExceptT ε (StateM σ) α) : Agree E Eq x x :=
  fun s => ⟨rfl, Outcome.related_self hrefl (x s).1⟩

theorem agree_bind {x : ExceptT ε (StateM σ) α} {y : ExceptT ε (StateM σ) β}
    {f : α → ExceptT ε (StateM σ) γ} {g : β → ExceptT ε (StateM σ) κ} (h : Agree E R x y)
    (hnext : ∀ a b, R a b → Agree E S (f a) (g b)) : Agree E S (x >>= f) (y >>= g) := by
  intro s
  obtain ⟨hstate, hrelated⟩ := h s
  rw [bind_apply, bind_apply]
  rcases hx : x s with ⟨e | a, t⟩
  · rcases hy : y s with ⟨e' | b, u⟩
    · rw [hx, hy] at hstate hrelated
      cases hrelated with
      | error errors => exact ⟨hstate, .error errors⟩
    · rw [hx, hy] at hrelated
      cases hrelated
  · rcases hy : y s with ⟨e' | b, u⟩
    · rw [hx, hy] at hrelated
      cases hrelated
    · rw [hx, hy] at hstate hrelated
      cases hstate
      exact hnext a b hrelated.of_ok t

theorem agree_mapM {P : α → γ → Prop} {f : α → ExceptT ε (StateM σ) β}
    {g : γ → ExceptT ε (StateM σ) κ} {T : β → κ → Prop}
    (heach : ∀ a c, P a c → Agree E T (f a) (g c)) {as : List α} {cs : List γ}
    (h : List.Forall₂ P as cs) : Agree E (List.Forall₂ T) (as.mapM f) (cs.mapM g) := by
  induction h with
  | nil => exact agree_pure .nil
  | cons hfirst _ ih =>
      rw [List.mapM_cons, List.mapM_cons]
      apply agree_bind (heach _ _ hfirst)
      intro b d hb
      apply agree_bind ih
      intro bs ds hbs
      exact agree_pure (.cons hb hbs)

theorem Agree.imp {F : ε → ε → Prop} {T : α → β → Prop} {x : ExceptT ε (StateM σ) α}
    {y : ExceptT ε (StateM σ) β} (h : Agree E R x y) (herrors : ∀ e f, E e f → F e f)
    (hresults : ∀ a b, R a b → T a b) : Agree F T x y :=
  fun s => ⟨(h s).1, (h s).2.imp herrors hresults⟩

end Run

namespace Lengths

variable {ε α β : Type} {E : ε → ε → Prop} {R : α → β → Prop} {item : Nat → ExceptT ε Draw α}
  {other : Nat → ExceptT ε Draw β}

theorem agree_items (heach : ∀ place, Run.Agree E R (item place) (other place))
    (place count : Nat) :
    Run.Agree E (List.Forall₂ R) (items item place count) (items other place count) := by
  induction count generalizing place with
  | zero => exact Run.agree_pure .nil
  | succ count ih =>
      apply Run.agree_bind (heach place)
      intro a b hab
      apply Run.agree_bind (ih (place + 1))
      intro as bs habs
      exact Run.agree_pure (.cons hab habs)

theorem agree_fill (lengths : Lengths) (room : Nat) {overflow : Overflow → ε}
    (hoverflow : ∀ cause, E (overflow cause) (overflow cause))
    (heach : ∀ place, Run.Agree E R (item place) (other place)) :
    Run.Agree E (List.Forall₂ R) (lengths.fill room overflow item)
      (lengths.fill room overflow other) := by
  apply Run.agree_bind (Run.agree_adapt hoverflow (lengths.reserve room))
  rintro count _ rfl
  exact agree_items heach 0 count

end Lengths

/-- Every picker that the library gives for a number of things stays below that number. -/
def Library.PicksInRange (library : Library) : Prop :=
  ∀ length picker, library.index length = .ok picker → picker.bound ≤ length

theorem Library.picksInRange_of_index {library : Library} (h : library.index = Picker.ofLength) :
    library.PicksInRange := by
  intro length picker hpicker
  rw [h] at hpicker
  exact Nat.le_of_eq (Picker.bound_of_ofLength hpicker)

namespace Generation

variable {α β : Type} {E : Halt → Halt → Prop} {R : α → β → Prop}

theorem agree_ofExcept {x : Except Error α} {y : Except Error β}
    (h : Outcome.Related (fun e f => E (.error e) (.error f)) R x y) :
    Run.Agree E R (ofExcept x) (ofExcept y) := by
  cases h with
  | ok results => exact Run.agree_pure results
  | error errors => exact Run.agree_throw errors

theorem agree_pick {library : Library} {picker : Picker} {members : List α} {others : List β}
    (hpicker : library.index members.length = .ok picker)
    (hrange : ¬ library.PicksInRange → E .outOfRange .outOfRange)
    (h : List.Forall₂ R members others) :
    Run.Agree E R (pick picker members) (pick picker others) := by
  intro s
  have hlength := h.length_eq
  rw [pick, pick, Run.bind_apply, Run.bind_apply]
  have hdraw : ofDraw picker.pick s = (.ok (picker.pick s).1, (picker.pick s).2) := rfl
  rw [hdraw]
  dsimp only
  by_cases hlt : (picker.pick s).1 < members.length
  · have hlt' : (picker.pick s).1 < others.length := hlength ▸ hlt
    rw [List.getElem?_eq_getElem hlt, List.getElem?_eq_getElem hlt']
    exact ⟨rfl, .ok (h.get hlt hlt')⟩
  · have hle : members.length ≤ (picker.pick s).1 := Nat.le_of_not_lt hlt
    have hle' : others.length ≤ (picker.pick s).1 := hlength ▸ hle
    rw [List.getElem?_eq_none hle, List.getElem?_eq_none hle']
    refine ⟨rfl, .error (hrange ?_)⟩
    intro hinRange
    have hbound := hinRange _ _ hpicker
    have hpick : (picker.pick s).1 < picker.bound := Draw.below64_lt picker.bound_pos s
    omega

end Generation

/-! ### Generators and drafts that are built alike -/

/-- Two generators are built alike from related parts. References are left out: what they give is up
to the catalog. -/
inductive Generator.Alike (library : Library) (R : Generator → Generator → Prop) :
    Generator → Generator → Prop where
  | choice {keyword other : Keyword} {candidates others : List Generator} {picker : Picker}
      (each : List.Forall₂ R candidates others)
      (picks : library.index candidates.length = .ok picker) :
      Alike library R (.choice keyword candidates picker) (.choice other others picker)
  | allOf {merged other : Generator} (merges : R merged other) :
      Alike library R (.allOf merged) (.allOf other)
  | leaf (leaf : Leaf) : Alike library R (.leaf leaf) (.leaf leaf)
  | enumeration {values : List Json} {picker : Picker}
      (picks : library.index values.length = .ok picker) :
      Alike library R (.enumeration values picker) (.enumeration values picker)
  | empty : Alike library R .empty .empty
  | object {fields others : List (String × Generator)}
      (each : List.Forall₂ (fun field other => field.1 = other.1 ∧ R field.2 other.2)
        fields others) : Alike library R (.object fields) (.object others)
  | tuple {items others : List Generator} (each : List.Forall₂ R items others) :
      Alike library R (.tuple items) (.tuple others)
  | list {item other : Generator} {lengths : Lengths} (element : R item other) :
      Alike library R (.list item lengths) (.list other lengths)

theorem Generator.Alike.imp {library : Library} {R S : Generator → Generator → Prop}
    {g h : Generator} (halike : Generator.Alike library R g h) (himp : ∀ g h, R g h → S g h) :
    Generator.Alike library S g h := by
  cases halike with
  | choice each picks => exact .choice (each.imp himp) picks
  | allOf merges => exact .allOf (himp _ _ merges)
  | leaf leaf => exact .leaf leaf
  | enumeration picks => exact .enumeration picks
  | empty => exact .empty
  | object each => exact .object (each.imp fun _ _ field => ⟨field.1, himp _ _ field.2⟩)
  | tuple each => exact .tuple (each.imp himp)
  | list element => exact .list (himp _ _ element)

/-- Two drafts are built alike from related generators and related drafts. -/
inductive Draft.Alike (R : Generator → Generator → Prop) (D : Draft → Draft → Prop) :
    Draft → Draft → Prop where
  | value (value : Json) : Alike R D (.value value) (.value value)
  | fields {fields others : List (String × Generator)}
      (each : List.Forall₂ (fun field other => field.1 = other.1 ∧ R field.2 other.2)
        fields others) : Alike R D (.fields fields) (.fields others)
  | items {drafts others : List Draft} (each : List.Forall₂ D drafts others) :
      Alike R D (.items drafts) (.items others)

theorem Draft.Alike.imp {R S : Generator → Generator → Prop} {D F : Draft → Draft → Prop}
    {a b : Draft} (halike : Draft.Alike R D a b) (himp : ∀ g h, R g h → S g h)
    (hdraft : ∀ a b, D a b → F a b) : Draft.Alike S F a b := by
  cases halike with
  | value value => exact .value value
  | fields each => exact .fields (each.imp fun _ _ field => ⟨field.1, himp _ _ field.2⟩)
  | items each => exact .items (each.imp hdraft)

section Steps

variable {E : Halt → Halt → Prop} {R : Generator → Generator → Prop} {D F : Draft → Draft → Prop}
  {catalog other : Catalog} {library : Library} {depth lower : Nat}

/-- A draft of two generators that are built alike is either one of two related parts or is itself
built from drafts of such parts. -/
theorem Generator.Alike.generate {g h : Generator} (halike : Generator.Alike library R g h)
    (hrange : ¬ library.PicksInRange → E .outOfRange .outOfRange)
    (hoverflow : ∀ cause, E (.overflow cause) (.overflow cause)) (hpart : ∀ a b, D a b → F a b)
    (hbuilt : ∀ a b, Draft.Alike R D a b → F a b)
    (hruns : ∀ g h, R g h → Run.Agree E D (g.generate catalog depth) (h.generate other lower)) :
    Run.Agree E F (g.generate catalog (depth + 1)) (h.generate other (lower + 1)) := by
  have hpass {g h : Generator} (hgh : R g h) :
      Run.Agree E F (g.generate catalog depth) (h.generate other lower) :=
    (hruns g h hgh).imp (fun _ _ he => he) hpart
  cases halike with
  | choice each picks =>
      apply Run.agree_bind (Generation.agree_pick picks hrange each)
      intro candidate picked hrelated
      exact hpass hrelated
  | allOf merges => exact hpass merges
  | leaf leaf =>
      apply Run.agree_bind (Run.agree_adapt hoverflow leaf.generate)
      rintro value _ rfl
      exact Run.agree_pure (hbuilt _ _ (.value value))
  | enumeration picks =>
      apply Run.agree_bind
        (Generation.agree_pick picks hrange (List.forall₂_same.mpr fun value _ => rfl))
      rintro value _ rfl
      exact Run.agree_pure (hbuilt _ _ (.value value))
  | empty => exact Run.agree_pure (hbuilt _ _ (.value (.obj [])))
  | object each => exact Run.agree_pure (hbuilt _ _ (.fields each))
  | tuple each =>
      apply Run.agree_bind (Run.agree_mapM hruns each)
      intro drafts others hdrafts
      exact Run.agree_pure (hbuilt _ _ (.items hdrafts))
  | list element =>
      apply Run.agree_bind (Lengths.agree_fill _ _ hoverflow fun _ => hruns _ _ element)
      intro drafts others hdrafts
      exact Run.agree_pure (hbuilt _ _ (.items hdrafts))

/-- Two drafts that are built alike resolve to the same value. -/
theorem Draft.Alike.resolve {a b : Draft} (halike : Draft.Alike R D a b)
    (hruns : ∀ g h, R g h → Run.Agree E D (g.generate catalog depth) (h.generate other lower))
    (hparts : ∀ a b, D a b → Run.Agree E Eq (a.resolve catalog depth) (b.resolve other lower)) :
    Run.Agree E Eq (a.resolve catalog (depth + 1)) (b.resolve other (lower + 1)) := by
  cases halike with
  | value value => exact Run.agree_pure rfl
  | fields each =>
      have hfield : ∀ field other', field.1 = other'.1 ∧ R field.2 other'.2 →
          Run.Agree E Eq (resolveField catalog depth field) (resolveField other lower other') := by
        rintro field other' ⟨hname, hrelated⟩
        apply Run.agree_bind (hruns _ _ hrelated)
        intro draft drafted hdraft
        apply Run.agree_bind (hparts _ _ hdraft)
        rintro value _ rfl
        exact Run.agree_pure (by rw [hname])
      rw [Draft.resolve_fields, Draft.resolve_fields]
      apply Run.agree_bind (Run.agree_mapM hfield each)
      intro members others hmembers
      rw [List.forall₂_eq_eq_eq] at hmembers
      exact Run.agree_pure (congrArg Json.obj hmembers)
  | items each =>
      rw [Draft.resolve_items, Draft.resolve_items]
      apply Run.agree_bind (Run.agree_mapM hparts each)
      intro values others hvalues
      rw [List.forall₂_eq_eq_eq] at hvalues
      exact Run.agree_pure (congrArg Json.arr hvalues)

end Steps

namespace Generator

theorem validateFields_eq {fields others : List (String × Generator)}
    (h : List.Forall₂ (fun field other => field.1 = other.1 ∧
      ∀ value, validate field.2 value = validate other.2 value) fields others)
    (members : List (String × Json)) :
    validateFields fields members = validateFields others members := by
  induction h with
  | nil => rfl
  | @cons field other _ _ hfirst _ ih =>
      obtain ⟨name, generator⟩ := field
      obtain ⟨name', generator'⟩ := other
      obtain ⟨rfl, hsame⟩ := hfirst
      rw [validateFields, validateFields, ih]
      dsimp only at hsame
      rw [hsame]

theorem validatePlaces_eq {items others : List Generator}
    (h : List.Forall₂ (fun item other => ∀ value, validate item value = validate other value)
      items others) (values : List Json) :
    validatePlaces items values = validatePlaces others values := by
  induction h generalizing values with
  | nil => rfl
  | cons hfirst _ ih => rw [validatePlaces, validatePlaces, hfirst, ih]

/-- Generators that are built alike have the same opinion on every value if their parts have. -/
theorem Alike.validate {library : Library} {R : Generator → Generator → Prop} {g h : Generator}
    (halike : Generator.Alike library R g h)
    (hparts : ∀ part other, sizeOf part < sizeOf g → R part other →
      ∀ value, part.validate value = other.validate value) (value : Json) :
    g.validate value = h.validate value := by
  cases halike with
  | choice | leaf | enumeration | empty => rfl
  | allOf merges => exact hparts _ _ (by simp) merges value
  | object each =>
      have hfields := forall₂_imp_of_mem each fun field hfield other _ hrelated =>
        And.intro hrelated.1 (hparts field.2 other.2 (by
          have := List.sizeOf_lt_of_mem hfield
          obtain ⟨name, part⟩ := field
          simp only [Prod.mk.sizeOf_spec, Generator.object.sizeOf_spec] at this ⊢
          omega) hrelated.2)
      cases value with
      | obj members =>
          rw [Generator.validate, Generator.validate, validateFields_eq hfields]
      | null | bool | int | float | str | arr => rfl
  | tuple each =>
      have hplaces := forall₂_imp_of_mem each fun item hitem other _ hrelated =>
        hparts item other (by
          have := List.sizeOf_lt_of_mem hitem
          simp only [Generator.tuple.sizeOf_spec]
          omega) hrelated
      cases value with
      | arr values => rw [Generator.validate, Generator.validate, validatePlaces_eq hplaces]
      | null | bool | int | float | str | obj => rfl
  | list element =>
      have hitem := hparts _ _ (by simp; omega) element
      cases value with
      | arr values => simp only [Generator.validate, hitem]
      | null | bool | int | float | str | obj => rfl

end Generator

end Specimen
