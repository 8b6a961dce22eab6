import Specimen.Proofs.Calls
import Specimen.Proofs.Correspondence

/-!
# How runs end

What a computation can end in, whatever state it starts from: a result of one kind or an error of
another. A generator, a draft and a walk with overrides each take one step over their parts here, so
that what holds of the parts at one depth holds of the whole at the next.
-/

namespace Specimen

/-- An outcome is a result with one property or an error with another. -/
def Outcome.Meets {ε α : Type} (F : ε → Prop) (Q : α → Prop) : Except ε α → Prop
  | .ok a => Q a
  | .error e => F e

/-- An outcome without an error of the kind said is a result. -/
theorem Outcome.Meets.exists_ok {ε α : Type} {F : ε → Prop} {Q : α → Prop} {x : Except ε α}
    (h : Meets F Q x) (hnone : ∀ e, ¬ F e) : ∃ a, x = .ok a ∧ Q a := by
  cases x with
  | ok a => exact ⟨a, rfl, h⟩
  | error e => exact absurd h (hnone e)

theorem Outcome.Meets.and {ε α : Type} {F G : ε → Prop} {Q R : α → Prop} {x : Except ε α}
    (h : Meets F Q x) (hother : Meets G R x) :
    Meets (fun e => F e ∧ G e) (fun a => Q a ∧ R a) x := by
  cases x with
  | ok a => exact ⟨h, hother⟩
  | error e => exact ⟨h, hother⟩

theorem Outcome.Meets.imp {ε α : Type} {F G : ε → Prop} {Q R : α → Prop} {x : Except ε α}
    (h : Meets F Q x) (herrors : ∀ e, F e → G e) (hresults : ∀ a, Q a → R a) : Meets G R x := by
  cases x with
  | ok a => exact hresults a h
  | error e => exact herrors e h

namespace Run

variable {ε σ α β : Type} {P : σ → Prop} {F : ε → Prop} {Q : α → Prop} {S : β → Prop}

/-- From every state with a property a computation ends in one with it again, and in an outcome of
the kinds said. -/
def Ends (P : σ → Prop) (F : ε → Prop) (Q : α → Prop) (x : ExceptT ε (StateM σ) α) : Prop :=
  ∀ s, P s → P (x s).2 ∧ Outcome.Meets F Q (x s).1

theorem ends_pure {a : α} (h : Q a) : Ends P F Q (pure a : ExceptT ε (StateM σ) α) :=
  fun _ hs => ⟨hs, h⟩

theorem ends_throw {e : ε} (h : F e) : Ends P F Q (throw e : ExceptT ε (StateM σ) α) :=
  fun _ hs => ⟨hs, h⟩

theorem Ends.imp {T : α → Prop} {x : ExceptT ε (StateM σ) α} (h : Ends P F Q x)
    (himp : ∀ a, Q a → T a) : Ends P F T x :=
  fun s hs => ⟨(h s hs).1, (h s hs).2.imp (fun _ he => he) himp⟩

theorem ends_bind {x : ExceptT ε (StateM σ) α} {f : α → ExceptT ε (StateM σ) β}
    (h : Ends P F Q x) (hnext : ∀ a, Q a → Ends P F S (f a)) : Ends P F S (x >>= f) := by
  intro s hs
  obtain ⟨hstate, hmeets⟩ := h s hs
  rw [bind_apply]
  rcases hrun : x s with ⟨e | a, t⟩
  · rw [hrun] at hstate hmeets
    exact ⟨hstate, hmeets⟩
  · rw [hrun] at hstate hmeets
    exact hnext a hmeets t hstate

theorem ends_mapM {f : α → ExceptT ε (StateM σ) β} {as : List α}
    (h : ∀ a ∈ as, Ends P F S (f a)) : Ends P F (fun bs => ∀ b ∈ bs, S b) (as.mapM f) := by
  induction as with
  | nil => exact ends_pure (by simp)
  | cons a as ih =>
      rw [List.mapM_cons]
      apply ends_bind (h a List.mem_cons_self)
      intro b hb
      apply ends_bind (ih fun a ha => h a (List.mem_cons_of_mem _ ha))
      intro bs hbs
      exact ends_pure (List.forall_mem_cons.mpr ⟨hb, hbs⟩)

theorem Ends.error {x : ExceptT ε (StateM σ) α} (h : Ends P F Q x) {s t : σ} {e : ε} (hs : P s)
    (hrun : x s = (.error e, t)) : F e := by
  have hmeets := (h s hs).2
  rwa [hrun] at hmeets

end Run

/-! ### Draws -/

/-- How a generation ends from any source. -/
abbrev Generation.Ends {α : Type} (F : Halt → Prop) (Q : α → Prop) (x : Generation α) : Prop :=
  Run.Ends (fun _ => True) F Q x

namespace Generation

variable {α : Type} {F : Halt → Prop} {Q : α → Prop}

theorem ends_adapt {x : ExceptT Overflow Draw α}
    (h : ∀ s t cause, x s = (.error cause, t) → F (.overflow cause)) :
    Ends F (fun _ => True) (ExceptT.adapt Halt.overflow x) := by
  intro s _
  refine ⟨trivial, ?_⟩
  rw [Run.adapt_apply]
  rcases hrun : x s with ⟨cause | value, t⟩
  · exact h s t cause hrun
  · trivial

theorem ends_ofExcept {x : Except Error α} (h : Outcome.Meets (fun e => F (.error e)) Q x) :
    Ends F Q (ofExcept x) := by
  cases x with
  | ok value => exact Run.ends_pure h
  | error e => exact Run.ends_throw h

/-- A picker that stays within a list picks a member of it. -/
theorem ends_pick {picker : Picker} {members : List α} (h : picker.bound ≤ members.length) :
    Ends F (· ∈ members) (pick picker members) := by
  intro s _
  have hdraw : ofDraw picker.pick s = (.ok (picker.pick s).1, (picker.pick s).2) := rfl
  have hpick : (picker.pick s).1 < picker.bound := Draw.below64_lt picker.bound_pos s
  have hlt : (picker.pick s).1 < members.length := Nat.lt_of_lt_of_le hpick h
  rw [pick, Run.bind_apply, hdraw]
  dsimp only
  rw [List.getElem?_eq_getElem hlt]
  exact ⟨trivial, List.getElem_mem hlt⟩

end Generation

namespace Lengths

variable {α : Type} {F : Halt → Prop} {Q : α → Prop} {item : Nat → Generation α}

theorem ends_items (h : ∀ place, Generation.Ends F Q (item place)) (place count : Nat) :
    Generation.Ends F (fun drawn => ∀ a ∈ drawn, Q a) (items item place count) := by
  induction count generalizing place with
  | zero => exact Run.ends_pure (by simp)
  | succ count ih =>
      apply Run.ends_bind (h place)
      intro first hfirst
      apply Run.ends_bind (ih (place + 1))
      intro rest hrest
      exact Run.ends_pure (List.forall_mem_cons.mpr ⟨hfirst, hrest⟩)

/-- Lengths that all fit are reserved without fail. -/
theorem reserve_ne_error {lengths : Lengths} {room : Nat} (h : lengths.max ≤ room) (s t : Source)
    (cause : Overflow) : lengths.reserve room s ≠ (.error cause, t) := by
  intro hreserve
  obtain ⟨hdraw, hbeyond⟩ := reserve_eq_error.mp hreserve
  have hinside := lengths.contains_draw s
  rw [hdraw] at hinside
  simp only [contains, Bool.and_eq_true, decide_eq_true_eq] at hinside
  omega

theorem ends_fill (lengths : Lengths) {room : Nat}
    (hroom : ¬ lengths.max ≤ room → ∀ cause, F (.overflow cause))
    (h : ∀ place, Generation.Ends F Q (item place)) :
    Generation.Ends F (fun drawn => ∀ a ∈ drawn, Q a) (lengths.fill room Halt.overflow item) := by
  have hreserve : Generation.Ends F (fun _ => True)
      (ExceptT.adapt Halt.overflow (lengths.reserve room)) := by
    apply Generation.ends_adapt
    intro s t cause herror
    exact hroom (fun hle => reserve_ne_error hle s t cause herror) cause
  exact Run.ends_bind hreserve fun count _ => ends_items h 0 count

end Lengths

/-! ### One step of generating and of resolving -/

namespace Generator

/-- A generator that another is built of. -/
inductive Part : Generator → Generator → Prop where
  | candidate {keyword : Keyword} {candidates : List Generator} {picker : Picker}
      {candidate : Generator} (member : candidate ∈ candidates) :
      Part (.choice keyword candidates picker) candidate
  | merged (merged : Generator) : Part (.allOf merged) merged
  | field {fields : List (String × Generator)} {field : String × Generator}
      (member : field ∈ fields) : Part (.object fields) field.2
  | place {items : List Generator} {item : Generator} (member : item ∈ items) :
      Part (.tuple items) item
  | element (item : Generator) (lengths : Lengths) : Part (.list item lengths) item

/-- The picker of a generator stays within what there is to pick. -/
def PicksInRange : Generator → Prop
  | .choice _ candidates picker => picker.bound ≤ candidates.length
  | .enumeration values picker => picker.bound ≤ values.length
  | _ => True

/-- There is room for every value of a leaf, and for every length of a list. -/
def HasRoom : Generator → Prop
  | .leaf l => ∀ s, ∃ value t, l.generate s = (.ok value, t)
  | .list _ lengths => lengths.max ≤ Draft.room
  | _ => True

end Generator

/-- A draft is a value, or is made of generators of one kind or of drafts of another. -/
inductive Draft.Layer (G : Generator → Prop) (D : Draft → Prop) : Draft → Prop where
  | value (value : Json) : Layer G D (.value value)
  | fields {fields : List (String × Generator)} (each : ∀ field ∈ fields, G field.2) :
      Layer G D (.fields fields)
  | items {drafts : List Draft} (each : ∀ draft ∈ drafts, D draft) : Layer G D (.items drafts)

section Steps

variable {F : Halt → Prop} {G : Generator → Prop} {D D' : Draft → Prop} {catalog : Catalog}
  {depth : Nat}

/-- A generator that is no reference ends as its parts do, or for want of room: it passes on the draft
of one of them, or makes a draft of its parts. -/
theorem Generator.ends_generate {g : Generator}
    (hnotReference : ∀ schema target overlay, g ≠ .reference schema target overlay)
    (hpicks : g.PicksInRange) (hroom : ¬ g.HasRoom → ∀ cause, F (.overflow cause))
    (hpass : ∀ draft, D draft → D' draft)
    (hlayer : ∀ draft, Draft.Layer g.Part D draft → D' draft)
    (hparts : ∀ part, g.Part part → Generation.Ends F D (part.generate catalog depth)) :
    Generation.Ends F D' (g.generate catalog (depth + 1)) := by
  cases g with
  | reference schema target overlay => exact absurd rfl (hnotReference schema target overlay)
  | choice keyword candidates picker =>
      apply Run.ends_bind (Generation.ends_pick hpicks)
      intro candidate hcandidate
      exact (hparts candidate (.candidate hcandidate)).imp hpass
  | allOf merged => exact (hparts merged (.merged merged)).imp hpass
  | leaf l =>
      have hleaf : Generation.Ends F (fun _ => True) (Generation.ofLeaf l) := by
        apply Generation.ends_adapt
        intro s t cause herror
        refine hroom (fun hok => ?_) cause
        obtain ⟨value, u, hvalue⟩ := hok s
        rw [herror] at hvalue
        cases hvalue
      apply Run.ends_bind hleaf
      exact fun value _ => Run.ends_pure (hlayer _ (.value value))
  | enumeration values picker =>
      apply Run.ends_bind (Generation.ends_pick hpicks)
      exact fun value _ => Run.ends_pure (hlayer _ (.value value))
  | empty => exact Run.ends_pure (hlayer _ (.value _))
  | object fields => exact Run.ends_pure (hlayer _ (.fields fun _ hfield => .field hfield))
  | tuple items =>
      apply Run.ends_bind (Run.ends_mapM fun item hitem => hparts item (.place hitem))
      exact fun drafts hdrafts => Run.ends_pure (hlayer _ (.items hdrafts))
  | list item lengths =>
      apply Run.ends_bind
        (Lengths.ends_fill lengths hroom fun _ => hparts item (.element item lengths))
      exact fun drafts hdrafts => Run.ends_pure (hlayer _ (.items hdrafts))

theorem Draft.ends_resolve {draft : Draft} (hlayer : draft.Layer G D)
    (hgenerate : ∀ g, G g → Generation.Ends F D (g.generate catalog depth))
    (hresolve : ∀ draft, D draft →
      Generation.Ends F (fun _ => True) (draft.resolve catalog depth)) :
    Generation.Ends F (fun _ => True) (draft.resolve catalog (depth + 1)) := by
  cases hlayer with
  | value => exact Run.ends_pure trivial
  | @fields fields each =>
      have hfield : ∀ field ∈ fields, Generation.Ends F (fun _ => True)
          (resolveField catalog depth field) := by
        intro field hfield
        apply Run.ends_bind (hgenerate field.2 (each field hfield))
        intro draft hdraft
        apply Run.ends_bind (hresolve draft hdraft)
        exact fun _ _ => Run.ends_pure trivial
      rw [Draft.resolve_fields]
      apply Run.ends_bind (Run.ends_mapM hfield)
      exact fun _ _ => Run.ends_pure trivial
  | items each =>
      rw [Draft.resolve_items]
      apply Run.ends_bind (Run.ends_mapM fun draft hdraft => hresolve draft (each draft hdraft))
      exact fun _ _ => Run.ends_pure trivial

end Steps

/-! ### One step of flattening -/

/-- How a materialization ends from any source and any overrides of a kind, which stay of that
kind. -/
abbrev Materialization.Ends {α : Type} (P : Overrides → Prop) (F : Halt → Prop) (Q : α → Prop)
    (x : Materialization α) : Prop :=
  Run.Ends (fun progress => P progress.overrides) F Q x

section Flattening

variable {P : Overrides → Prop} {F : Halt → Prop} {setting : Setting} {depth : Nat} {path : Path}

theorem Materialization.ends_ofGeneration {α : Type} {Q : α → Prop} {generation : Generation α}
    (h : Generation.Ends F Q generation) : Ends P F Q (ofGeneration generation) := by
  intro progress hprogress
  rw [ofGeneration_apply]
  exact ⟨hprogress, (h progress.source trivial).2⟩

/-- What holds of every entry whether it was called or not is kept by calls. -/
theorem Overrides.keptByCalls_of_entries {C : Path → Override → Prop}
    (hcalled : ∀ path entry, C path entry → C path (entry.after setting 1)) :
    KeptByCalls setting fun overrides =>
      ∀ path entry, overrides.get? path = some entry → C path entry := by
  intro overrides called entry h hentry path found hfound
  rw [get?, set] at hfound
  by_cases hpath : path = called
  · rw [hpath, Assoc.get?_put_self] at hfound
    cases hfound
    exact hpath ▸ hcalled called entry (h called entry hentry)
  · rw [Assoc.get?_put_of_ne hpath] at hfound
    exact h path found hfound

/-- Looking up an override fails only where its generator does. -/
theorem ends_overridden? {D : Draft → Prop} (hcall : Overrides.KeptByCalls setting P)
    (hgenerator : ∀ overrides g, P overrides → overrides.get? path = some (.generator g) →
      Generation.Ends F D (g.generate setting.catalog depth))
    (hvalue : ∀ overrides entry value, P overrides → overrides.get? path = some entry →
      D (.value value)) :
    Materialization.Ends P F (fun found => ∀ draft, found = some draft → D draft)
      (overridden? setting depth path) := by
  intro progress h
  have hget : (get : Materialization Progress) progress = (.ok progress, progress) := rfl
  rw [overridden?, Run.bind_apply, hget]
  dsimp only
  cases hentry : progress.overrides.get? path with
  | none =>
      refine ⟨h, ?_⟩
      rintro draft ⟨⟩
  | some entry =>
      have hcalled := hcall h hentry
      have hfound (value : Json) : ∀ draft, some (Draft.value value) = some draft → D draft := by
        rintro _ ⟨⟩
        exact hvalue progress.overrides entry value h hentry
      cases entry with
      | value v => exact ⟨h, hfound v⟩
      | function answers calls => exact ⟨hcalled, hfound _⟩
      | relation r => exact ⟨hcalled, hfound _⟩
      | generator g =>
          have hends : Materialization.Ends P F D
              (Materialization.ofGeneration (g.generate setting.catalog depth)) :=
            Materialization.ends_ofGeneration (hgenerator progress.overrides g h hentry)
          apply Run.ends_bind hends (fun draft hdraft => ?_) progress h
          apply Run.ends_pure
          rintro _ ⟨⟩
          exact hdraft

mutual

/-- Walking a value fails only where a visit to a path below fails. -/
theorem ends_substitute {visit : Path → Materialization (Option Json)} {length : Nat}
    (hvisit : ∀ path : Path, length < path.length →
      Materialization.Ends P F (fun _ => True) (visit path))
    (path : Path) (hpath : length ≤ path.length) (value : Json) :
    Materialization.Ends P F (fun _ => True) (substitute visit path value) := by
  match value with
  | .obj members =>
      exact Run.ends_bind (ends_substituteMembers hvisit path hpath members) fun _ _ =>
        Run.ends_pure trivial
  | .null | .bool _ | .int _ | .float _ | .str _ | .arr _ => exact Run.ends_pure trivial
termination_by structural value

theorem ends_substituteMembers {visit : Path → Materialization (Option Json)} {length : Nat}
    (hvisit : ∀ path : Path, length < path.length →
      Materialization.Ends P F (fun _ => True) (visit path))
    (path : Path) (hpath : length ≤ path.length) (members : List (String × Json)) :
    Materialization.Ends P F (fun _ => True) (substituteMembers visit path members) := by
  match members with
  | [] => exact Run.ends_pure trivial
  | (name, value) :: rest =>
      have hbelow : length < (path ++ [name]).length := by
        rw [List.length_append, List.length_singleton]
        omega
      have hrest (first : Json) : Materialization.Ends P F (fun _ => True)
          (do return (name, first) :: (← substituteMembers visit path rest)) :=
        Run.ends_bind (ends_substituteMembers hvisit path hpath rest) fun _ _ =>
          Run.ends_pure trivial
      apply Run.ends_bind (hvisit _ hbelow)
      intro replaced _
      cases replaced with
      | none =>
          exact Run.ends_bind (ends_substitute hvisit (path ++ [name]) (Nat.le_of_lt hbelow) value)
            fun first _ => hrest first
      | some replaced =>
          have hpure : Materialization.Ends P F (fun _ => True) (pure replaced) :=
            Run.ends_pure trivial
          exact Run.ends_bind hpure fun first _ => hrest first
termination_by structural members

end

/-- Flattening fails only where an override, a generator or a draft below does. -/
theorem ends_flatten {G : Generator → Prop} {D : Draft → Prop} {B : Path → Draft → Prop}
    {draft : Draft} (hlayer : draft.Layer G D)
    (hoverridden : ∀ below : Path, path.length < below.length → Materialization.Ends P F
      (fun found => ∀ draft, found = some draft → B below draft) (overridden? setting depth below))
    (hgenerate : ∀ (below : Path) g, path.length < below.length → G g →
      Generation.Ends F (B below) (g.generate setting.catalog depth))
    (hflatten : ∀ below draft, B below draft →
      Materialization.Ends P F (fun _ => True) (flatten setting depth below draft))
    (hresolve : Generation.Ends F (fun _ => True) (draft.resolve setting.catalog (depth + 1))) :
    Materialization.Ends P F (fun _ => True) (flatten setting (depth + 1) path draft) := by
  cases hlayer with
  | items =>
      rw [flatten_items]
      exact Materialization.ends_ofGeneration hresolve
  | value v =>
      refine ends_substitute ?_ path (Nat.le_refl path.length) v
      intro below hbelow
      apply Run.ends_bind (hoverridden below hbelow)
      intro found hfound
      cases found with
      | none => exact Run.ends_pure trivial
      | some draft =>
          exact Run.ends_bind (hflatten below draft (hfound draft rfl)) fun _ _ =>
            Run.ends_pure trivial
  | @fields fields each =>
      have hfield : ∀ field ∈ fields, Materialization.Ends P F (fun _ => True)
          (flattenField setting depth path field) := by
        intro field hfield
        have hbelow : path.length < (path ++ [field.1]).length := by
          rw [List.length_append, List.length_singleton]
          omega
        have hrest (draft : Draft) (hdraft : B (path ++ [field.1]) draft) :
            Materialization.Ends P F (fun _ => True)
              (do return (field.1, ← flatten setting depth (path ++ [field.1]) draft)) :=
          Run.ends_bind (hflatten _ draft hdraft) fun _ _ => Run.ends_pure trivial
        apply Run.ends_bind (hoverridden _ hbelow)
        intro found hfound
        cases found with
        | some draft => exact Run.ends_bind (Run.ends_pure (hfound draft rfl)) hrest
        | none =>
            exact Run.ends_bind (Materialization.ends_ofGeneration
              (hgenerate _ field.2 hbelow (each field hfield))) hrest
      rw [flatten_fields]
      apply Run.ends_bind (Run.ends_mapM hfield)
      exact fun _ _ => Run.ends_pure trivial

end Flattening

end Specimen
