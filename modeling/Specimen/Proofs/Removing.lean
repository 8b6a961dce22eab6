import Specimen.Proofs.Bypassing
import Specimen.Proofs.Progress
import Specimen.Proofs.Reading

/-!
# Removing an override

Two runs go side by side, one with an override and one without it. As long as nothing is looked up at
its path they give the same and differ at the end by that override only. The path is not looked up if
all that is drafted keeps off it, from the generator of the root as well as from the overrides above
it.
-/

namespace Specimen

namespace Run

variable {ε σ α β : Type} {image : σ → σ} {P : σ → Prop} {Q : α → Prop} {S : β → Prop}

/-- From the image of a state with a property a computation does what it does from the state and ends
in the image of where it ends; the property stays, and a result has another one. -/
def Commutes (image : σ → σ) (P : σ → Prop) (Q : α → Prop) (x : ExceptT ε (StateM σ) α) : Prop :=
  ∀ s, P s → x (image s) = ((x s).1, image (x s).2) ∧ P (x s).2 ∧
    Outcome.Meets (fun _ => True) Q (x s).1

theorem commutes_pure {a : α} (h : Q a) :
    Commutes image P Q (pure a : ExceptT ε (StateM σ) α) :=
  fun _ hs => ⟨rfl, hs, h⟩

theorem commutes_throw (e : ε) : Commutes image P Q (throw e : ExceptT ε (StateM σ) α) :=
  fun _ hs => ⟨rfl, hs, trivial⟩

theorem commutes_bind {x : ExceptT ε (StateM σ) α} {f : α → ExceptT ε (StateM σ) β}
    (h : Commutes image P Q x) (hnext : ∀ a, Q a → Commutes image P S (f a)) :
    Commutes image P S (x >>= f) := by
  intro s hs
  obtain ⟨himage, hstate, hmeets⟩ := h s hs
  rw [bind_apply, bind_apply, himage]
  rcases hrun : x s with ⟨e | a, t⟩
  · rw [hrun] at hstate
    exact ⟨rfl, hstate, trivial⟩
  · rw [hrun] at hstate hmeets
    exact hnext a hmeets t hstate

theorem commutes_mapM {f : α → ExceptT ε (StateM σ) β} {as : List α}
    (h : ∀ a ∈ as, Commutes image P (fun _ => True) (f a)) :
    Commutes image P (fun _ => True) (as.mapM f) := by
  induction as with
  | nil => exact commutes_pure trivial
  | cons a as ih =>
      rw [List.mapM_cons]
      apply commutes_bind (h a List.mem_cons_self)
      intro b _
      apply commutes_bind (ih fun a ha => h a (List.mem_cons_of_mem _ ha))
      exact fun _ _ => commutes_pure trivial

end Run

namespace Overrides

variable {overrides : Overrides} {path other : Path} {entry : Override}

def erase (overrides : Overrides) (path : Path) : Overrides :=
  ⟨Assoc.erase path overrides.entries⟩

theorem get?_erase_of_ne (hne : other ≠ path) :
    (overrides.erase path).get? other = overrides.get? other :=
  Assoc.get?_erase_of_ne hne overrides.entries

theorem erase_set_of_ne (hne : other ≠ path) :
    (overrides.set other entry).erase path = (overrides.erase path).set other entry :=
  congrArg Overrides.mk (Assoc.erase_put_of_ne hne entry overrides.entries)

end Overrides

/-- In whichever call, an override gives a draft that keeps off a path below it. -/
def Override.Spares (setting : Setting) (entry : Override) (rest : Path) : Prop :=
  ∀ count draft, (entry.after setting count).Yields setting draft →
    draft.Avoids setting.catalog rest

/-- The overrides above a path keep off what is left of it. -/
def Overrides.Spare (setting : Setting) (path : Path) (overrides : Overrides) : Prop :=
  ∀ above entry, overrides.get? above = some entry → ∀ rest, rest ≠ [] → path = above ++ rest →
    entry.Spares setting rest

theorem Overrides.keptByCalls_spare (setting : Setting) (path : Path) :
    KeptByCalls setting (Spare setting path) := by
  apply keptByCalls_of_entries
  intro above entry h rest hrest hpath count draft hyields
  rw [Override.after_after_one] at hyields
  exact h rest hrest hpath (count + 1) draft hyields

def Progress.without (progress : Progress) (path : Path) : Progress :=
  { progress with overrides := progress.overrides.erase path }

/-- A materialization does the same without the override at a path. -/
abbrev Materialization.Spares {α : Type} (setting : Setting) (path : Path) (Q : α → Prop)
    (x : Materialization α) : Prop :=
  Run.Commutes (Progress.without · path) (fun progress => progress.overrides.Spare setting path) Q x

section Sparing

variable {setting : Setting} {depth : Nat} {path above : Path}

open Materialization (Spares)

theorem spares_ofGeneration {α : Type} {Q : α → Prop} {generation : Generation α}
    (h : ∀ source value after, generation source = (.ok value, after) → Q value) :
    Spares setting path Q (Materialization.ofGeneration generation) := by
  intro progress hspare
  rw [Materialization.ofGeneration_apply, Materialization.ofGeneration_apply]
  refine ⟨rfl, hspare, ?_⟩
  rcases hrun : generation progress.source with ⟨halt | value, after⟩
  · trivial
  · exact h _ _ _ hrun

theorem produce_without {entry : Override} {progress : Progress} (hne : above ≠ path) :
    entry.produce setting depth above (progress.without path) =
      ((entry.produce setting depth above progress).1,
        (entry.produce setting depth above progress).2.without path) := by
  have hset (entry : Override) : Progress.mk progress.source
      ((progress.overrides.erase path).set above entry) =
        Progress.without ⟨progress.source, progress.overrides.set above entry⟩ path :=
    congrArg (Progress.mk progress.source) (Overrides.erase_set_of_ne hne).symm
  cases entry with
  | generator g =>
      rw [Override.produce, Materialization.ofGeneration_apply, Materialization.ofGeneration_apply]
      rfl
  | value v => rfl
  | function answers calls => exact Prod.ext rfl (hset (.function answers (calls + 1)))
  | relation r => exact Prod.ext rfl (hset (.relation (r.pick setting.stores).2))

/-- Looking up another path, or one above, does not need the override. What comes of it keeps off the
rest of the path. -/
theorem spares_overridden? (hne : above ≠ path) :
    Spares setting path (fun found => ∀ draft, found = some draft →
      ∀ rest, path = above ++ rest → draft.Avoids setting.catalog rest)
      (overridden? setting depth above) := by
  intro progress hspare
  have hget (progress : Progress) :
      (get : Materialization Progress) progress = (.ok progress, progress) := rfl
  have hrest {rest : Path} (hpath : path = above ++ rest) : rest ≠ [] := by
    rintro rfl
    rw [List.append_nil] at hpath
    exact hne hpath.symm
  rw [overridden?, Run.bind_apply, Run.bind_apply, hget, hget]
  dsimp only
  rw [Progress.without, Overrides.get?_erase_of_ne hne]
  cases hentry : progress.overrides.get? above with
  | none =>
      refine ⟨rfl, hspare, ?_⟩
      rintro draft ⟨⟩
  | some entry =>
      have hkept : (entry.produce setting depth above progress).2.overrides.Spare setting path := by
        have hcalled := Overrides.keptByCalls_spare setting path hspare hentry
        cases entry with
        | generator g =>
            rw [Override.produce, Materialization.ofGeneration_apply]
            exact hspare
        | value v => exact hspare
        | function answers calls => exact hcalled
        | relation r => exact hcalled
      dsimp only
      rw [Run.bind_apply, Run.bind_apply, ← Progress.without, produce_without hne]
      rcases hrun : entry.produce setting depth above progress with ⟨halt | draft, after⟩
      · rw [hrun] at hkept
        exact ⟨rfl, hkept, trivial⟩
      · rw [hrun] at hkept
        refine ⟨rfl, hkept, ?_⟩
        rintro _ ⟨⟩ rest hpath
        have hyields : (entry.after setting 0).Yields setting draft := by
          rw [Override.after_zero]
          exact (Override.produce_eq_ok hentry hrun).1
        exact hspare above entry hentry rest (hrest hpath) hpath 0 draft hyields

mutual

/-- Walking a value does the same without the override if the visits to what is below do. -/
theorem spares_substitute {visit : Path → Materialization (Option Json)} {above : Path}
    {value : Json} (hvisit : ∀ position ∈ value.positions above,
      Spares setting path (fun _ => True) (visit position.1)) :
    Spares setting path (fun _ => True) (substitute visit above value) := by
  match value with
  | .obj members =>
      exact Run.commutes_bind (spares_substituteMembers hvisit) fun _ _ => Run.commutes_pure trivial
  | .null | .bool _ | .int _ | .float _ | .str _ | .arr _ => exact Run.commutes_pure trivial
termination_by structural value

theorem spares_substituteMembers {visit : Path → Materialization (Option Json)} {above : Path}
    {members : List (String × Json)} (hvisit : ∀ position ∈ Json.positionsMembers above members,
      Spares setting path (fun _ => True) (visit position.1)) :
    Spares setting path (fun _ => True) (substituteMembers visit above members) := by
  match members with
  | [] => exact Run.commutes_pure trivial
  | (name, value) :: rest =>
      simp only [Json.positionsMembers, List.forall_mem_cons, List.forall_mem_append] at hvisit
      obtain ⟨hfirst, hbelow, hrest⟩ := hvisit
      have hothers (first : Json) : Spares setting path (fun _ => True)
          (do return (name, first) :: (← substituteMembers visit above rest)) :=
        Run.commutes_bind (spares_substituteMembers hrest) fun _ _ => Run.commutes_pure trivial
      apply Run.commutes_bind hfirst
      intro replaced _
      cases replaced with
      | none => exact Run.commutes_bind (spares_substitute hbelow) fun first _ => hothers first
      | some replaced =>
          have hpure : Spares setting path (fun _ => True) (pure replaced) :=
            Run.commutes_pure trivial
          exact Run.commutes_bind hpure fun first _ => hothers first
termination_by structural members

end

/-- Flattening at a place above the path does the same without the override if the draft keeps off
what is left of the path. -/
theorem spares_flatten (depth : Nat) : ∀ (above : Path) (draft : Draft),
    (∀ rest, path = above ++ rest → draft.Avoids setting.catalog rest) →
      Spares setting path (fun _ => True) (flatten setting depth above draft) := by
  induction depth with
  | zero =>
      intro above draft _
      exact Run.commutes_throw _
  | succ depth ih =>
      intro above draft havoids
      cases draft with
      | items drafts =>
          rw [flatten_items]
          exact spares_ofGeneration fun _ _ _ _ => trivial
      | value v =>
          apply spares_substitute
          rintro ⟨below, shown⟩ hposition
          obtain ⟨name, rest, rfl, hleads⟩ := Json.mem_positions_iff.mp hposition
          have hne : above ++ name :: rest ≠ path := by
            intro hpath
            exact havoids (name :: rest) hpath.symm shown hleads
          apply Run.commutes_bind (spares_overridden? hne)
          intro found hfound
          cases found with
          | none => exact Run.commutes_pure trivial
          | some draft =>
              exact Run.commutes_bind (ih _ draft (hfound draft rfl)) fun _ _ =>
                Run.commutes_pure trivial
      | fields fields =>
          have hfield : ∀ field ∈ fields, Spares setting path (fun _ => True)
              (flattenField setting depth above field) := by
            rintro ⟨name, generator⟩ hfield
            have hbelow {rest : Path} (hpath : path = above ++ [name] ++ rest) :
                path = above ++ name :: rest := by
              rwa [List.append_assoc] at hpath
            have hne : above ++ [name] ≠ path := by
              intro hpath
              exact (havoids [name] hpath.symm generator hfield).1 rfl
            have hrest (draft : Draft)
                (hdraft : ∀ rest, path = above ++ [name] ++ rest →
                  draft.Avoids setting.catalog rest) :
                Spares setting path (fun _ => True)
                  (do return (name, ← flatten setting depth (above ++ [name]) draft)) :=
              Run.commutes_bind (ih _ draft hdraft) fun _ _ => Run.commutes_pure trivial
            apply Run.commutes_bind (spares_overridden? hne)
            intro found hfound
            cases found with
            | some draft => exact Run.commutes_bind (Run.commutes_pure (hfound draft rfl)) hrest
            | none =>
                refine Run.commutes_bind (spares_ofGeneration ?_) hrest
                intro source draft after hrun rest hpath
                exact (havoids (name :: rest) (hbelow hpath) generator hfield).2 depth draft
                  ⟨source, after, hrun⟩
          rw [flatten_fields]
          apply Run.commutes_bind (Run.commutes_mapM hfield)
          exact fun _ _ => Run.commutes_pure trivial

/-- At a root, whose shape says where the paths start, a draft keeps off a path. -/
def RootShape.Avoids (catalog : Catalog) (path : Path) (draft : Draft) : RootShape → Prop
  | .object => draft.Avoids catalog path
  | .array => ∀ elements, draft.elements? = some elements →
      ∀ element ∈ elements, element.Avoids catalog path
  | .other => True

theorem spares_materialize {schema : Json} {generator : Generator}
    (havoids : ∀ draft, generator.Drafts setting.catalog depth draft →
      (RootShape.ofSchema schema).Avoids setting.catalog path draft) :
    Spares setting path (fun _ => True) (materialize setting depth schema generator) := by
  rw [materialize]
  apply Run.commutes_bind (spares_ofGeneration fun source draft after hrun =>
    havoids draft ⟨source, after, hrun⟩)
  intro draft hdraft
  have hplain : Spares setting path (fun _ => True)
      (Materialization.ofGeneration (draft.resolve setting.catalog depth)) :=
    spares_ofGeneration fun _ _ _ _ => trivial
  have hroot {depth : Nat} {draft : Draft} (hdraft : draft.Avoids setting.catalog path) :
      Spares setting path (fun _ => True) (flatten setting depth [] draft) :=
    spares_flatten depth [] draft fun rest hpath => (show path = rest from hpath) ▸ hdraft
  cases hshape : RootShape.ofSchema schema with
  | other => exact hplain
  | object =>
      rw [hshape] at hdraft
      exact hroot hdraft
  | array =>
      rw [hshape] at hdraft
      cases draft with
      | fields fields => exact hplain
      | items drafts =>
          apply Run.commutes_bind (Run.commutes_mapM fun draft hmember =>
            hroot (hdraft drafts rfl draft hmember))
          exact fun _ _ => Run.commutes_pure trivial
      | value v =>
          cases v with
          | arr values =>
              apply Run.commutes_bind (Run.commutes_mapM fun value hmember =>
                hroot (hdraft _ rfl (.value value) (List.mem_map_of_mem hmember)))
              exact fun _ _ => Run.commutes_pure trivial
          | null | bool | int | float | str | obj => exact hplain

end Sparing

/-! ### Fixtures -/

namespace Fixture

/-- The fixture without the override at a path. -/
def without (fixture : Fixture) (path : Path) : Fixture :=
  { fixture with overrides := fixture.overrides.erase path }

variable {setting : Setting} {depth : Nat} {path : Path}

theorem generate_without {fixture : Fixture}
    (havoids : ∀ draft, fixture.generator.Drafts setting.catalog depth draft →
      (RootShape.ofSchema fixture.schema).Avoids setting.catalog path draft)
    (hspare : fixture.overrides.Spare setting path) :
    (fixture.without path).generate setting depth =
        ((fixture.generate setting depth).1, (fixture.generate setting depth).2.without path) ∧
      (fixture.generate setting depth).2.overrides.Spare setting path := by
  obtain ⟨heq, hkept, -⟩ :=
    spares_materialize havoids ⟨fixture.source, fixture.overrides⟩ hspare
  refine ⟨?_, hkept⟩
  have hrun : materialize setting depth (fixture.without path).schema
      (fixture.without path).generator
        ⟨(fixture.without path).source, (fixture.without path).overrides⟩ = _ := heq
  rw [generate, generate, hrun]
  rfl

theorem generateMany_without {fixture : Fixture}
    (havoids : ∀ draft, fixture.generator.Drafts setting.catalog depth draft →
      (RootShape.ofSchema fixture.schema).Avoids setting.catalog path draft)
    (hspare : fixture.overrides.Spare setting path) (count : Nat) :
    (fixture.without path).generateMany setting depth count =
      ((fixture.generateMany setting depth count).1,
        (fixture.generateMany setting depth count).2.without path) := by
  induction count generalizing fixture with
  | zero => rfl
  | succ count ih =>
      obtain ⟨hgenerate, hkept⟩ := generate_without havoids hspare
      rw [generateMany, generateMany, hgenerate]
      rcases hrun : fixture.generate setting depth with ⟨halt | value, next⟩
      · rfl
      · rw [hrun] at hkept
        have hgenerator : fixture.generator = next.generator := by
          change (fixture.generate setting depth).2.generator = _
          rw [hrun]
        have hschema : fixture.schema = next.schema := by
          change (fixture.generate setting depth).2.schema = _
          rw [hrun]
        rw [hgenerator, hschema] at havoids
        dsimp only
        rw [ih havoids hkept]
        rcases next.generateMany setting depth count with ⟨halt | values, last⟩
        · rfl
        · rfl

theorem fill_without {fixture : Fixture}
    (havoids : ∀ draft, fixture.generator.Drafts setting.catalog depth draft →
      (RootShape.ofSchema fixture.schema).Avoids setting.catalog path draft)
    (hspare : fixture.overrides.Spare setting path) (count : Nat) :
    (fixture.without path).fill setting depth count =
      ((fixture.fill setting depth count).1, (fixture.fill setting depth count).2.without path) := by
  have hstore : (fixture.without path).store = fixture.store := rfl
  rw [fill, fill, hstore]
  by_cases hfull : count ≤ fixture.store.size
  · rw [if_pos hfull, if_pos hfull]
  · rw [if_neg hfull, if_neg hfull, generateMany_without havoids hspare]
    by_cases hroom : Store.room < count - fixture.store.size
    · rw [if_pos hroom, if_pos hroom]
    · rw [if_neg hroom, if_neg hroom]
      rcases fixture.generateMany setting depth (count - fixture.store.size)
        with ⟨halt | values, last⟩
      · rfl
      · dsimp only
        cases setting.catalog.library.index count with
        | error e => rfl
        | ok picker => rfl

end Fixture

end Specimen
