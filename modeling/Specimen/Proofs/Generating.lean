import Specimen.Proofs.Compiling
import Specimen.Proofs.Draw

/-!
# What generating and resolving give

One statement for every generator and every draft: where a successful run has its draft or its value
from. The states between the parts of a run are left open, since nothing depends on them.
-/

namespace Specimen

namespace Generation

variable {α : Type} {s t : Source}

theorem pick_eq_ok {picker : Picker} {members : List α} {member : α}
    (h : pick picker members s = (.ok member, t)) : member ∈ members := by
  obtain ⟨place, u, -, h⟩ := Run.bind_eq_ok.mp h
  cases hfound : members[place]? with
  | some found =>
      rw [hfound] at h
      obtain ⟨rfl, -⟩ := Run.pure_eq_ok.mp h
      exact List.mem_of_getElem? hfound
  | none =>
      rw [hfound] at h
      exact absurd h Run.throw_ne_ok

theorem ofExcept_eq_ok {result : Except Error α} {value : α} :
    ofExcept result s = (.ok value, t) ↔ result = .ok value ∧ s = t := by
  cases result with
  | ok found =>
      change (pure found : Generation α) s = _ ↔ _
      rw [Run.pure_eq_ok, Except.ok.injEq]
  | error cause =>
      constructor
      · intro h
        exact absurd h Run.throw_ne_ok
      · rintro ⟨h, -⟩
        cases h

end Generation

/-- What a leaf without buffers gives is what its draw gives. -/
theorem Leaf.gives_lift_iff {draw : Draw Json} {validate : Json → Option Bool} {value : Json} :
    (Leaf.mk (ExceptT.lift draw) validate).Gives value ↔ ∃ s, (draw s).1 = value := by
  constructor
  · rintro ⟨s, t, h⟩
    exact ⟨s, congrArg Prod.fst (Run.lift_eq_ok.mp h)⟩
  · rintro ⟨s, rfl⟩
    exact ⟨s, (draw s).2, Run.lift_eq_ok.mpr rfl⟩

/-- A generator gives a draft in some run of at most a depth. -/
def Generator.Drafts (catalog : Catalog) (depth : Nat) (generator : Generator) (draft : Draft) :
    Prop :=
  ∃ s t, generator.generate catalog depth s = (.ok draft, t)

/-- A draft resolves to a value in some run of at most a depth. -/
def Draft.Resolves (catalog : Catalog) (depth : Nat) (draft : Draft) (value : Json) : Prop :=
  ∃ s t, draft.resolve catalog depth s = (.ok value, t)

namespace Generator

variable {catalog : Catalog} {depth : Nat} {draft : Draft}

theorem not_drafts_zero {generator : Generator} : ¬ generator.Drafts catalog 0 draft := by
  rintro ⟨s, t, h⟩
  exact Run.throw_ne_ok h

theorem exists_depth_of_drafts {generator : Generator}
    (h : generator.Drafts catalog depth draft) : ∃ lower, depth = lower + 1 := by
  cases depth with
  | zero => exact absurd h not_drafts_zero
  | succ lower => exact ⟨lower, rfl⟩

theorem drafts_reference {schema : String} {target : Reference} {overlay : Json}
    (h : (reference schema target overlay).Drafts catalog (depth + 1) draft) :
    ∃ generator, dereference catalog schema target overlay = .ok generator ∧
      generator.Drafts catalog depth draft := by
  obtain ⟨s, t, h⟩ := h
  obtain ⟨generator, u, hderef, hgenerate⟩ := Run.bind_eq_ok.mp h
  exact ⟨generator, (Generation.ofExcept_eq_ok.mp hderef).1, u, t, hgenerate⟩

theorem drafts_choice {keyword : Keyword} {candidates : List Generator} {picker : Picker}
    (h : (choice keyword candidates picker).Drafts catalog (depth + 1) draft) :
    ∃ candidate ∈ candidates, candidate.Drafts catalog depth draft := by
  obtain ⟨s, t, h⟩ := h
  obtain ⟨candidate, u, hpick, hgenerate⟩ := Run.bind_eq_ok.mp h
  exact ⟨candidate, Generation.pick_eq_ok hpick, u, t, hgenerate⟩

theorem drafts_allOf {merged : Generator}
    (h : (allOf merged).Drafts catalog (depth + 1) draft) : merged.Drafts catalog depth draft :=
  h

theorem drafts_leaf {l : Leaf} (h : (leaf l).Drafts catalog (depth + 1) draft) :
    ∃ value, l.Gives value ∧ draft = .value value := by
  obtain ⟨s, t, h⟩ := h
  obtain ⟨value, u, hleaf, h⟩ := Run.bind_eq_ok.mp h
  obtain ⟨rfl, -⟩ := Run.pure_eq_ok.mp h
  exact ⟨value, ⟨s, u, Run.adapt_eq_ok.mp hleaf⟩, rfl⟩

theorem drafts_enumeration {values : List Json} {picker : Picker}
    (h : (enumeration values picker).Drafts catalog (depth + 1) draft) :
    ∃ value ∈ values, draft = .value value := by
  obtain ⟨s, t, h⟩ := h
  obtain ⟨value, u, hpick, h⟩ := Run.bind_eq_ok.mp h
  obtain ⟨rfl, -⟩ := Run.pure_eq_ok.mp h
  exact ⟨value, Generation.pick_eq_ok hpick, rfl⟩

theorem drafts_empty (h : Generator.empty.Drafts catalog (depth + 1) draft) :
    draft = .value (.obj []) := by
  obtain ⟨s, t, h⟩ := h
  exact (Run.pure_eq_ok.mp h).1.symm

/-- An object draws nothing and fails never: its draft is its fields. -/
theorem generate_object (catalog : Catalog) (depth : Nat) (fields : List (String × Generator))
    (s : Source) : (object fields).generate catalog (depth + 1) s = (.ok (.fields fields), s) :=
  rfl

theorem drafts_object {fields : List (String × Generator)}
    (h : (object fields).Drafts catalog (depth + 1) draft) : draft = .fields fields := by
  obtain ⟨s, t, h⟩ := h
  rw [generate_object] at h
  cases h
  rfl

theorem drafts_tuple {items : List Generator}
    (h : (tuple items).Drafts catalog (depth + 1) draft) :
    ∃ drafts, draft = .items drafts ∧
      List.Forall₂ (fun item draft => item.Drafts catalog depth draft) items drafts := by
  obtain ⟨s, t, h⟩ := h
  obtain ⟨drafts, u, hitems, h⟩ := Run.bind_eq_ok.mp h
  obtain ⟨rfl, -⟩ := Run.pure_eq_ok.mp h
  exact ⟨drafts, rfl, (Run.mapM_eq_ok.mp hitems).forall₂⟩

theorem drafts_list {item : Generator} {lengths : Lengths}
    (h : (list item lengths).Drafts catalog (depth + 1) draft) :
    ∃ drafts, draft = .items drafts ∧ lengths.contains drafts.length = true ∧
      ∀ draft ∈ drafts, item.Drafts catalog depth draft := by
  obtain ⟨s, t, h⟩ := h
  obtain ⟨drafts, u, hfill, h⟩ := Run.bind_eq_ok.mp h
  obtain ⟨rfl, -⟩ := Run.pure_eq_ok.mp h
  obtain ⟨hlength, heach⟩ := Lengths.fill_eq_ok hfill
  refine ⟨drafts, rfl, hlength, ?_⟩
  intro draft hdraft
  obtain ⟨-, hgenerate⟩ := heach draft hdraft
  exact hgenerate

end Generator

namespace Draft

variable {catalog : Catalog} {depth : Nat} {value : Json}

theorem not_resolves_zero {draft : Draft} : ¬ draft.Resolves catalog 0 value := by
  rintro ⟨s, t, h⟩
  exact Run.throw_ne_ok h

theorem exists_depth_of_resolves {draft : Draft} (h : draft.Resolves catalog depth value) :
    ∃ lower, depth = lower + 1 := by
  cases depth with
  | zero => exact absurd h not_resolves_zero
  | succ lower => exact ⟨lower, rfl⟩

theorem resolves_value {v : Json} (h : (Draft.value v).Resolves catalog (depth + 1) value) :
    value = v := by
  obtain ⟨s, t, h⟩ := h
  exact (Run.pure_eq_ok.mp h).1.symm

theorem resolves_fields {fields : List (String × Generator)}
    (h : (Draft.fields fields).Resolves catalog (depth + 1) value) :
    ∃ members, value = .obj members ∧
      List.Forall₂ (fun field member => field.1 = member.1 ∧
        ∃ draft, field.2.Drafts catalog depth draft ∧ draft.Resolves catalog depth member.2)
        fields members := by
  obtain ⟨s, t, h⟩ := h
  obtain ⟨members, u, hmembers, h⟩ := Run.bind_eq_ok.mp h
  obtain ⟨rfl, -⟩ := Run.pure_eq_ok.mp h
  refine ⟨members, rfl, (Run.mapM_eq_ok.mp hmembers).forall₂.imp ?_⟩
  rintro ⟨name, generator⟩ member ⟨s, t, h⟩
  obtain ⟨draft, u, hgenerate, h⟩ := Run.bind_eq_ok.mp h
  obtain ⟨found, w, hresolve, h⟩ := Run.bind_eq_ok.mp h
  obtain ⟨rfl, -⟩ := Run.pure_eq_ok.mp h
  exact ⟨rfl, draft, ⟨s, u, hgenerate⟩, u, w, hresolve⟩

theorem resolves_items {drafts : List Draft}
    (h : (Draft.items drafts).Resolves catalog (depth + 1) value) :
    ∃ values, value = .arr values ∧
      List.Forall₂ (fun draft value => draft.Resolves catalog depth value) drafts values := by
  obtain ⟨s, t, h⟩ := h
  obtain ⟨values, u, hvalues, h⟩ := Run.bind_eq_ok.mp h
  obtain ⟨rfl, -⟩ := Run.pure_eq_ok.mp h
  exact ⟨values, rfl, (Run.mapM_eq_ok.mp hvalues).forall₂⟩

end Draft

/-- What resolving does for one field of an object. -/
def resolveField (catalog : Catalog) (depth : Nat) (field : String × Generator) :
    Generation (String × Json) := do
  let draft ← field.2.generate catalog depth
  return (field.1, ← draft.resolve catalog depth)

theorem Draft.resolve_fields (catalog : Catalog) (depth : Nat)
    (fields : List (String × Generator)) :
    (Draft.fields fields).resolve catalog (depth + 1) =
      (do return .obj (← fields.mapM (resolveField catalog depth))) :=
  rfl

theorem Draft.resolve_items (catalog : Catalog) (depth : Nat) (drafts : List Draft) :
    (Draft.items drafts).resolve catalog (depth + 1) =
      (do return .arr (← drafts.mapM (Draft.resolve catalog depth))) :=
  rfl

namespace Sample

def value : Json :=
  .obj [("id", .null), ("next", .null), ("pair", .arr [.str "x", .obj []])]

/-- The reference is followed and its target compiled while the draft is resolved. -/
theorem resolve_fields :
    (Draft.fields fields).resolve catalog 4 (.mixed [0] 0) = (.ok value, .mixed [] 0) := by
  have hderef : Generator.dereference catalog "sample" ⟨none, ["properties", "id"]⟩ (.obj []) =
      .ok (.leaf Leaf.null) := compile_leafNode
  simp only [fields, reference, Draft.resolve, List.mapM_cons, List.mapM_nil, Generator.generate,
    hderef, Generation.ofExcept, pure_bind, bind_assoc]
  rfl

end Sample

end Specimen
