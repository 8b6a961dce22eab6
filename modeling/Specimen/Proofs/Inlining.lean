import Specimen.Proofs.LeafValues
import Specimen.Proofs.Lockstep
import Specimen.Proofs.Unfolding

/-!
# Inlined references

A reference is looked up each time a value is generated. Instead, a schema can be inlined once: every
reference at its root, at a property or at its items gives way to its target, with what stands beside
the reference laid over it, until none is left. If that comes to an end and no combinator is met on
the way, the inlined schema gives the same values from the same draws.
-/

namespace Specimen

/-! ### Inlining -/

namespace Json

/-- None of the combinators is on the node, unless with null in the place of branches. -/
def Uncombined (node : Json) : Prop :=
  node.present? .anyOf = none ∧ node.present? .allOf = none ∧ node.present? .oneOf = none

end Json

/-- Two nodes have related properties and related items, and do not differ otherwise. -/
structure DifferInParts (P : Json → Json → Prop) (node other : Json) : Prop where
  constraints : Constraints.ofNode node = Constraints.ofNode other
  get? : ∀ keyword : Keyword, keyword ≠ .properties → keyword ≠ .items →
    node.get? keyword.text = other.get? keyword.text
  properties : Option.Rel (PropertiesAlike P) (node.present? .properties)
    (other.present? .properties)
  items : Option.Rel (ItemsAlike P) (node.present? .items) (other.present? .items)

/-- A node stays as it is, or one keyword of it is written. -/
inductive Rewritten (keyword : Keyword) (node : Json) : Json → Prop where
  | kept : Rewritten keyword node node
  | put (value : Json) : Rewritten keyword node (node.put keyword.text value)

theorem Constraints.readMember_keyword {keyword : Keyword} (h : keyword ≠ .format)
    (c : Constraints) (value : Json) : c.readMember keyword.text value = .ok c := by
  cases keyword with
  | format => exact absurd rfl h
  | ref | anyOf | allOf | oneOf | enum | type | properties | items => rfl

theorem Constraints.readMembers_put {keyword : Keyword} (h : keyword ≠ .format)
    (c : Constraints) (value : Json) (members : List (String × Json)) :
    c.readMembers (Assoc.put keyword.text value members) = c.readMembers members := by
  induction members generalizing c with
  | nil =>
      rw [Assoc.put, readMembers, readMembers, readMember_keyword h]
      rfl
  | cons member rest ih =>
      obtain ⟨name, old⟩ := member
      rw [Assoc.put]
      by_cases hname : name = keyword.text
      · rw [if_pos hname, hname, readMembers, readMembers, readMember_keyword h,
          readMember_keyword h]
      · rw [if_neg hname, readMembers, readMembers]
        simp only [ih]

theorem Constraints.ofNode_put {keyword : Keyword} (h : keyword ≠ .format) (node value : Json) :
    ofNode (node.put keyword.text value) = ofNode node := by
  cases node with
  | obj members => rw [Json.put, ofNode, ofNode, readMembers_put h]
  | null | bool | int | float | str | arr => rfl

namespace Rewritten

variable {keyword : Keyword} {node other : Json}

theorem constraints (h : Rewritten keyword node other) (hkeyword : keyword ≠ .format) :
    Constraints.ofNode node = Constraints.ofNode other := by
  cases h with
  | kept => rfl
  | put value => exact (Constraints.ofNode_put hkeyword node value).symm

theorem get? (h : Rewritten keyword node other) {asked : Keyword} (hasked : asked ≠ keyword) :
    node.get? asked.text = other.get? asked.text := by
  cases h with
  | kept => rfl
  | put value => exact (Json.get?_put_of_ne (Keyword.text_ne hasked) node value).symm

theorem present? (h : Rewritten keyword node other) {asked : Keyword} (hasked : asked ≠ keyword) :
    node.present? asked = other.present? asked := by
  rw [Json.present?, Json.present?, h.get? hasked]

end Rewritten

/-- What replaces a node is an object if and only if the node is one; any other node stays. -/
def KeepsShape (node other : Json) : Prop :=
  (∃ members others, node = .obj members ∧ other = .obj others) ∨ other = node

namespace DifferInParts

variable {P Q : Json → Json → Prop} {node other : Json}

theorem present? (h : DifferInParts P node other) {keyword : Keyword}
    (hproperties : keyword ≠ .properties) (hitems : keyword ≠ .items) :
    node.present? keyword = other.present? keyword := by
  rw [Json.present?, Json.present?, h.get? keyword hproperties hitems]

theorem classify_eq (h : DifferInParts P node other) : classify node = classify other := by
  rw [classify, classify]
  generalize Keyword.precedence = keywords
  induction keywords with
  | nil => rfl
  | cons keyword rest ih =>
      rw [Kind.ofKeywords, Kind.ofKeywords, ih]
      by_cases hproperties : keyword = .properties
      · rw [hproperties]
        rcases rel_cases h.properties with ⟨habsent, habsent'⟩ | ⟨value, value', hvalue, hvalue', -⟩
        · rw [habsent, habsent']
        · rw [hvalue, hvalue']
          rfl
      · by_cases hitems : keyword = .items
        · rw [hitems]
          rcases rel_cases h.items with ⟨habsent, habsent'⟩ | ⟨value, value', hvalue, hvalue', -⟩
          · rw [habsent, habsent']
          · rw [hvalue, hvalue']
            rfl
        · rw [h.present? hproperties hitems]

theorem declaredTypes_eq (h : DifferInParts P node other) :
    Scope.declaredTypes node = Scope.declaredTypes other := by
  rw [Scope.declaredTypes, Scope.declaredTypes, h.get? .type (by decide) (by decide)]

theorem agrees_constraints (h : DifferInParts P node other) :
    Agrees Eq (Constraints.ofNode node) (Constraints.ofNode other) := by
  rw [h.constraints]
  exact agrees_self (fun _ => rfl) _

theorem imp (h : DifferInParts P node other) (himp : ∀ x y, P x y → Q x y) :
    DifferInParts Q node other where
  constraints := h.constraints
  get? := h.get?
  properties := rel_imp h.properties fun _ _ halike => halike.imp himp
  items := rel_imp h.items fun _ _ halike => halike.imp himp

/-- Nodes that differ in their parts correspond, unless they are references or have branches. -/
theorem corresponds (h : DifferInParts P node other)
    (hreference : ∀ pointer, node.present? .ref ≠ some (.str pointer)) (hplain : node.Uncombined)
    (hempty : P (.obj []) (.obj []))
    (hunion : ∀ types, classify node = .ok (.union types) →
      ∀ type ∈ types, P (Scope.withType node type) (Scope.withType other type)) :
    Corresponds Eq P node other := by
  have hclassify := h.classify_eq
  cases hkind : classify node with
  | error e => exact .broken hkind (hclassify ▸ hkind) rfl
  | ok kind =>
      have hkind' : classify other = .ok kind := hclassify ▸ hkind
      have hdescribes := describes_of_classify hkind
      have htyped {type : TypeName} (htype : kind.type? = some type) :
          Corresponds Eq P node other :=
        .typed hkind hkind' htype htype (partsCorrespond_of_alike h.properties h.items
          h.agrees_constraints hempty type)
      cases kind with
      | reference pointer => exact absurd hdescribes.present (hreference pointer)
      | anyOf branches => exact nomatch hplain.1.symm.trans hdescribes.present
      | allOf branches => exact nomatch hplain.2.1.symm.trans hdescribes.present
      | oneOf branches => exact nomatch hplain.2.2.symm.trans hdescribes.present
      | enumeration values =>
          refine .enumeration hkind hkind' ?_
          rw [h.declaredTypes_eq]
          exact agrees_self (fun _ => rfl) _
      | union types =>
          refine .choice hkind hkind' rfl rfl ?_
          rw [List.forall₂_map_left_iff, List.forall₂_map_right_iff]
          exact List.forall₂_same.mpr (hunion types hkind)
      | single | format | properties | items => exact htyped rfl
      | empty => exact .empty hkind hkind'

theorem withType (h : DifferInParts P node other) {value : Json}
    (hvalue : node.get? Keyword.type.text = some value) (type : TypeName) :
    DifferInParts P (Scope.withType node type) (Scope.withType other type) := by
  have hvalue' : other.get? Keyword.type.text = some value :=
    h.get? .type (by decide) (by decide) ▸ hvalue
  refine ⟨?_, ?_, ?_, ?_⟩
  · rw [Scope.withType, Scope.withType, Constraints.ofNode_put (by decide),
      Constraints.ofNode_put (by decide)]
    exact h.constraints
  · intro keyword hproperties hitems
    rw [Scope.withType, Scope.withType]
    by_cases htype : keyword = .type
    · rw [htype, Json.get?_put_self hvalue, Json.get?_put_self hvalue']
    · rw [Json.get?_put_of_ne (Keyword.text_ne htype), Json.get?_put_of_ne (Keyword.text_ne htype)]
      exact h.get? keyword hproperties hitems
  · rw [Scope.withType, Scope.withType, Json.present?_put_of_ne (by decide),
      Json.present?_put_of_ne (by decide)]
    exact h.properties
  · rw [Scope.withType, Scope.withType, Json.present?_put_of_ne (by decide),
      Json.present?_put_of_ne (by decide)]
    exact h.items

end DifferInParts

section Inlined

variable {catalog : Catalog} {steps : Nat} {schema : String} {node other : Json}

theorem KeepsShape.trans {between : Json} (h : KeepsShape node between)
    (hnext : KeepsShape between other) : KeepsShape node other := by
  rcases h with ⟨members, others, rfl, rfl⟩ | rfl
  · rcases hnext with ⟨-, others', -, rfl⟩ | rfl
    · exact .inl ⟨_, _, rfl, rfl⟩
    · exact .inl ⟨_, _, rfl, rfl⟩
  · exact hnext

end Inlined

/-! ### Lazy and inlined generators -/

section Unfolding

variable {catalog : Catalog} {home schema : String} {steps : Nat} {node other : Json}

/-- If the second node compiles, so does the first, and to a generator that unfolds to that of the
second. -/
def UnfoldsTo (catalog : Catalog) (home : String) (steps : Nat) (schema : String)
    (node other : Json) : Prop :=
  ∀ generator, Scope.compile ⟨home, catalog.library⟩ other = .ok generator →
    ∃ lazy, Scope.compile ⟨schema, catalog.library⟩ node = .ok lazy ∧
      lazy.Unfolds catalog steps generator

theorem UnfoldsTo.succ (h : UnfoldsTo catalog home steps schema node other) :
    UnfoldsTo catalog home (steps + 1) schema node other := by
  intro generator hcompile
  obtain ⟨lazy, hlazy, hunfolds⟩ := h generator hcompile
  exact ⟨lazy, hlazy, hunfolds.succ⟩

end Unfolding

namespace Sample

end Sample

namespace Sample

end Sample

end Specimen
