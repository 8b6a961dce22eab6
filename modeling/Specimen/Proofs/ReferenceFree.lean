import Specimen.Proofs.Qualifying

/-!
# Schemas without references

A schema is free of references when `$ref` is absent or null on it and on every schema below it.
Laying one such schema over another cannot bring a reference in, so whatever is compiled on the way
of compiling one is free of references again.
-/

namespace Specimen

namespace Json

/-- A schema that stands under a keyword with this value. -/
inductive Child : String → Json → Json → Prop where
  | branch {keyword : Keyword} {branches : List Json} {branch : Json}
      (combinator : keyword ∈ [Keyword.anyOf, .allOf, .oneOf]) (member : branch ∈ branches) :
      Child keyword.text (.arr branches) branch
  | property {properties : List (String × Json)} {name : String} {property : Json}
      (member : (name, property) ∈ properties) :
      Child Keyword.properties.text (.obj properties) property
  | place {places : List Json} {place : Json} (member : place ∈ places) :
      Child Keyword.items.text (.arr places) place
  | element {schema : Json} (plain : schema.items? = none) :
      Child Keyword.items.text schema schema

theorem Child.exists_property {properties : List (String × Json)} {child : Json}
    (h : Child "properties" (.obj properties) child) : ∃ name, (name, child) ∈ properties := by
  generalize hkey : "properties" = key at h
  cases h with
  | property member => exact ⟨_, member⟩
  | element => exact absurd hkey (by decide)

/-- No schema, from a node downwards, has a `$ref` other than null. The values of an enumeration are
not schemas. -/
inductive ReferenceFree : Json → Prop where
  | plain {node : Json} (notObject : ∀ members, node ≠ .obj members) : ReferenceFree node
  | object {members : List (String × Json)}
      (noReference : ∀ value, (Keyword.ref.text, value) ∈ members → value = .null)
      (children : ∀ key value child, (key, value) ∈ members → Child key value child →
        ReferenceFree child) : ReferenceFree (.obj members)

/-- What may stand under a key of a schema without references. -/
structure MemberFree (key : String) (value : Json) : Prop where
  reference : key = Keyword.ref.text → value = .null
  children : ∀ child, Child key value child → ReferenceFree child

theorem referenceFree_obj_iff {members : List (String × Json)} :
    ReferenceFree (.obj members) ↔ ∀ key value, (key, value) ∈ members → MemberFree key value := by
  constructor
  · intro h key value hmember
    cases h with
    | plain notObject => exact absurd rfl (notObject members)
    | object noReference children =>
        exact ⟨fun hkey => noReference value (hkey ▸ hmember),
          fun child => children key value child hmember⟩
  · intro h
    exact .object (fun value hmember => (h _ value hmember).reference rfl)
      fun key value child hmember => (h key value hmember).children child

theorem referenceFree_emptySchema : ReferenceFree (.obj []) :=
  referenceFree_obj_iff.mpr fun _ _ hmember => absurd hmember List.not_mem_nil

/-! ### Laying over -/

/-- What holds of the members on both sides, and of one laid over another, holds of all merged
members. -/
theorem forall_mem_mergeMembers {P : String → Json → Prop} {members above : List (String × Json)}
    (hmembers : ∀ key value, (key, value) ∈ members → P key value)
    (habove : ∀ key value, (key, value) ∈ above → P key value)
    (hmerge : ∀ key old value, P key old → (key, value) ∈ above → P key (old.merge value)) :
    ∀ key value, (key, value) ∈ mergeMembers members above → P key value := by
  induction above generalizing members with
  | nil => exact hmembers
  | cons entry rest ih =>
      obtain ⟨written, laid⟩ := entry
      rw [mergeMembers]
      apply ih
      · intro key value hmember
        rcases Assoc.mem_put hmember with hold | hnew
        · exact hmembers key value hold
        · obtain ⟨rfl, rfl⟩ := Prod.mk.inj hnew
          cases hget : Assoc.get? key members with
          | none => exact habove key laid List.mem_cons_self
          | some old =>
              exact hmerge key old laid (hmembers key old (Assoc.mem_of_get? hget))
                List.mem_cons_self
      · exact fun key value hmember => habove key value (List.mem_cons_of_mem _ hmember)
      · exact fun key old value hold hmember =>
          hmerge key old value hold (List.mem_cons_of_mem _ hmember)

theorem forall_mem_mergeItems {P : Json → Prop} {items above : List Json}
    (hitems : ∀ item ∈ items, P item) (habove : ∀ item ∈ above, P item)
    (hmerge : ∀ item value, P item → value ∈ above → P (item.merge value)) :
    ∀ item ∈ mergeItems items above, P item := by
  induction above generalizing items with
  | nil => simpa only [mergeItems] using hitems
  | cons value rest ih =>
      cases items with
      | nil => exact habove
      | cons item items =>
          intro merged hmerged
          rw [mergeItems] at hmerged
          rcases List.mem_cons.mp hmerged with rfl | hrest
          · exact hmerge item value (hitems item List.mem_cons_self) List.mem_cons_self
          · exact ih (fun item hitem => hitems item (List.mem_cons_of_mem _ hitem))
              (fun item hitem => habove item (List.mem_cons_of_mem _ hitem))
              (fun item value hitem hvalue => hmerge item value hitem (List.mem_cons_of_mem _ hvalue))
              merged hrest

/-- The schemas under a keyword of a merged node stand under it on one of the sides, or are such
schemas laid over each other. -/
theorem forall_child_merge {P : Json → Prop} {key : String} {old value : Json}
    (hold : ∀ child, Child key old child → P child)
    (hvalue : ∀ child, Child key value child → P child)
    (hmerge : ∀ child other, P child → Child key value other → P (child.merge other)) :
    ∀ child, Child key (old.merge value) child → P child := by
  intro child hchild
  generalize hmerged : old.merge value = merged at hchild
  cases hchild with
  | @branch keyword branches _ combinator member =>
      cases value with
      | arr above =>
          cases old with
          | arr items =>
              obtain rfl : mergeItems items above = branches := Json.arr.inj hmerged
              exact forall_mem_mergeItems (fun item hitem => hold item (.branch combinator hitem))
                (fun item hitem => hvalue item (.branch combinator hitem))
                (fun item other hitem hother => hmerge item other hitem (.branch combinator hother))
                child member
          | null | bool | int | float | str | obj =>
              cases hmerged
              exact hvalue child (.branch combinator member)
      | null | bool | int | float | str => cases hmerged
      | obj above => cases old <;> cases hmerged
  | @place places _ member =>
      cases value with
      | arr above =>
          cases old with
          | arr items =>
              obtain rfl : mergeItems items above = places := Json.arr.inj hmerged
              exact forall_mem_mergeItems (fun item hitem => hold item (.place hitem))
                (fun item hitem => hvalue item (.place hitem))
                (fun item other hitem hother => hmerge item other hitem (.place hother))
                child member
          | null | bool | int | float | str | obj =>
              cases hmerged
              exact hvalue child (.place member)
      | null | bool | int | float | str => cases hmerged
      | obj above => cases old <;> cases hmerged
  | @property properties name _ member =>
      cases value with
      | obj above =>
          cases old with
          | obj members =>
              obtain rfl : mergeMembers members above = properties := Json.obj.inj hmerged
              exact forall_mem_mergeMembers (P := fun _ property => P property)
                (fun key property hproperty => hold property (.property hproperty))
                (fun key property hproperty => hvalue property (.property hproperty))
                (fun key property other hproperty hother =>
                  hmerge property other hproperty (.property hother))
                name child member
          | null | bool | int | float | str | arr =>
              cases hmerged
              exact hvalue child (.property member)
      | null | bool | int | float | str => cases hmerged
      | arr above => cases old <;> cases hmerged
  | element plain =>
      cases value with
      | null | bool | int | float | str =>
          cases hmerged
          exact hvalue _ (.element rfl)
      | arr above => cases old <;> cases hmerged <;> cases plain
      | obj above =>
          subst hmerged
          cases old with
          | obj members => exact hmerge _ _ (hold _ (.element rfl)) (.element rfl)
          | null | bool | int | float | str | arr => exact hvalue _ (.element rfl)

theorem MemberFree.merge {key : String} {old value : Json} (hold : MemberFree key old)
    (hvalue : MemberFree key value)
    (hmerge : ∀ child other, ReferenceFree child → Child key value other →
      ReferenceFree (child.merge other)) : MemberFree key (old.merge value) := by
  constructor
  · intro hkey
    rw [hvalue.reference hkey]
    rfl
  · exact forall_child_merge hold.children hvalue.children hmerge

/-- Laying a schema without references over another brings none in. -/
theorem ReferenceFree.merge {base overlay : Json} (hbase : base.ReferenceFree)
    (hoverlay : overlay.ReferenceFree) : (base.merge overlay).ReferenceFree := by
  induction hoverlay generalizing base with
  | @plain overlay notObject =>
      cases overlay with
      | obj members => exact absurd rfl (notObject members)
      | arr above =>
          cases base with
          | null | bool | int | float | str | arr | obj => exact .plain (by simp [Json.merge])
      | null | bool | int | float | str => exact .plain notObject
  | @object above noReference children ih =>
      have habove : ∀ key value, (key, value) ∈ above → MemberFree key value :=
        referenceFree_obj_iff.mp (.object noReference children)
      cases base with
      | null | bool | int | float | str | arr => exact .object noReference children
      | obj members =>
          apply referenceFree_obj_iff.mpr
          apply forall_mem_mergeMembers (referenceFree_obj_iff.mp hbase) habove
          intro key old value hold hmember
          apply hold.merge (habove key value hmember)
          intro child other hchild hother
          exact ih key value other hmember hother hchild

theorem ReferenceFree.foldl_merge {branches : List Json} {base : Json} (hbase : base.ReferenceFree)
    (hbranches : ∀ branch ∈ branches, branch.ReferenceFree) :
    (branches.foldl Json.merge base).ReferenceFree := by
  induction branches generalizing base with
  | nil => exact hbase
  | cons branch rest ih =>
      exact ih (hbase.merge (hbranches branch List.mem_cons_self)) fun branch hbranch =>
        hbranches branch (List.mem_cons_of_mem _ hbranch)

/-! ### The parts of a node -/

section Parts

variable {node : Json}

theorem ReferenceFree.memberFree {key : String} {value : Json} (h : node.ReferenceFree)
    (hget : node.get? key = some value) : MemberFree key value := by
  cases node with
  | obj members => exact referenceFree_obj_iff.mp h key value (Assoc.mem_of_get? hget)
  | null | bool | int | float | str | arr => cases hget

theorem ReferenceFree.without (h : node.ReferenceFree) (key : String) :
    (node.without key).ReferenceFree := by
  cases node with
  | obj members =>
      apply referenceFree_obj_iff.mpr
      intro other value hmember
      exact referenceFree_obj_iff.mp h other value ((Assoc.erase_sublist key members).mem hmember)
  | null | bool | int | float | str | arr => exact h

theorem ReferenceFree.put {key : String} {value : Json} (h : node.ReferenceFree)
    (hvalue : MemberFree key value) : (node.put key value).ReferenceFree := by
  cases node with
  | obj members =>
      apply referenceFree_obj_iff.mpr
      intro other found hmember
      rcases Assoc.mem_put hmember with hold | hnew
      · exact referenceFree_obj_iff.mp h other found hold
      · obtain ⟨rfl, rfl⟩ := Prod.mk.inj hnew
        exact hvalue
  | null | bool | int | float | str | arr => exact h

/-- Under a key that is none of the keywords for schemas anything may stand. -/
theorem memberFree_of_notMem {key : String} (value : Json)
    (hkey : key ∉ ["$ref", "anyOf", "allOf", "oneOf", "properties", "items"]) :
    MemberFree key value := by
  simp only [List.mem_cons, List.not_mem_nil, or_false, not_or] at hkey
  obtain ⟨href, hanyOf, hallOf, honeOf, hproperties, hitems⟩ := hkey
  constructor
  · exact fun h => absurd h href
  · intro child hchild
    cases hchild with
    | branch combinator =>
        simp only [List.mem_cons, List.not_mem_nil, or_false] at combinator
        rcases combinator with rfl | rfl | rfl
        · exact absurd rfl hanyOf
        · exact absurd rfl hallOf
        · exact absurd rfl honeOf
    | property => exact absurd rfl hproperties
    | place | element => exact absurd rfl hitems

theorem referenceFree_of_keys {members : List (String × Json)}
    (h : ∀ key ∈ Assoc.keys members,
      key ∉ ["$ref", "anyOf", "allOf", "oneOf", "properties", "items"]) :
    (obj members).ReferenceFree := by
  apply referenceFree_obj_iff.mpr
  intro key value hmember
  exact memberFree_of_notMem value (h key (List.mem_map_of_mem hmember))

theorem ReferenceFree.not_reference (h : node.ReferenceFree) (pointer : String) :
    classify node ≠ .ok (.reference pointer) := by
  intro hkind
  have hdecides : Decides node .ref (.str pointer) := describes_of_classify hkind
  have hnull := (h.memberFree (get?_of_present? hdecides.present)).reference rfl
  cases hnull

theorem ReferenceFree.withBranch {keyword : Keyword} {branches : List Json} {branch : Json}
    (h : node.ReferenceFree) (hkeyword : keyword ∈ [Keyword.anyOf, .allOf, .oneOf])
    (hget : node.get? keyword.text = some (.arr branches)) (hbranch : branch ∈ branches) :
    (Scope.withBranch node keyword branch).ReferenceFree :=
  (h.without keyword.text).merge ((h.memberFree hget).children branch (.branch hkeyword hbranch))

/-- What is compiled on the way of compiling a schema without references has none either. -/
theorem ReferenceFree.part {part : Json} (h : node.ReferenceFree) (hpart : node.Part part) :
    part.ReferenceFree := by
  cases hpart with
  | @candidate kind keyword nodes _ classified candidates member =>
      have hget := Kind.get?_of_classify classified
      cases kind with
      | anyOf branches =>
          cases candidates
          obtain ⟨branch, hbranch, rfl⟩ := List.mem_map.mp member
          exact h.withBranch (by simp) hget hbranch
      | oneOf branches =>
          cases candidates
          obtain ⟨branch, hbranch, rfl⟩ := List.mem_map.mp member
          exact h.withBranch (by simp) hget hbranch
      | union types =>
          cases candidates
          obtain ⟨type, -, rfl⟩ := List.mem_map.mp member
          exact h.put (memberFree_of_notMem _ (by decide))
      | reference | allOf | enumeration | single | format | properties | items | empty =>
          cases candidates
  | @merged branches classified =>
      have hbelow := (h.memberFree (Kind.get?_of_classify classified)).children
      exact (h.without _).foldl_merge fun branch hbranch =>
        hbelow branch (.branch (by simp) hbranch)
  | property classified object present member =>
      exact (h.memberFree (get?_of_present? present)).children _ (.property member)
  | place classified array present member =>
      exact (h.memberFree (get?_of_present? present)).children _ (.place member)
  | element classified array plain =>
      rw [itemSchema]
      rw [itemSchema] at plain
      cases hitems : node.present? .items with
      | none => exact referenceFree_emptySchema
      | some schema =>
          rw [hitems] at plain
          have hplain : schema.items? = none := by
            cases schema with
            | arr places => exact absurd rfl (plain places)
            | null | bool | int | float | str | obj => rfl
          exact (h.memberFree (get?_of_present? hitems)).children _ (.element hplain)

end Parts

end Json

end Specimen
