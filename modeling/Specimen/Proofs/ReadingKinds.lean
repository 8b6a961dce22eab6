import Specimen.Proofs.Reading

/-!
# Compiling nodes that are read alike

Nodes that are read alike are of one kind and have the same types and constraints, so that they
correspond: compiling goes on with their parts pair by pair. The parts are read alike again unless
one of the two nodes erases something the other one keeps where a schema is laid over another.
-/

namespace Specimen

/-! ### Kinds -/

/-- Kinds of nodes that are read alike. -/
inductive Kind.ReadAlike (N : Json → Json → Prop) : Kind → Kind → Prop where
  | reference (pointer : String) : ReadAlike N (.reference pointer) (.reference pointer)
  | anyOf {branches others : List Json} (each : List.Forall₂ N branches others) :
      ReadAlike N (.anyOf branches) (.anyOf others)
  | allOf {branches others : List Json} (each : List.Forall₂ N branches others) :
      ReadAlike N (.allOf branches) (.allOf others)
  | oneOf {branches others : List Json} (each : List.Forall₂ N branches others) :
      ReadAlike N (.oneOf branches) (.oneOf others)
  | enumeration (values : List Json) : ReadAlike N (.enumeration values) (.enumeration values)
  | union (types : List TypeName) : ReadAlike N (.union types) (.union types)
  | typed {kind : Kind} {type : TypeName} (ofType : kind.type? = some type) : ReadAlike N kind kind
  | empty : ReadAlike N .empty .empty

namespace Json

section Kinds

variable {N : Json → Json → Prop} {value value' node other : Json}

theorem BranchesAlike.related_branches (h : BranchesAlike N value value') (keyword : Keyword) :
    Outcome.Related (fun _ _ => True) (List.Forall₂ N) (Kind.branches keyword value)
      (Kind.branches keyword value') := by
  cases h with
  | each each =>
      cases each with
      | nil => exact .error trivial
      | cons hfirst hrest => exact .ok (.cons hfirst hrest)
  | same plain =>
      cases value with
      | arr => cases plain
      | null | bool | int | float | str | obj => exact .error trivial

theorem readAlike_ofType (value : Json) : Outcome.Related (fun _ _ => True) (Kind.ReadAlike N)
    (Kind.ofType value) (Kind.ofType value) := by
  cases hkind : Kind.ofType value with
  | error e => exact .error trivial
  | ok kind =>
      cases Kind.ofType_eq_ok hkind with
      | single | singleton => exact .ok (.typed rfl)
      | union => exact .ok (.union _)

theorem MemberAlike.ofKeyword {keyword : Keyword} (h : MemberAlike N keyword.text value value') :
    Outcome.Related (fun _ _ => True) (Kind.ReadAlike N) (Kind.ofKeyword keyword value)
      (Kind.ofKeyword keyword value') := by
  cases keyword with
  | anyOf =>
      apply ((h.branchesAlike (by simp)).related_branches .anyOf).bind
      exact fun branches others each => .ok (.anyOf each)
  | allOf =>
      apply ((h.branchesAlike (by simp)).related_branches .allOf).bind
      exact fun branches others each => .ok (.allOf each)
  | oneOf =>
      apply ((h.branchesAlike (by simp)).related_branches .oneOf).bind
      exact fun branches others each => .ok (.oneOf each)
  | ref =>
      obtain rfl := h.eq (by decide)
      cases value with
      | str pointer => exact .ok (.reference pointer)
      | null | bool | int | float | arr | obj => exact .error trivial
  | enum =>
      obtain rfl := h.eq (by decide)
      cases value with
      | arr values => exact .ok (.enumeration values)
      | null | bool | int | float | str | obj => exact .error trivial
  | type =>
      obtain rfl := h.eq (by decide)
      exact readAlike_ofType value
  | format =>
      obtain rfl := h.eq (by decide)
      cases value with
      | str name => exact .ok (.typed rfl)
      | null | bool | int | float | arr | obj => exact .error trivial
  | properties | items => exact .ok (.typed rfl)

/-- Nodes are of one kind if every keyword has values that declare one, or none on both. -/
theorem related_classify (h : ∀ keyword : Keyword,
    Option.Rel (fun value value' => Outcome.Related (fun _ _ => True) (Kind.ReadAlike N)
      (Kind.ofKeyword keyword value) (Kind.ofKeyword keyword value'))
      (node.present? keyword) (other.present? keyword)) :
    Outcome.Related (fun _ _ => True) (Kind.ReadAlike N) (classify node) (classify other) := by
  rw [Specimen.classify, Specimen.classify]
  generalize Keyword.precedence = keywords
  induction keywords with
  | nil => exact .ok .empty
  | cons keyword rest ih =>
      rw [Kind.ofKeywords, Kind.ofKeywords]
      rcases rel_cases (h keyword) with
        ⟨habsent, habsent'⟩ | ⟨value, value', hvalue, hvalue', hrelated⟩
      · rw [habsent, habsent']
        exact ih
      · rw [hvalue, hvalue']
        exact hrelated

theorem declaredTypes_of_absent (h : node.present? .type = none) :
    Scope.declaredTypes node = .ok none := by
  rw [present?_eq_value?] at h
  rw [Scope.declaredTypes]
  rcases nonNull_eq_none h with hget | hget
  · rw [hget]
  · rw [hget]

theorem declaredTypes_eq_of_present? (h : node.present? .type = other.present? .type) :
    Scope.declaredTypes node = Scope.declaredTypes other := by
  cases htype : node.present? .type with
  | none => rw [declaredTypes_of_absent htype, declaredTypes_of_absent (h ▸ htype)]
  | some value =>
      rw [Scope.declaredTypes, Scope.declaredTypes, get?_of_present? htype,
        get?_of_present? (h ▸ htype)]

theorem ReadAlike.present?_eq (h : ReadAlike node other) {keyword : Keyword}
    (hkeyword : keyword.text ∉ ["anyOf", "allOf", "oneOf", "properties", "items"]) :
    node.present? keyword = other.present? keyword := by
  rcases rel_cases (h.present? keyword) with
    ⟨habsent, habsent'⟩ | ⟨value, value', hvalue, hvalue', hrelated⟩
  · rw [habsent, habsent']
  · rw [hvalue, hvalue', hrelated.eq hkeyword]

theorem agrees_ofNode {members others : List (String × Json)}
    (distinct : (Assoc.keys members).Nodup) (distinct' : (Assoc.keys others).Nodup)
    (hsame : ∀ key ∈ Constraints.keywords,
      (Json.obj members).value? key = (Json.obj others).value? key) :
    Agrees AnyErrors (Constraints.ofNode (.obj members)) (Constraints.ofNode (.obj others)) := by
  cases hread : Constraints.ofNode (.obj members) with
  | ok constraints =>
      rw [Constraints.ofNode_eq_ok_of_value?_eq distinct distinct' hsame hread]
      exact .ok rfl
  | error e =>
      cases hread' : Constraints.ofNode (.obj others) with
      | error e' => exact .error trivial
      | ok constraints =>
          have hback := Constraints.ofNode_eq_ok_of_value?_eq distinct' distinct
            (fun key hkey => (hsame key hkey).symm) hread'
          rw [hread] at hback
          cases hback

/-- None of the keywords that constraints are read from holds schemas. -/
theorem constraints_plain : ∀ key ∈ Constraints.keywords,
    key ∉ ["anyOf", "allOf", "oneOf", "properties", "items"] := by
  decide

theorem ReadAlike.agrees_ofNode (h : ReadAlike node other) :
    Agrees AnyErrors (Constraints.ofNode node) (Constraints.ofNode other) := by
  cases h with
  | plain => exact agrees_self (fun _ => trivial) _
  | @object members others distinct distinct' nulls each =>
      apply Json.agrees_ofNode distinct distinct'
      intro key hkey
      have hread : key ∈ readKeys := List.mem_append_right _ hkey
      rcases rel_cases (foundAlike_iff.mp (each key hread)) with
        ⟨habsent, habsent'⟩ | ⟨value, value', hvalue, hvalue', hrelated⟩
      · rw [habsent, habsent']
      · rw [hvalue, hvalue', hrelated.eq (constraints_plain key hkey)]

theorem FieldsAlike.propertiesAlike (h : FieldsAlike N value value') :
    PropertiesAlike N value value' := by
  cases h with
  | each distinct each => exact .each (each.imp fun _ _ hfield => fieldAlike_iff.mp hfield)
  | same notObject => exact .noFields notObject notObject

theorem readAlike_emptySchema : ReadAlike (.obj []) (.obj []) :=
  .object List.nodup_nil List.nodup_nil (fun _ _ hnull => nomatch hnull)
    fun _ _ => foundAlike_iff.mpr .none

theorem ReadAlike.partsCorrespond (h : ReadAlike node other) (type : TypeName) :
    PartsCorrespond AnyErrors ReadAlike node other type :=
  partsCorrespond_of_alike
    (rel_imp (h.present? .properties) fun _ _ hmember => hmember.fields.propertiesAlike)
    (rel_imp (h.present? .items) fun _ _ hmember => hmember.itemsAlike) h.agrees_ofNode
    readAlike_emptySchema type

end Kinds

end Json

/-! ### Schemas laid over others -/

/-- Where two nodes are compiled side by side, the first lays a schema over a base: a branch over
what stands beside the combinator and the branches before it, or what stands beside a reference over
its target. The last node is the one that the second node lays there. -/
inductive LaysOver (catalog : Catalog) (current : String) (node other : Json) :
    Json → Json → Json → Prop where
  | anyOf {branches others : List Json} {branch branch' : Json}
      (left : classify node = .ok (.anyOf branches)) (right : classify other = .ok (.anyOf others))
      (pair : (branch, branch') ∈ branches.zip others) :
      LaysOver catalog current node other (node.without Keyword.anyOf.text) branch branch'
  | oneOf {branches others : List Json} {branch branch' : Json}
      (left : classify node = .ok (.oneOf branches)) (right : classify other = .ok (.oneOf others))
      (pair : (branch, branch') ∈ branches.zip others) :
      LaysOver catalog current node other (node.without Keyword.oneOf.text) branch branch'
  | allOf {before after before' after' : List Json} {branch branch' : Json}
      (left : classify node = .ok (.allOf (before ++ branch :: after)))
      (right : classify other = .ok (.allOf (before' ++ branch' :: after')))
      (place : before.length = before'.length) :
      LaysOver catalog current node other
        (before.foldl Json.merge (node.without Keyword.allOf.text)) branch branch'
  | siblings {pointer : String} {reference : Reference} {target : Json}
      (left : classify node = .ok (.reference pointer))
      (parsed : Reference.parse pointer = .ok reference)
      (found : catalog.resolve (reference.schemaOr current) reference = .ok target) :
      LaysOver catalog current node other target (node.without Keyword.ref.text)
        (other.without Keyword.ref.text)

/-- Wherever the first of two nodes lays a schema over a base, it erases nothing that the second one
keeps. -/
def NothingErased (catalog : Catalog) (current : String) (node other : Json) : Prop :=
  ∀ base overlay stripped, LaysOver catalog current node other base overlay stripped →
    ¬ Json.Erases base overlay stripped

/-- A relation of nodes that compiling keeps up: related nodes are of one kind and have the same types
and constraints, and what compiling makes of them is related again. Where a node is laid over another,
this takes that the three nodes in question do not clash. -/
structure Congruence (N : Json → Json → Prop) (Clash : Json → Json → Json → Prop) : Prop where
  without {node other : Json} (h : N node other) (key : String) :
    N (node.without key) (other.without key)
  withType {node other : Json} {types : List TypeName} (h : N node other)
    (union : classify node = .ok (.union types)) (type : TypeName) :
    N (Scope.withType node type) (Scope.withType other type)
  merge {base base' overlay overlay' : Json} (h : N base base') (above : N overlay overlay')
    (kept : ¬ Clash base overlay overlay') : N (base.merge overlay) (base'.merge overlay')
  kinds {node other : Json} (h : N node other) :
    Outcome.Related (fun _ _ => True) (Kind.ReadAlike N) (classify node) (classify other)
  types {node other : Json} (h : N node other) :
    Agrees AnyErrors (Scope.declaredTypes node) (Scope.declaredTypes other)
  parts {node other : Json} (h : N node other) (type : TypeName) :
    PartsCorrespond AnyErrors N node other type

section Corresponding

variable {catalog : Catalog} {current : String} {N : Json → Json → Prop}
  {Clash : Json → Json → Json → Prop} {node other : Json}

theorem Congruence.foldl_merge (hN : Congruence N Clash) {branches others : List Json}
    {base base' : Json} (h : List.Forall₂ N branches others) (hbase : N base base')
    (hkept : ∀ before branch after before' branch' after',
      branches = before ++ branch :: after → others = before' ++ branch' :: after' →
        before.length = before'.length → ¬ Clash (before.foldl Json.merge base) branch branch') :
    N (branches.foldl Json.merge base) (others.foldl Json.merge base') := by
  induction h generalizing base base' with
  | nil => exact hbase
  | @cons branch branch' rest rest' hfirst _ ih =>
      apply ih (hN.merge hbase hfirst (hkept [] branch rest [] branch' rest' rfl rfl rfl))
      intro before next after before' next' after' hrest hrest' hlength
      exact hkept (branch :: before) next after (branch' :: before') next' after'
        (congrArg (branch :: ·) hrest) (congrArg (branch' :: ·) hrest')
        (congrArg Nat.succ hlength)

theorem Congruence.withBranches (hN : Congruence N Clash) {keyword : Keyword}
    {branches others : List Json} (h : N node other) (heach : List.Forall₂ N branches others)
    (hkept : ∀ branch branch', (branch, branch') ∈ branches.zip others →
      ¬ Clash (node.without keyword.text) branch branch') :
    List.Forall₂ N (branches.map (Scope.withBranch node keyword))
      (others.map (Scope.withBranch other keyword)) := by
  rw [List.forall₂_map_left_iff, List.forall₂_map_right_iff]
  rw [List.forall₂_iff_zip] at heach ⊢
  exact ⟨heach.1, fun hpair =>
    hN.merge (hN.without h keyword.text) (heach.2 hpair) (hkept _ _ hpair)⟩

/-- Nodes that a congruence relates correspond, unless they are references. -/
theorem Congruence.corresponds (hN : Congruence N Clash) (h : N node other)
    (hkept : ∀ base overlay stripped, LaysOver catalog current node other base overlay stripped →
      ¬ Clash base overlay stripped) :
    Corresponds AnyErrors N node other ∨
      ∃ pointer, classify node = .ok (.reference pointer) ∧
        classify other = .ok (.reference pointer) := by
  rcases (hN.kinds h).cases with ⟨kind, kind', hkind, hkind', hrelated⟩ | ⟨e, f, he, hf, -⟩
  · cases hrelated with
    | reference pointer => exact .inr ⟨pointer, hkind, hkind'⟩
    | anyOf each =>
        exact .inl (.choice hkind hkind' rfl rfl (hN.withBranches h each fun branch branch' hpair =>
          hkept _ _ _ (.anyOf hkind hkind' hpair)))
    | oneOf each =>
        exact .inl (.choice hkind hkind' rfl rfl (hN.withBranches h each fun branch branch' hpair =>
          hkept _ _ _ (.oneOf hkind hkind' hpair)))
    | allOf each =>
        refine .inl (.allOf hkind hkind' (hN.foldl_merge each (hN.without h _) ?_))
        rintro before branch after before' branch' after' rfl rfl hlength
        exact hkept _ _ _ (.allOf hkind hkind' hlength)
    | enumeration values => exact .inl (.enumeration hkind hkind' (hN.types h))
    | union types =>
        refine .inl (.choice hkind hkind' rfl rfl ?_)
        rw [List.forall₂_map_left_iff, List.forall₂_map_right_iff]
        exact List.forall₂_same.mpr fun type _ => hN.withType h hkind type
    | typed ofType => exact .inl (.typed hkind hkind' ofType ofType (hN.parts h _))
    | empty => exact .inl (.empty hkind hkind')
  · exact .inl (.broken he hf trivial)

/-- Being read alike is kept up as long as nothing is erased. -/
theorem congruence_readAlike : Congruence Json.ReadAlike Json.Erases where
  without h key := h.without key
  withType h _ type := h.put (by simp) (by simp) (.other (by decide))
  merge h above kept := h.merge above kept
  kinds h := Json.related_classify fun keyword =>
    rel_imp (h.present? keyword) fun _ _ hmember => hmember.ofKeyword
  types h := by
    rw [Json.declaredTypes_eq_of_present? (h.present?_eq (by decide))]
    exact agrees_self (fun _ => trivial) _
  parts h type := h.partsCorrespond type

end Corresponding

/-! ### Nodes reached side by side -/

/-- Two nodes that are compiled at the same place on the way of compiling two others. -/
inductive Json.PartPair (node other : Json) : Json → Json → Prop where
  | candidate {kind kind' : Kind} {keyword keyword' : Keyword} {nodes others : List Json}
      {candidate candidate' : Json} (left : classify node = .ok kind)
      (right : classify other = .ok kind') (candidates : kind.candidates? node = some (keyword, nodes))
      (candidates' : kind'.candidates? other = some (keyword', others))
      (pair : (candidate, candidate') ∈ nodes.zip others) : PartPair node other candidate candidate'
  | merged {branches others : List Json} (left : classify node = .ok (.allOf branches))
      (right : classify other = .ok (.allOf others)) :
      PartPair node other (Scope.withAllBranches node branches) (Scope.withAllBranches other others)
  | property {kind kind' : Kind} {properties others : List (String × Json)}
      {property property' : String × Json} (left : classify node = .ok kind)
      (right : classify other = .ok kind') (object : kind.type? = some .object)
      (present : node.present? .properties = some (.obj properties))
      (present' : other.present? .properties = some (.obj others))
      (pair : (property, property') ∈ properties.zip others) :
      PartPair node other property.2 property'.2
  | place {kind kind' : Kind} {places others : List Json} {place place' : Json}
      (left : classify node = .ok kind) (right : classify other = .ok kind')
      (array : kind.type? = some .array) (present : node.present? .items = some (.arr places))
      (present' : other.present? .items = some (.arr others))
      (pair : (place, place') ∈ places.zip others) : PartPair node other place place'
  | element {kind kind' : Kind} (left : classify node = .ok kind)
      (right : classify other = .ok kind') (array : kind.type? = some .array)
      (plain : ∀ places, node.itemSchema ≠ .arr places) :
      PartPair node other node.itemSchema other.itemSchema

theorem Json.PartPair.part {node other part part' : Json} (h : node.PartPair other part part') :
    node.Part part := by
  cases h with
  | candidate left _ candidates _ pair =>
      exact .candidate left candidates (List.of_mem_zip pair).1
  | merged left => exact .merged left
  | property left _ object present _ pair =>
      exact .property left object present (List.of_mem_zip pair).1
  | place left _ array present _ pair => exact .place left array present (List.of_mem_zip pair).1
  | element left _ array plain => exact .element left array plain

theorem forall₂_zip {α β : Type} {R : α → β → Prop} {as : List α} {bs : List β}
    (h : List.Forall₂ R as bs) : List.Forall₂ (fun a b => R a b ∧ (a, b) ∈ as.zip bs) as bs := by
  rw [List.forall₂_iff_zip] at h ⊢
  exact ⟨h.1, fun hpair => ⟨h.2 hpair, hpair⟩⟩

/-- Parts that correspond are compiled at the same place. -/
theorem Corresponds.paired {E : Error → Error → Prop} {P : Json → Json → Prop} {node other : Json}
    (h : Corresponds E P node other) :
    Corresponds E (fun part part' => P part part' ∧ node.PartPair other part part') node other := by
  cases h with
  | broken left right errors => exact .broken left right errors
  | choice left right candidates candidates' each =>
      exact .choice left right candidates candidates' ((forall₂_zip each).imp fun _ _ h =>
        ⟨h.1, .candidate left right candidates candidates' h.2⟩)
  | allOf left right merged => exact .allOf left right ⟨merged, .merged left right⟩
  | enumeration left right types => exact .enumeration left right types
  | empty left right => exact .empty left right
  | typed left right ofType ofType' parts =>
      apply Corresponds.typed left right ofType ofType'
      cases parts with
      | plain notObject notArray read => exact .plain notObject notArray read
      | bare absent absent' => exact .bare absent absent'
      | noFields present present' notObject notObject' =>
          exact .noFields present present' notObject notObject'
      | fields present present' each =>
          exact .fields present present' ((forall₂_zip each).imp fun _ _ h =>
            ⟨h.1.1, h.1.2, .property left right ofType present present' h.2⟩)
      | places present present' each =>
          exact .places present present' ((forall₂_zip each).imp fun _ _ h =>
            ⟨h.1, .place left right ofType present present' h.2⟩)
      | elements plain plain' read element =>
          exact .elements plain plain' read ⟨element, .element left right ofType plain⟩

/-- The nodes that are compiled side by side when two schemas are sampled in the same catalog, with
the schema they are compiled in. -/
inductive ReachedTogether (catalog : Catalog) (schema : String) (root root' : Json) :
    String → Json → Json → Prop where
  | root : ReachedTogether catalog schema root root' schema root root'
  | part {current : String} {node other part part' : Json}
      (whole : ReachedTogether catalog schema root root' current node other)
      (pair : node.PartPair other part part') :
      ReachedTogether catalog schema root root' current part part'
  | target {current : String} {node other target target' : Json} {pointer : String}
      {reference : Reference}
      (referrer : ReachedTogether catalog schema root root' current node other)
      (left : classify node = .ok (.reference pointer))
      (right : classify other = .ok (.reference pointer))
      (parsed : Reference.parse pointer = .ok reference)
      (found : catalog.target current node reference = .ok target)
      (found' : catalog.target current other reference = .ok target') :
      ReachedTogether catalog schema root root' (reference.schemaOr current) target target'

section Sampling

variable {catalog : Catalog} {start : String} {root root' : Json} {N : Json → Json → Prop}
  {Clash : Json → Json → Json → Prop}

/-- Two related nodes that are compiled side by side in one schema. -/
def Together (N : Json → Json → Prop) (catalog : Catalog) (start : String) (root root' : Json)
    (schema : String) (node : Json) (schema' : String) (node' : Json) : Prop :=
  schema = schema' ∧ N node node' ∧ ReachedTogether catalog start root root' schema node node'

/-- What a congruence relates stays in lockstep if references find nodes that are related to
themselves and nothing clashes where nodes are laid over others. -/
theorem Congruence.lockstep (hN : Congruence N Clash)
    (hself : ∀ name reference found, catalog.resolve name reference = .ok found → N found found)
    (hkept : ∀ current node node', ReachedTogether catalog start root root' current node node' →
      ∀ base overlay stripped, LaysOver catalog current node node' base overlay stripped →
        ¬ Clash base overlay stripped) :
    Lockstep catalog catalog AnyErrors (Together N catalog start root root') := by
  rintro schema node _ node' ⟨rfl, hrelated, hreached⟩
  have hnothing := hkept schema node node' hreached
  rcases hN.corresponds hrelated hnothing with hcorresponds | ⟨pointer, hkind, hkind'⟩
  · left
    apply hcorresponds.paired.imp
    rintro part part' - - ⟨hpart, hpair⟩
    exact ⟨rfl, hpart, .part hreached hpair⟩
  · right
    cases hparse : Reference.parse pointer with
    | error e => exact .misread hkind hkind' hparse hparse trivial
    | ok reference =>
        refine .read hkind hkind' hparse hparse ?_
        cases hresolve : catalog.resolve (reference.schemaOr schema) reference with
        | error e =>
            rw [Catalog.target, Catalog.target, hresolve]
            exact .error trivial
        | ok found =>
            have htarget (node : Json) : catalog.target schema node reference =
                .ok (found.merge (node.without Keyword.ref.text)) := by
              rw [Catalog.target, hresolve]
              rfl
            have hmerged := hN.merge (hself _ _ _ hresolve) (hN.without hrelated Keyword.ref.text)
              (hnothing _ _ _ (.siblings hkind hparse hresolve))
            rw [htarget, htarget]
            exact .ok ⟨rfl, hmerged,
              .target hreached hkind hkind' hparse (htarget node) (htarget node')⟩

end Sampling

end Specimen
