import Specimen.Proofs.Inlining
import Specimen.Proofs.Rewording

/-!
# Unions of types

A node with several types compiles each of them in a copy of itself; a node with branches lays each
branch over what stands beside them. If every branch only names a type, the copies and the overlays
differ in the order of their members and in what is no longer asked, the stripped keyword itself.
Compiling a node of a type reads its properties, its items and its constraints and nothing else, so
both nodes have the same candidates, and they draw alike.
-/

namespace Specimen

/-! ### What a node of a type is compiled from -/

namespace Constraints

theorem readMembers_erase {keyword : Keyword} (h : keyword ≠ .format) (c : Constraints)
    (members : List (String × Json)) :
    c.readMembers (Assoc.erase keyword.text members) = c.readMembers members := by
  induction members generalizing c with
  | nil => rfl
  | cons member rest ih =>
      obtain ⟨name, value⟩ := member
      rw [Assoc.erase]
      by_cases hname : name = keyword.text
      · rw [if_pos hname, hname, readMembers, readMember_keyword h]
      · rw [if_neg hname, readMembers, readMembers]
        simp only [ih]

theorem ofNode_without {keyword : Keyword} (h : keyword ≠ .format) (node : Json) :
    ofNode (node.without keyword.text) = ofNode node := by
  cases node with
  | obj members => rw [Json.without, ofNode, ofNode, readMembers_erase h]
  | null | bool | int | float | str | arr => rfl

end Constraints

/-- Two nodes have the same properties, items and constraints, null counted as absent. -/
structure SameParts (node other : Json) : Prop where
  properties : node.present? .properties = other.present? .properties
  items : node.present? .items = other.present? .items
  constraints : Constraints.ofNode node = Constraints.ofNode other

section Parts

variable {node other third value : Json} {keyword : Keyword}

theorem SameParts.trans (h : SameParts node other) (h' : SameParts other third) :
    SameParts node third :=
  ⟨h.properties.trans h'.properties, h.items.trans h'.items, h.constraints.trans h'.constraints⟩

theorem SameParts.itemSchema (h : SameParts node other) : node.itemSchema = other.itemSchema := by
  rw [Json.itemSchema, Json.itemSchema, h.items]

theorem sameParts_put (hkeyword : keyword ∉ [Keyword.format, .properties, .items])
    (node value : Json) : SameParts (node.put keyword.text value) node := by
  simp only [List.mem_cons, List.not_mem_nil, or_false, not_or] at hkeyword
  obtain ⟨hformat, hproperties, hitems⟩ := hkeyword
  refine ⟨?_, ?_, Constraints.ofNode_put hformat node value⟩
  · exact Json.present?_put_of_ne (Keyword.text_ne (Ne.symm hproperties)) node value
  · exact Json.present?_put_of_ne (Keyword.text_ne (Ne.symm hitems)) node value

theorem Json.IsObject.present?_without_of_ne (h : node.IsObject) {other : Keyword}
    (hne : other ≠ keyword) :
    (node.without keyword.text).present? other = node.present? other := by
  rw [Json.present?, Json.present?, h.get?_without_of_ne (Keyword.text_ne hne)]

theorem sameParts_without (hkeyword : keyword ∉ [Keyword.format, .properties, .items])
    (hnode : node.IsObject) : SameParts (node.without keyword.text) node := by
  simp only [List.mem_cons, List.not_mem_nil, or_false, not_or] at hkeyword
  obtain ⟨hformat, hproperties, hitems⟩ := hkeyword
  refine ⟨?_, ?_, Constraints.ofNode_without hformat node⟩
  · exact hnode.present?_without_of_ne (Ne.symm hproperties)
  · exact hnode.present?_without_of_ne (Ne.symm hitems)

end Parts

/-! ### Two wordings of a choice of types -/

/-- The node with several types. -/
def Json.withTypes (node : Json) (types : List TypeName) : Json :=
  node.put Keyword.type.text (.arr (types.map fun type => .str type.text))

/-- A schema that only names a type. -/
def TypeName.schema (type : TypeName) : Json :=
  .obj [(Keyword.type.text, .str type.text)]

/-- The node with a branch for every type in the place of its own type. -/
def Json.withTypeBranches (node : Json) (types : List TypeName) : Json :=
  (node.without Keyword.type.text).put Keyword.anyOf.text (.arr (types.map TypeName.schema))

namespace Scope

variable {scope : Scope} {node other : Json} {types : List TypeName}

theorem compileType_congr (h : SameParts node other) (scope : Scope) (type : TypeName) :
    scope.compileType node type = scope.compileType other type := by
  rw [compileType.eq_def, compileType.eq_def]
  cases type with
  | object =>
      dsimp only
      cases hpresent : node.present? .properties with
      | none =>
          rw [compileObject_of_bare hpresent, compileObject_of_bare (h.properties ▸ hpresent)]
      | some value =>
          have hpresent' : other.present? .properties = some value := h.properties ▸ hpresent
          cases value with
          | obj properties =>
              rw [compileObject_eq properties hpresent, compileObject_eq properties hpresent']
          | null | bool | int | float | str | arr =>
              rw [compileObject_of_noFields hpresent (by simp),
                compileObject_of_noFields hpresent' (by simp)]
  | array =>
      dsimp only
      by_cases hplaces : ∃ places, node.present? .items = some (.arr places)
      · obtain ⟨places, hpresent⟩ := hplaces
        rw [compileArray_eq places hpresent, compileArray_eq places (h.items ▸ hpresent)]
      · have hplain : ∀ places, node.itemSchema ≠ .arr places := by
          intro places hschema
          cases hpresent : node.present? .items <;> simp_all [Json.itemSchema]
        have hplain' : ∀ places, other.itemSchema ≠ .arr places := h.itemSchema ▸ hplain
        rw [compileArray_of_elements hplain, compileArray_of_elements hplain', h.constraints,
          h.itemSchema]
  | string =>
      dsimp only
      rw [string, string, h.constraints]
  | boolean | integer | number | null =>
      dsimp only
      rw [primitive, primitive, h.constraints]

/-- None of the keywords that are asked before the type is on the node. -/
def LeftToType (node : Json) : Prop :=
  ∀ keyword ∈ [Keyword.ref, .anyOf, .allOf, .oneOf, .enum], node.present? keyword = none

theorem LeftToType.put_type (h : LeftToType node) (value : Json) :
    LeftToType (node.put Keyword.type.text value) := by
  intro keyword hkeyword
  have hne : keyword ≠ .type := by
    rintro rfl
    exact absurd hkeyword (by decide)
  rw [Json.present?_put_of_ne (Keyword.text_ne hne)]
  exact h keyword hkeyword

theorem present?_put_type (hnode : node.IsObject) {value : Json} (hvalue : value ≠ .null) :
    (node.put Keyword.type.text value).present? .type = some value := by
  rw [Json.present?, hnode.get?_put_self]
  cases value with
  | null => exact absurd rfl hvalue
  | bool | int | float | str | arr | obj => rfl

theorem classify_put_type (hnode : node.IsObject) (hleft : LeftToType node) {value : Json}
    (hvalue : value ≠ .null) :
    classify (node.put Keyword.type.text value) = Kind.ofType value :=
  classify_of_decides ⟨present?_put_type hnode hvalue, _, [.format, .properties, .items], rfl,
    hleft.put_type value⟩

theorem compile_withType (hnode : node.IsObject) (hleft : LeftToType node) (scope : Scope)
    (type : TypeName) : scope.compile (withType node type) = scope.compileType node type := by
  have hkind : classify (withType node type) = .ok (.single type) := by
    rw [withType, classify_put_type hnode hleft (by simp), Kind.ofType,
      TypeName.read_eq_ok_iff.mpr rfl]
    rfl
  rw [compile_of_classify hkind, compileKind]
  exact compileType_congr (sameParts_put (by decide) node _) scope type

theorem compileAll_map_congr {α : Type} {f g : α → Json} (as : List α)
    (h : ∀ a, scope.compile (f a) = scope.compile (g a)) :
    scope.compileAll (as.map f) = scope.compileAll (as.map g) := by
  induction as with
  | nil => rfl
  | cons a as ih => rw [List.map_cons, List.map_cons, compileAll, compileAll, h, ih]

/-- A branch that only names a type writes that type. -/
theorem withBranch_schema (hnode : node.IsObject) (keyword : Keyword) (type : TypeName) :
    withBranch node keyword type.schema = withType (node.without keyword.text) type := by
  obtain ⟨members, rfl, -⟩ := hnode
  simp only [withBranch, withType, TypeName.schema, Json.without, Json.put, Json.merge,
    Json.mergeMembers]
  cases Assoc.get? Keyword.type.text (Assoc.erase keyword.text members) <;> rfl

/-- The candidate for a type compiles as the node does under that type, whether the type replaces a
list of types or comes from a branch. -/
theorem compile_withType_withTypes (hnode : node.IsObject) (hleft : LeftToType node)
    (scope : Scope) (types : List TypeName) (type : TypeName) :
    scope.compile (withType (node.withTypes types) type) = scope.compileType node type := by
  have hlisted : (node.withTypes types).IsObject := hnode.put _ _
  rw [compile_withType hlisted (hleft.put_type _)]
  exact compileType_congr (sameParts_put (by decide) node _) scope type

theorem compile_withBranch_withTypeBranches (hnode : node.IsObject) (hleft : LeftToType node)
    (scope : Scope) (types : List TypeName) (type : TypeName) :
    scope.compile (withBranch (node.withTypeBranches types) .anyOf type.schema) =
      scope.compileType node type := by
  have hstripped : (node.without Keyword.type.text).IsObject := hnode.without _
  have hbranched : (node.withTypeBranches types).IsObject := hstripped.put _ _
  have hbase : LeftToType ((node.withTypeBranches types).without Keyword.anyOf.text) := by
    intro keyword hkeyword
    by_cases hanyOf : keyword = .anyOf
    · rw [hanyOf, Json.present?, hbranched.get?_without_self]
    · have htype : keyword ≠ .type := by
        rintro rfl
        exact absurd hkeyword (by decide)
      rw [hbranched.present?_without_of_ne hanyOf, Json.withTypeBranches,
        Json.present?_put_of_ne (Keyword.text_ne hanyOf), hnode.present?_without_of_ne htype]
      exact hleft keyword hkeyword
  have hparts : SameParts ((node.withTypeBranches types).without Keyword.anyOf.text) node :=
    ((sameParts_without (by decide) hbranched).trans (sameParts_put (by decide) _ _)).trans
      (sameParts_without (by decide) hnode)
  rw [withBranch_schema hbranched, compile_withType (hbranched.without _) hbase]
  exact compileType_congr hparts scope type

theorem classify_withTypes (hnode : node.IsObject) (hleft : LeftToType node)
    (hseveral : 2 ≤ types.length) : classify (node.withTypes types) = .ok (.union types) := by
  rw [Json.withTypes, classify_put_type hnode hleft (by simp), Kind.ofType,
    TypeName.mapM_readEntry_eq_ok_iff.mpr rfl]
  obtain _ | ⟨first, _ | ⟨second, rest⟩⟩ := types
  · cases hseveral
  · exact absurd hseveral (by simp)
  · rfl

theorem classify_withTypeBranches (hnode : node.IsObject) (hleft : LeftToType node)
    (hsome : types ≠ []) :
    classify (node.withTypeBranches types) = .ok (.anyOf (types.map TypeName.schema)) := by
  have hanyOf : (node.withTypeBranches types).present? .anyOf =
      some (.arr (types.map TypeName.schema)) := by
    rw [Json.present?, Json.withTypeBranches, (hnode.without _).get?_put_self]
  have href : (node.withTypeBranches types).present? .ref = none := by
    rw [Json.withTypeBranches, Json.present?_put_of_ne (by decide),
      hnode.present?_without_of_ne (by decide), hleft .ref (by decide)]
  have hdecides : Decides (node.withTypeBranches types) .anyOf
      (.arr (types.map TypeName.schema)) :=
    ⟨hanyOf, [.ref], _, rfl, fun keyword hkeyword => List.mem_singleton.mp hkeyword ▸ href⟩
  rw [classify_of_decides hdecides]
  cases types with
  | nil => exact absurd rfl hsome
  | cons first rest => rfl

/-- Two choices among the same candidates draw alike, whatever keyword they stand for. -/
theorem generate_choice_congr (keyword other : Keyword) (candidates : List Generator)
    (picker : Picker) (catalog : Catalog) (depth : Nat) :
    (Generator.choice keyword candidates picker).generate catalog depth =
      (Generator.choice other candidates picker).generate catalog depth := by
  cases depth <;> rfl

/-- A node with several types and the same node with a branch for each of them fail to compile with
the same error, or both compile and give the same drafts and values from every source. -/
theorem compile_withTypes_alike (hnode : node.IsObject) (hleft : LeftToType node)
    (hseveral : 2 ≤ types.length) (scope : Scope) :
    Outcome.Related Eq (fun listed branched => ∀ catalog depth,
        listed.generate catalog depth = branched.generate catalog depth ∧
        listed.produce catalog depth = branched.produce catalog depth)
      (scope.compile (node.withTypes types)) (scope.compile (node.withTypeBranches types)) := by
  have hsome : types ≠ [] := by
    rintro rfl
    exact absurd hseveral (by decide)
  have hcandidates : scope.compileAll (types.map (withType (node.withTypes types))) =
      scope.compileAll (types.map
        (withBranch (node.withTypeBranches types) .anyOf ∘ TypeName.schema)) := by
    apply compileAll_map_congr
    intro type
    rw [compile_withType_withTypes hnode hleft, Function.comp_apply,
      compile_withBranch_withTypeBranches hnode hleft]
  rw [compile_of_classify (classify_withTypes hnode hleft hseveral),
    compile_of_classify (classify_withTypeBranches hnode hleft hsome),
    compileKind_of_candidates? rfl, compileKind_of_candidates? rfl, List.map_map, hcandidates]
  refine (Outcome.related_self (fun _ => rfl) _).bind ?_
  rintro candidates _ rfl
  rw [choice, choice]
  cases scope.library.index candidates.length with
  | error e => exact .error rfl
  | ok picker =>
      refine .ok fun catalog depth => ⟨generate_choice_congr .type .anyOf .., ?_⟩
      rw [Generator.produce, Generator.produce, generate_choice_congr .type .anyOf]

end Scope

namespace Sample

/-- A schema whose own type gives way to others. -/
def flagNode : Json :=
  .obj [("type", .str "object"), ("title", .str "flag")]

theorem isObject_flagNode : flagNode.IsObject :=
  ⟨_, rfl, by decide⟩

theorem leftToType_flagNode : Scope.LeftToType flagNode := by
  simp only [Scope.LeftToType, List.forall_mem_cons]
  exact ⟨rfl, rfl, rfl, rfl, rfl, nofun⟩

theorem compile_flagNode_withTypes :
    scope.compile (flagNode.withTypes [.null, .boolean]) =
      .ok (.choice .type [.leaf Leaf.null, .leaf Leaf.boolean] ⟨2, Nat.two_pos⟩) := by
  have hkind : classify (flagNode.withTypes [.null, .boolean]) = .ok (.union [.null, .boolean]) :=
    Scope.classify_withTypes isObject_flagNode leftToType_flagNode (Nat.le_refl 2)
  have htype (type : TypeName) :
      scope.compile (Scope.withType (flagNode.withTypes [.null, .boolean]) type) =
        scope.compileType flagNode type :=
    Scope.compile_withType_withTypes isObject_flagNode leftToType_flagNode scope _ type
  rw [Scope.compile_of_classify hkind, Scope.compileKind_of_candidates? rfl, List.map, List.map,
    List.map, Scope.compileAll, Scope.compileAll, Scope.compileAll, htype, htype, Scope.compileType,
    Scope.compileType]
  rfl

/-- A null or a boolean, by a list of the two types or by two branches. -/
theorem compile_withTypes_alike_flagNode : ∃ listed branched,
    scope.compile (.obj [("type", .arr [.str "null", .str "boolean"]), ("title", .str "flag")]) =
      .ok listed ∧
    scope.compile (.obj [("title", .str "flag"), ("anyOf", .arr
      [.obj [("type", .str "null")], .obj [("type", .str "boolean")]])]) = .ok branched ∧
    ∀ catalog depth, listed.produce catalog depth = branched.produce catalog depth := by
  have hseveral : 2 ≤ [TypeName.null, .boolean].length := Nat.le_refl 2
  have halike :=
    Scope.compile_withTypes_alike isObject_flagNode leftToType_flagNode hseveral scope
  rcases halike.cases with ⟨listed, branched, hlisted, hbranched, hsame⟩ | ⟨e, _, hlisted, -, -⟩
  · exact ⟨listed, branched, hlisted, hbranched, fun catalog depth => (hsame catalog depth).2⟩
  · rw [compile_flagNode_withTypes] at hlisted
    cases hlisted

end Sample

end Specimen
