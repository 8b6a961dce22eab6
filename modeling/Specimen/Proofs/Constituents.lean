import Specimen.Proofs.Laying
import Specimen.Proofs.Satisfying

/-!
# Branches of a merged node

The branches of an `allOf` are laid over each other, and the later one wins wherever two of them
write under one key. A value of the merged node need not be one of an earlier branch, then. It is
not rejected by a branch that the merge upholds: at every place that the branch judges, the
constraints that the nodes laid over each other leave are no wider than those of the branch, and the
values they list satisfy it. So branches may narrow each other down, property by property, and a
branch fails only where another one widens it.
-/

namespace Specimen

/-- The merge of some nodes upholds a part: at every place that the part judges, the nodes together
say no less than the part. The part is compiled by one library in any scope, the nodes in a scope
that references may lead out of. -/
inductive Upholds (engine : Pattern.Engine) (catalog : Catalog) : Scope → List Json → Json → Prop where
  /-- References, choices and the empty schema judge nothing. -/
  | unjudged {scope : Scope} {nodes : List Json} {part : Json} {kind : Kind}
      (classified : classify part = .ok kind) (unjudged : kind.Unjudged) :
      Upholds engine catalog scope nodes part
  | merged {scope : Scope} {nodes branches : List Json} {part : Json}
      (classified : classify part = .ok (.allOf branches))
      (upholds : Upholds engine catalog scope nodes (Scope.withAllBranches part branches)) :
      Upholds engine catalog scope nodes part
  /-- Where the nodes do not go together place by place, they are taken as the one they make. -/
  | whole {scope : Scope} {nodes : List Json} {part : Json}
      (upholds : Upholds engine catalog scope [Json.laid nodes] part) :
      Upholds engine catalog scope nodes part
  | reference {scope : Scope} {nodes : List Json} {part : Json} {pointer : String}
      {target : Reference} (classified : classify (Json.laid nodes) = .ok (.reference pointer))
      (parsed : Reference.parse pointer = .ok target)
      (upholds : ∀ found, catalog.resolve (target.schemaOr scope.schema) target = .ok found →
        Upholds engine catalog ⟨target.schemaOr scope.schema, catalog.library⟩
          [found, (Json.laid nodes).without Keyword.ref.text] part) :
      Upholds engine catalog scope nodes part
  | choice {scope : Scope} {nodes candidates : List Json} {part : Json} {kind : Kind}
      {keyword : Keyword} (classified : classify (Json.laid nodes) = .ok kind)
      (among : kind.candidates? (Json.laid nodes) = some (keyword, candidates))
      (upholds : ∀ candidate ∈ candidates, Upholds engine catalog scope [candidate] part) :
      Upholds engine catalog scope nodes part
  | allOf {scope : Scope} {nodes branches : List Json} {part : Json}
      (classified : classify (Json.laid nodes) = .ok (.allOf branches))
      (upholds : Upholds engine catalog scope
        ((Json.laid nodes).without Keyword.allOf.text :: branches) part) :
      Upholds engine catalog scope nodes part
  | enumeration {scope : Scope} {nodes values : List Json} {part : Json}
      (classified : classify (Json.laid nodes) = .ok (.enumeration values))
      (listed : ∀ value ∈ values, AllowsType (Json.laid nodes) value →
        Satisfies engine part value) :
      Upholds engine catalog scope nodes part
  | empty {scope : Scope} {nodes : List Json} {part : Json}
      (classified : classify (Json.laid nodes) = .ok .empty)
      (satisfies : Satisfies engine part (.obj [])) : Upholds engine catalog scope nodes part
  | leaf {scope : Scope} {nodes : List Json} {part : Json} {type type' : TypeName}
      {constraints constraints' : Constraints} (ofType : (Json.laid nodes).OfType type)
      (ofType' : part.OfType type') (read : Constraints.ofNode (Json.laid nodes) = .ok constraints)
      (read' : Constraints.ofNode part = .ok constraints')
      (narrows : Narrows engine constraints constraints' type type') :
      Upholds engine catalog scope nodes part
  | object {scope : Scope} {nodes : List Json} {part : Json}
      (ofType : (Json.laid nodes).OfType .object) (ofType' : part.OfType .object)
      (objects : ∀ node ∈ nodes, node.IsObject)
      (fields : ∀ node ∈ Json.under Keyword.properties.text nodes, node.IsObject)
      (written : ∀ properties, part.present? .properties = some (.obj properties) →
        ∀ property ∈ properties, Json.propertySchemas property.1 nodes ≠ [])
      (upholds : ∀ properties, part.present? .properties = some (.obj properties) →
        ∀ property ∈ properties,
          Upholds engine catalog scope (Json.propertySchemas property.1 nodes) property.2) :
      Upholds engine catalog scope nodes part
  | tuple {scope : Scope} {nodes places : List Json} {part : Json}
      (ofType : (Json.laid nodes).OfType .array) (ofType' : part.OfType .array)
      (objects : ∀ node ∈ nodes, node.IsObject)
      (arrays : ∀ node ∈ Json.under Keyword.items.text nodes, node.IsArray)
      (present : part.present? .items = some (.arr places))
      (written : ∀ (place : Nat) schema, places[place]? = some schema →
        Json.placeSchemas place nodes ≠ [])
      (upholds : ∀ (place : Nat) schema, places[place]? = some schema →
        Upholds engine catalog scope (Json.placeSchemas place nodes) schema) :
      Upholds engine catalog scope nodes part
  | list {scope : Scope} {nodes : List Json} {part : Json} {constraints constraints' : Constraints}
      {narrow wide : Lengths} (ofType : (Json.laid nodes).OfType .array)
      (ofType' : part.OfType .array) (objects : ∀ node ∈ nodes, node.IsObject)
      (plain : ∀ places, (Json.laid nodes).itemSchema ≠ .arr places)
      (plain' : ∀ places, part.itemSchema ≠ .arr places)
      (read : Constraints.ofNode (Json.laid nodes) = .ok constraints)
      (read' : Constraints.ofNode part = .ok constraints')
      (built : Lengths.ofList constraints = .ok narrow)
      (built' : Lengths.ofList constraints' = .ok wide)
      (inside : narrow.Inside wide)
      (written : ∀ schema, part.present? .items = some schema →
        (Json.laid nodes).present? .items ≠ none)
      (upholds : ∀ schema, part.present? .items = some schema →
        Upholds engine catalog scope (Json.itemSchemas nodes) schema) :
      Upholds engine catalog scope nodes part
  /-- A list of the part is given place by place. -/
  | places {scope : Scope} {nodes places : List Json} {part : Json} {constraints : Constraints}
      {wide : Lengths} (ofType : (Json.laid nodes).OfType .array) (ofType' : part.OfType .array)
      (present : (Json.laid nodes).present? .items = some (.arr places))
      (plain' : ∀ places, part.itemSchema ≠ .arr places)
      (read' : Constraints.ofNode part = .ok constraints)
      (built' : Lengths.ofList constraints = .ok wide)
      (inside : wide.contains places.length = true)
      (upholds : ∀ schema, part.present? .items = some schema →
        ∀ place ∈ places, Upholds engine catalog scope [place] schema) :
      Upholds engine catalog scope nodes part
  /-- The places of the part are given by a list. Where it is too short, null stands in. -/
  | elements {scope : Scope} {nodes places : List Json} {part : Json} {constraints : Constraints}
      {narrow : Lengths} (ofType : (Json.laid nodes).OfType .array) (ofType' : part.OfType .array)
      (plain : ∀ places, (Json.laid nodes).itemSchema ≠ .arr places)
      (present : part.present? .items = some (.arr places))
      (read : Constraints.ofNode (Json.laid nodes) = .ok constraints)
      (built : Lengths.ofList constraints = .ok narrow)
      (short : ∀ (place : Nat) schema, places[place]? = some schema → narrow.min ≤ place →
        Satisfies engine schema .null)
      (upholds : ∀ (place : Nat) schema, places[place]? = some schema →
        Upholds engine catalog scope [(Json.laid nodes).itemSchema] schema) :
      Upholds engine catalog scope nodes part

/-! ### What a kind says of the values of its node -/

/-- The rule of `Conforms` that a kind leads to. -/
def Kind.Gives (catalog : Catalog) (scope : Scope) (node value : Json) : Kind → Prop
  | .reference pointer => ∃ target found, Reference.parse pointer = .ok target ∧
      catalog.resolve (target.schemaOr scope.schema) target = .ok found ∧
      Conforms catalog ⟨target.schemaOr scope.schema, catalog.library⟩
        (found.merge (node.without Keyword.ref.text)) value
  | .allOf branches => Conforms catalog scope (Scope.withAllBranches node branches) value
  | .enumeration values => value ∈ values ∧ AllowsType node value
  | .empty => value = .obj []
  | kind =>
    (∀ keyword candidates, kind.candidates? node = some (keyword, candidates) →
      ∃ candidate ∈ candidates, Conforms catalog scope candidate value) ∧
    ∀ type, kind.type? = some type → ConformsAs catalog scope node type value

theorem ofKeyword_eq_ok_of_decides {node value : Json} {keyword : Keyword} {kind : Kind}
    (hdecides : Decides node keyword value) (hkind : classify node = .ok kind) :
    Kind.ofKeyword keyword value = .ok kind := by
  rw [← classify_of_decides hdecides, hkind]

theorem classify_of_absent {node : Json}
    (h : ∀ keyword ∈ Keyword.precedence, node.present? keyword = none) :
    classify node = .ok .empty := by
  have hnone {keywords : List Keyword} (h : ∀ keyword ∈ keywords, node.present? keyword = none) :
      Kind.ofKeywords node keywords = .ok .empty := by
    induction keywords with
    | nil => rfl
    | cons keyword rest ih =>
        rw [List.forall_mem_cons] at h
        rw [Kind.ofKeywords, h.1]
        exact ih h.2
  exact hnone h

theorem Kind.ofKeyword_union {types : List TypeName} (several : 2 ≤ types.length) :
    ofKeyword .type (.arr (types.map fun type => .str type.text)) = .ok (.union types) := by
  have hread := TypeName.mapM_readEntry_eq_ok_iff.mpr
    (rfl : types.map (fun type => Json.str type.text) = _)
  rw [ofKeyword, ofType, hread]
  cases types with
  | nil => cases several
  | cons first rest =>
      cases rest with
      | nil => simp at several
      | cons => rfl

theorem TypedAs.ofType {node : Json} {type : TypeName} (h : TypedAs node type) :
    node.OfType type := by
  cases h with
  | name decides =>
      refine ⟨.single type, ?_, rfl⟩
      rw [classify_of_decides decides, Kind.ofKeyword, Kind.ofType, TypeName.read_eq_ok_iff.mpr rfl]
      rfl
  | singleton decides =>
      refine ⟨.single type, ?_, rfl⟩
      rw [classify_of_decides decides, Kind.ofKeyword, Kind.ofType,
        TypeName.mapM_readEntry_eq_ok_iff.mpr (rfl : [Json.str type.text] = [type].map _)]
  | format decides => exact ⟨_, classify_of_decides decides, rfl⟩
  | properties decides => exact ⟨_, classify_of_decides decides, rfl⟩
  | items decides => exact ⟨_, classify_of_decides decides, rfl⟩

/-- A value conforms to a node by the rule of the node's kind. -/
theorem Conforms.gives {catalog : Catalog} {scope : Scope} {node value : Json} {kind : Kind}
    (h : Conforms catalog scope node value) (hkind : classify node = .ok kind) :
    kind.Gives catalog scope node value := by
  cases h with
  | reference decides parsed resolved conforms =>
      cases Kind.ofKeyword_eq_ok (ofKeyword_eq_ok_of_decides decides hkind)
      exact ⟨_, _, parsed, resolved, conforms⟩
  | @branch _ _ branch _ _ branches combinator decides listed conforms =>
      have hdeclares := Kind.ofKeyword_eq_ok (ofKeyword_eq_ok_of_decides decides hkind)
      rcases combinator with rfl | rfl
      · cases hdeclares
        refine ⟨?_, by simp [Kind.type?]⟩
        rintro keyword candidates ⟨⟩
        exact ⟨_, List.mem_map_of_mem listed, conforms⟩
      · cases hdeclares
        refine ⟨?_, by simp [Kind.type?]⟩
        rintro keyword candidates ⟨⟩
        exact ⟨_, List.mem_map_of_mem listed, conforms⟩
  | allOf decides conforms =>
      cases Kind.ofKeyword_eq_ok (ofKeyword_eq_ok_of_decides decides hkind)
      exact conforms
  | enumeration decides listed allowed =>
      cases Kind.ofKeyword_eq_ok (ofKeyword_eq_ok_of_decides decides hkind)
      exact ⟨listed, allowed⟩
  | union several decides listed conforms =>
      have hunion := ofKeyword_eq_ok_of_decides decides hkind
      rw [Kind.ofKeyword_union several, Except.ok.injEq] at hunion
      subst hunion
      refine ⟨?_, by simp [Kind.type?]⟩
      rintro keyword candidates ⟨⟩
      exact ⟨_, List.mem_map_of_mem listed, conforms⟩
  | typed typed conforms =>
      obtain ⟨kind', hkind', htype⟩ := typed.ofType
      rw [hkind, Except.ok.injEq] at hkind'
      subst hkind'
      cases kind with
      | single | format | properties | items =>
          refine ⟨by simp [Kind.candidates?], ?_⟩
          intro type hfound
          rw [htype, Option.some.injEq] at hfound
          exact hfound ▸ conforms
      | reference | anyOf | allOf | oneOf | enumeration | union | empty => cases htype
  | empty absent =>
      rw [classify_of_absent absent, Except.ok.injEq] at hkind
      subst hkind
      rfl

theorem Conforms.conformsAs {catalog : Catalog} {scope : Scope} {node value : Json}
    {type : TypeName} (h : Conforms catalog scope node value) (htype : node.OfType type) :
    ConformsAs catalog scope node type value := by
  obtain ⟨kind, hkind, hof⟩ := htype
  have hgives := h.gives hkind
  cases kind with
  | single | format | properties | items => exact hgives.2 _ hof
  | reference | anyOf | allOf | oneOf | enumeration | union | empty => cases hof

theorem Conforms.exists_candidate {catalog : Catalog} {scope : Scope} {node value : Json}
    {kind : Kind} {keyword : Keyword} {candidates : List Json}
    (h : Conforms catalog scope node value) (hkind : classify node = .ok kind)
    (hamong : kind.candidates? node = some (keyword, candidates)) :
    ∃ candidate ∈ candidates, Conforms catalog scope candidate value := by
  have hgives := h.gives hkind
  cases kind with
  | anyOf | oneOf | union => exact hgives.1 _ _ hamong
  | reference | allOf | enumeration | single | format | properties | items | empty => cases hamong

/-! ### What nodes laid over each other give -/

section Conforming

variable {catalog : Catalog} {scope : Scope} {node value : Json}

theorem ConformsAs.exists_leaf {type : TypeName} (h : ConformsAs catalog scope node type value)
    (hplain : type ≠ .object ∧ type ≠ .array) : ∃ constraints leaf,
      Constraints.ofNode node = .ok constraints ∧
        BuildsLeaf scope.library constraints type leaf ∧ leaf.Gives value := by
  cases h with
  | leaf read builds gives => exact ⟨_, _, read, builds, gives⟩
  | bare | object => exact absurd rfl hplain.1
  | tuple | list => exact absurd rfl hplain.2

theorem forall₂_of_keys_eq {R : Json → Json → Prop} {properties members : List (String × Json)}
    (hkeys : Assoc.keys members = Assoc.keys properties)
    (heach : ∀ property member, (property, member) ∈ properties.zip members →
      R property.2 member.2) :
    List.Forall₂ (fun property member => property.1 = member.1 ∧ R property.2 member.2)
      properties members := by
  induction properties generalizing members with
  | nil =>
      cases members with
      | nil => exact .nil
      | cons => cases hkeys
  | cons property properties ih =>
      cases members with
      | nil => cases hkeys
      | cons member members =>
          obtain ⟨hfirst, hrest⟩ := List.cons.inj hkeys
          refine .cons ⟨Eq.symm hfirst, heach property member List.mem_cons_self⟩ (ih hrest ?_)
          intro property member hmem
          exact heach property member (List.mem_cons_of_mem _ hmem)

/-- The value of an object has a conforming member wherever the node has a property. -/
theorem ConformsAs.exists_members (h : ConformsAs catalog scope node .object value) :
    ∃ members, value = .obj members ∧ ∀ properties name schema,
      node.present? .properties = some (.obj properties) →
        Assoc.get? name properties = some schema →
          ∃ found, Assoc.get? name members = some found ∧ Conforms catalog scope schema found := by
  cases h with
  | leaf _ builds => cases builds
  | bare absent =>
      refine ⟨[], rfl, ?_⟩
      intro properties name schema hpresent
      rw [absent] at hpresent
      cases hpresent
  | @object _ _ properties members present keys each =>
      refine ⟨members, rfl, ?_⟩
      intro properties' name schema hpresent hget
      rw [present, Option.some.injEq, Json.obj.injEq] at hpresent
      subst hpresent
      have hrelated := rel_get?_of_forall₂ (Q := fun _ => Conforms catalog scope)
        (forall₂_of_keys_eq keys each) name
      exact exists_of_rel_left hrelated hget

/-- The value of an array has a conforming element at every place that the node lists. -/
theorem ConformsAs.exists_places (h : ConformsAs catalog scope node .array value) :
    ∃ values, value = .arr values ∧ ∀ places, node.present? .items = some (.arr places) →
      List.Forall₂ (Conforms catalog scope) places values := by
  cases h with
  | leaf _ builds => cases builds
  | @tuple _ _ places values present length each =>
      refine ⟨values, rfl, ?_⟩
      intro places' hpresent
      rw [present, Option.some.injEq, Json.arr.injEq] at hpresent
      subst hpresent
      exact List.forall₂_iff_zip.mpr ⟨length.symm, fun hmem => each _ _ hmem⟩
  | @list _ _ _ _ values plain =>
      refine ⟨values, rfl, ?_⟩
      intro places hpresent
      exact absurd (by simp [Json.itemSchema, hpresent]) (plain places)

/-- Without places the value has as many elements as the constraints allow, and all of them conform
to the item schema. -/
theorem ConformsAs.exists_elements {engine : Pattern.Engine} {constraints : Constraints}
    {lengths : Lengths} (h : ConformsAs catalog scope node .array value)
    (hlibrary : scope.library = .standard engine) (hplain : ∀ places, node.itemSchema ≠ .arr places)
    (hread : Constraints.ofNode node = .ok constraints)
    (hbuilt : Lengths.ofList constraints = .ok lengths) :
    ∃ values, value = .arr values ∧ lengths.contains values.length = true ∧
      ∀ value ∈ values, Conforms catalog scope node.itemSchema value := by
  cases h with
  | leaf _ builds => cases builds
  | @tuple _ _ places _ present =>
      exact absurd (by simp [Json.itemSchema, present]) (hplain places)
  | @list _ _ _ _ values _ read built length each =>
      obtain rfl := Except.ok.inj (hread.symm.trans read)
      rw [hlibrary] at built
      obtain rfl := Except.ok.inj (hbuilt.symm.trans built)
      exact ⟨values, rfl, by simp [Lengths.contains, length], each⟩

end Conforming

/-- A value that conforms to nodes laid over each other is allowed by a part that their merge
upholds. The induction is on the upholding: it follows the references and choices of the nodes and
the combinators of the part, and goes down both together. -/
theorem Upholds.allows {engine : Pattern.Engine} {catalog : Catalog} {judge scope : Scope}
    {nodes : List Json} {part value : Json} (h : Upholds engine catalog scope nodes part)
    (hfinds : engine.Finds) (hjudge : judge.library = .standard engine)
    (hcatalog : catalog.library = .standard engine) (hscope : scope.library = .standard engine)
    (hvalue : Conforms catalog scope (Json.laid nodes) value) : judge.Allows part value := by
  induction h generalizing value with
  | unjudged classified unjudged => exact Scope.allows_unjudged classified unjudged
  | merged classified _ ih => exact Scope.allows_merged classified (ih hscope hvalue)
  | whole _ ih => exact ih hscope hvalue
  | reference classified parsed _ ih =>
      obtain ⟨target, found, hparsed, hresolved, hconforms⟩ := hvalue.gives classified
      rw [parsed, Except.ok.injEq] at hparsed
      subst hparsed
      exact ih found hresolved hcatalog hconforms
  | choice classified among _ ih =>
      obtain ⟨candidate, hcandidate, hconforms⟩ := hvalue.exists_candidate classified among
      exact ih candidate hcandidate hscope hconforms
  | allOf classified _ ih =>
      have hconforms := hvalue.gives classified
      refine ih hscope ?_
      rw [Json.laid_cons]
      exact hconforms
  | enumeration classified listed =>
      obtain ⟨hlisted, hallowed⟩ := hvalue.gives classified
      exact (listed value hlisted hallowed).allows hjudge
  | empty classified satisfies =>
      obtain rfl := hvalue.gives classified
      exact satisfies.allows hjudge
  | leaf ofType ofType' read read' narrows =>
      obtain ⟨constraints, leaf, hread, hbuilds, hgives⟩ :=
        (hvalue.conformsAs ofType).exists_leaf narrows.plain
      rw [read, Except.ok.injEq] at hread
      subst hread
      rw [hscope] at hbuilds
      exact Scope.allows_permitted hjudge ofType' read'
        (narrows.permits hfinds (leafValue_of_gives hbuilds hgives))
  | object ofType ofType' objects fields written _ ih =>
      obtain ⟨members, rfl, hmembers⟩ := (hvalue.conformsAs ofType).exists_members
      apply Scope.allows_object ofType'
      intro properties hpresent property hproperty
      obtain ⟨merged, hmerged, hget⟩ :=
        Json.exists_properties_laid objects fields (written properties hpresent property hproperty)
      obtain ⟨found, hfound, hconforms⟩ := hmembers merged property.1 _ hmerged hget
      rw [hfound, Option.getD_some]
      exact ih properties hpresent property hproperty hscope hconforms
  | tuple ofType ofType' objects arrays present written _ ih =>
      obtain ⟨values, rfl, hplaces⟩ := (hvalue.conformsAs ofType).exists_places
      apply Scope.allows_tuple ofType' present
      intro place schema hschema
      obtain ⟨merged, hmerged, hget⟩ :=
        Json.exists_places_laid objects arrays (written place schema hschema)
      obtain ⟨found, hfound, hconforms⟩ :=
        exists_of_rel_left (rel_getElem? (hplaces merged hmerged) place) hget
      rw [hfound, Option.getD_some]
      exact ih place schema hschema hscope hconforms
  | @list scope nodes part constraints constraints' narrow wide ofType ofType' objects plain plain'
      read read' built built' inside written _ ih =>
      obtain ⟨values, rfl, hlength, heach⟩ :=
        (hvalue.conformsAs ofType).exists_elements hscope plain read built
      apply Scope.allows_list hjudge ofType' plain' read' built' (inside.contains hlength)
      intro schema hpresent value hvalue
      have hconforms := heach value hvalue
      rw [Json.itemSchema_laid objects (written schema hpresent)] at hconforms
      exact ih schema hpresent hscope hconforms
  | places ofType ofType' present plain' read' built' inside _ ih =>
      obtain ⟨values, rfl, hplaces⟩ := (hvalue.conformsAs ofType).exists_places
      have heach := hplaces _ present
      rw [heach.length_eq] at inside
      apply Scope.allows_list hjudge ofType' plain' read' built' inside
      intro schema hpresent value hvalue
      obtain ⟨place, hplace, hconforms⟩ := exists_mem_of_forall₂ heach hvalue
      exact ih schema hpresent place hplace hscope hconforms
  | @elements scope nodes places part constraints narrow ofType ofType' plain present read built
      short _ ih =>
      obtain ⟨values, rfl, hlength, heach⟩ :=
        (hvalue.conformsAs ofType).exists_elements hscope plain read built
      apply Scope.allows_tuple ofType' present
      intro place schema hschema
      cases hfound : values[place]? with
      | none =>
          have hmin : narrow.min ≤ place := by
            simp only [Lengths.contains, Bool.and_eq_true, decide_eq_true_eq] at hlength
            exact hlength.1.trans (List.getElem?_eq_none_iff.mp hfound)
          exact (short place schema hschema hmin).allows hjudge
      | some value =>
          exact ih place schema hschema hscope (heach value (List.mem_of_getElem? hfound))

/-- No value of a node with an `allOf` is rejected by a branch, compiled on its own, that the merge
of what stands beside the branches with all of them upholds. The source may be any when the draft is
generated and any other when it is resolved. -/
theorem accepts_of_upholds {engine : Pattern.Engine} {catalog : Catalog} {scope : Scope}
    {node value : Json} {branches : List Json} {generator : Generator} {draft : Draft}
    {generateDepth resolveDepth : Nat} {first second third fourth : Source} (hfinds : engine.Finds)
    (hcatalog : catalog.library = .standard engine) (hscope : scope.library = .standard engine)
    (hkind : classify node = .ok (.allOf branches)) (hcompile : scope.compile node = .ok generator)
    (hgenerate : generator.generate catalog generateDepth first = (.ok draft, second))
    (hresolve : draft.resolve catalog resolveDepth third = (.ok value, fourth)) :
    ∀ branch ∈ branches,
      Upholds engine catalog scope (node.without Keyword.allOf.text :: branches) branch →
        ∀ constituent, scope.compile branch = .ok constituent →
          constituent.validate value ≠ some false := by
  intro branch _ hupholds
  have hconforms := (conformsWithin catalog generateDepth resolveDepth hcompile
    ⟨first, second, hgenerate⟩ ⟨third, fourth, hresolve⟩).gives hkind
  apply hupholds.allows hfinds hscope hcatalog hscope
  rw [Json.laid_cons]
  exact hconforms

namespace Sample

def standardScope : Scope :=
  ⟨"sample", .standard⟩

/-- Integers from 10 to 20. -/
def wideInteger : Json :=
  .obj [("type", .str "integer"), ("minimum", .int 10), ("maximum", .int 20)]

def widePart : Json :=
  .obj [("type", .str "object"), ("properties", .obj [("a", wideInteger)])]

def textSchema : Json :=
  .obj [("type", .str "string"), ("maxLength", .int 4)]

def textPart : Json :=
  .obj [("properties", .obj [("b", textSchema)])]

def lowerMaximum : Json :=
  .obj [("maximum", .int 15)]

/-- A branch that lowers the maximum of another one. -/
def tightPart : Json :=
  .obj [("properties", .obj [("a", lowerMaximum)])]

/-- Three branches, the last of which narrows the first. -/
def narrowed : Json :=
  .obj [("allOf", .arr [widePart, textPart, tightPart])]

def wideRange : IntegerRange :=
  ⟨10, 20, none⟩

def tightRange : IntegerRange :=
  ⟨10, 15, none⟩

def wideConstraints : Constraints :=
  { Constraints.none with minimum := some (Double.ofInt 10), maximum := some (Double.ofInt 20) }

def tightConstraints : Constraints :=
  { Constraints.none with minimum := some (Double.ofInt 10), maximum := some (Double.ofInt 15) }

def textLengths : Lengths :=
  ⟨1, 4, by decide⟩

theorem ofConstraints_wide : IntegerRange.ofConstraints wideConstraints = .ok wideRange := by
  decide +kernel

theorem ofConstraints_tight : IntegerRange.ofConstraints tightConstraints = .ok tightRange := by
  decide +kernel

theorem upholds_wideInteger :
    Upholds .own standardCatalog standardScope [wideInteger, lowerMaximum] wideInteger := by
  have hinside : tightRange.Inside wideRange := ⟨by decide, by decide, by simp [wideRange]⟩
  exact .leaf ⟨_, rfl, rfl⟩ ⟨_, rfl, rfl⟩ rfl rfl
    (.integer ofConstraints_tight ofConstraints_wide hinside)

theorem upholds_textSchema :
    Upholds .own standardCatalog standardScope [textSchema] textSchema := by
  have hlengths : TextRule.ofConstraints .own { Constraints.none with maxLength := some 4 } =
      .ok (.lengths textLengths) := rfl
  exact .leaf ⟨_, rfl, rfl⟩ ⟨_, rfl, rfl⟩ rfl rfl
    (.text hlengths hlengths (.lengths ⟨Nat.le_refl _, Nat.le_refl _⟩))

/-- Every one of the three branches has one property, and what the branches say of it together is no
less than what it says of it itself. -/
theorem upholds_branches : ∀ branch ∈ [widePart, textPart, tightPart],
    Upholds .own standardCatalog standardScope [.obj [], widePart, textPart, tightPart] branch := by
  have hobjects : ∀ node ∈ [.obj [], widePart, textPart, tightPart], node.IsObject := by
    simp [Json.IsObject, widePart, textPart, tightPart, Assoc.keys]
  have hfields : ∀ node ∈ Json.under Keyword.properties.text
      [.obj [], widePart, textPart, tightPart], node.IsObject := by
    change ∀ node ∈ [Json.obj [("a", wideInteger)], .obj [("b", textSchema)],
      .obj [("a", lowerMaximum)]], node.IsObject
    simp [Json.IsObject, Assoc.keys]
  have hbranch {branch : Json} {name : String} {schema : Json}
      (htype : branch.OfType .object)
      (hpresent : branch.present? .properties = some (.obj [(name, schema)]))
      (hwritten : Json.propertySchemas name [.obj [], widePart, textPart, tightPart] ≠ [])
      (hupholds : Upholds .own standardCatalog standardScope
        (Json.propertySchemas name [.obj [], widePart, textPart, tightPart]) schema) :
      Upholds .own standardCatalog standardScope [.obj [], widePart, textPart, tightPart]
        branch := by
    have honly : ∀ properties, branch.present? .properties = some (.obj properties) →
        ∀ property ∈ properties, property = (name, schema) := by
      intro properties hproperties property hproperty
      rw [hpresent] at hproperties
      cases hproperties
      exact List.mem_singleton.mp hproperty
    refine .object ⟨_, rfl, rfl⟩ htype hobjects hfields ?_ ?_
    · intro properties hproperties property hproperty
      rw [honly properties hproperties property hproperty]
      exact hwritten
    · intro properties hproperties property hproperty
      rw [honly properties hproperties property hproperty]
      exact hupholds
  intro branch hmem
  rcases List.mem_cons.mp hmem with rfl | hmem
  · exact hbranch ⟨_, rfl, rfl⟩ rfl (List.cons_ne_nil wideInteger _) upholds_wideInteger
  rcases List.mem_cons.mp hmem with rfl | hmem
  · exact hbranch ⟨_, rfl, rfl⟩ rfl (List.cons_ne_nil textSchema _) upholds_textSchema
  obtain rfl := List.mem_singleton.mp hmem
  have hnothing : classify lowerMaximum = .ok .empty := rfl
  exact hbranch ⟨_, rfl, rfl⟩ rfl (List.cons_ne_nil wideInteger _) (.unjudged hnothing trivial)

/-- The branches laid over each other. -/
def narrowedNode : Json :=
  .obj [("type", .str "object"), ("properties", .obj [
    ("a", .obj [("type", .str "integer"), ("minimum", .int 10), ("maximum", .int 15)]),
    ("b", textSchema)])]

def narrowedFields : List (String × Generator) :=
  [("a", .leaf tightRange.leaf), ("b", .leaf textLengths.textLeaf)]

theorem compile_integer {node : Json} {constraints : Constraints} {range : IntegerRange}
    (htype : node.OfType .integer) (hread : Constraints.ofNode node = .ok constraints)
    (hbuilt : IntegerRange.ofConstraints constraints = .ok range) :
    standardScope.compile node = .ok (.leaf range.leaf) :=
  Scope.compile_of_buildsLeaf htype hread (.integer (Outcome.map_eq_ok.mpr ⟨range, hbuilt, rfl⟩))

theorem compile_widePart :
    standardScope.compile widePart = .ok (.object [("a", .leaf wideRange.leaf)]) := by
  have hfields : standardScope.compileFields [("a", wideInteger)] =
      .ok [("a", .leaf wideRange.leaf)] := by
    rw [Scope.compileFields, Scope.compileFields,
      compile_integer ⟨_, rfl, rfl⟩ rfl ofConstraints_wide]
    rfl
  rw [Scope.compile_of_classify (show classify widePart = .ok (.single .object) from rfl),
    Scope.compileKind, Scope.compileType]
  exact Scope.compileObject_of_fields rfl hfields

theorem compile_narrowed :
    standardScope.compile narrowed = .ok (.allOf (.object narrowedFields)) := by
  have htext : standardScope.compile textSchema = .ok (.leaf textLengths.textLeaf) :=
    Scope.compile_of_buildsLeaf ⟨_, rfl, rfl⟩ rfl (.text rfl rfl rfl)
  have hfields : standardScope.compileFields [
      ("a", .obj [("type", .str "integer"), ("minimum", .int 10), ("maximum", .int 15)]),
      ("b", textSchema)] = .ok narrowedFields := by
    rw [Scope.compileFields, Scope.compileFields, Scope.compileFields,
      compile_integer ⟨_, rfl, rfl⟩ rfl ofConstraints_tight, htext]
    rfl
  have hmerged : standardScope.compile narrowedNode = .ok (.object narrowedFields) := by
    rw [Scope.compile_of_classify (show classify narrowedNode = .ok (.single .object) from rfl),
      Scope.compileKind, Scope.compileType]
    exact Scope.compileObject_of_fields rfl hfields
  exact Scope.compile_allOf (show classify narrowed = .ok (.allOf _) from rfl) hmerged

theorem resolve_narrowed : (Draft.fields narrowedFields).resolve standardCatalog 2
    (.mixed [0, 0, 0] 0) = (.ok (.obj [("a", .int 10), ("b", .str "A")]), .mixed [] 0) := by
  rfl

theorem generate_narrowed : (Generator.allOf (.object narrowedFields)).generate standardCatalog 2
    (.mixed [] 0) = (.ok (.fields narrowedFields), .mixed [] 0) :=
  rfl

end Sample

theorem accepts_of_upholds_narrowed :
    Pattern.Engine.own.Finds ∧ Sample.standardCatalog.library = .standard .own ∧
      Sample.standardScope.library = .standard .own ∧
      classify Sample.narrowed =
        .ok (.allOf [Sample.widePart, Sample.textPart, Sample.tightPart]) ∧
      Sample.standardScope.compile Sample.narrowed =
        .ok (.allOf (.object Sample.narrowedFields)) ∧
      (Generator.allOf (.object Sample.narrowedFields)).generate Sample.standardCatalog 2
        (.mixed [] 0) = (.ok (.fields Sample.narrowedFields), .mixed [] 0) ∧
      (Draft.fields Sample.narrowedFields).resolve Sample.standardCatalog 2 (.mixed [0, 0, 0] 0) =
        (.ok (.obj [("a", .int 10), ("b", .str "A")]), .mixed [] 0) ∧
      (∀ branch ∈ [Sample.widePart, Sample.textPart, Sample.tightPart],
        Upholds .own Sample.standardCatalog Sample.standardScope
          (Sample.narrowed.without Keyword.allOf.text ::
            [Sample.widePart, Sample.textPart, Sample.tightPart]) branch) ∧
      Sample.standardScope.compile Sample.widePart =
        .ok (.object [("a", .leaf Sample.wideRange.leaf)]) ∧
      (Generator.object [("a", .leaf Sample.wideRange.leaf)]).validate
        (.obj [("a", .int 10), ("b", .str "A")]) ≠ some false :=
  ⟨Pattern.Engine.finds_own, rfl, rfl, rfl, Sample.compile_narrowed, Sample.generate_narrowed,
    Sample.resolve_narrowed, Sample.upholds_branches, Sample.compile_widePart,
    accepts_of_upholds Pattern.Engine.finds_own rfl rfl rfl Sample.compile_narrowed
      Sample.generate_narrowed Sample.resolve_narrowed Sample.widePart List.mem_cons_self
      (Sample.upholds_branches Sample.widePart List.mem_cons_self) _ Sample.compile_widePart⟩

namespace Sample

/-- A value that comes of a node with an `allOf` is rejected by one of the branches on its own. -/
structure RejectedBy (engine : Pattern.Engine) (node branch value : Json) : Prop where
  listed : ∃ branches, classify node = .ok (.allOf branches) ∧ branch ∈ branches
  given : ∃ generator draft generateDepth resolveDepth first second third fourth,
    Scope.compile ⟨"sample", .standard engine⟩ node = .ok generator ∧
      generator.generate ⟨[], .standard engine⟩ generateDepth first = (.ok draft, second) ∧
      draft.resolve ⟨[], .standard engine⟩ resolveDepth third = (.ok value, fourth)
  rejected : ∃ constituent, Scope.compile ⟨"sample", .standard engine⟩ branch = .ok constituent ∧
    constituent.validate value = some false

theorem rejectedBy_of_value {engine : Pattern.Engine} {node branch value : Json}
    {branches : List Json} {merged constituent : Generator} {second : Source} (first : Source)
    (hkind : classify node = .ok (.allOf branches)) (hbranch : branch ∈ branches)
    (hmerged : Scope.compile ⟨"sample", .standard engine⟩ (Scope.withAllBranches node branches) =
      .ok merged)
    (hgenerate : merged.generate ⟨[], .standard engine⟩ 1 first = (.ok (.value value), second))
    (hcompile : Scope.compile ⟨"sample", .standard engine⟩ branch = .ok constituent)
    (hrejects : constituent.validate value = some false) : RejectedBy engine node branch value where
  listed := ⟨branches, hkind, hbranch⟩
  given := ⟨.allOf merged, .value value, 2, 1, first, second, first, first,
    Scope.compile_allOf hkind hmerged, hgenerate, rfl⟩
  rejected := ⟨constituent, hcompile, hrejects⟩

/-- A node with two branches. -/
def bothOf (branch other : Json) : Json :=
  .obj [("allOf", .arr [branch, other])]

def firstValues : Json :=
  .obj [("enum", .arr [.int 1])]

def laterValues : Json :=
  .obj [("enum", .arr [.int 2, .int 1])]

/-- Both branches list one, but the second overrides it with two, and adds one behind. -/
theorem rejectedBy_firstValues :
    RejectedBy .own (bothOf firstValues laterValues) firstValues (.int 2) := by
  have hmerged : standardScope.compile laterValues =
      .ok (.enumeration [.int 2, .int 1] ⟨2, Nat.two_pos⟩) :=
    Scope.compile_eq_compileKind standardScope laterValues
  have hfirst : standardScope.compile firstValues = .ok (.enumeration [.int 1] ⟨1, Nat.one_pos⟩) :=
    Scope.compile_eq_compileKind standardScope firstValues
  exact rejectedBy_of_value (.mixed [0] 0) rfl List.mem_cons_self hmerged rfl hfirst rfl

def typeNode (type : Json) : Json :=
  .obj [("type", type)]

def anyInteger : Json :=
  typeNode (.str "integer")

def anyRange : IntegerRange :=
  ⟨0, 1000, none⟩

theorem compile_anyInteger : standardScope.compile anyInteger = .ok (.leaf anyRange.leaf) := by
  have hrange : IntegerRange.ofConstraints Constraints.none = .ok anyRange := by decide
  exact compile_integer ⟨_, rfl, rfl⟩ rfl hrange

def fromTwoThousand : Json :=
  .obj [("minimum", .int 2000)]

/-- Without bounds a branch has the ends that are filled in. -/
theorem rejectedBy_anyInteger :
    RejectedBy .own (bothOf anyInteger fromTwoThousand) anyInteger (.int 2000) := by
  have hrange : IntegerRange.ofConstraints
      { Constraints.none with minimum := some (Double.ofInt 2000) } = .ok ⟨2000, 3000, none⟩ := by
    decide +kernel
  have hmerged : standardScope.compile
      (.obj [("type", .str "integer"), ("minimum", .int 2000)]) =
        .ok (.leaf (IntegerRange.leaf ⟨2000, 3000, none⟩)) :=
    compile_integer ⟨_, rfl, rfl⟩ rfl hrange
  exact rejectedBy_of_value (.mixed [0] 0) rfl List.mem_cons_self hmerged rfl
    compile_anyInteger rfl

/-- A type that is no longer written leaves the empty schema. -/
theorem rejectedBy_nullType :
    RejectedBy .own (bothOf anyInteger (typeNode .null)) anyInteger (.obj []) := by
  have hmerged : standardScope.compile (typeNode .null) = .ok .empty :=
    Scope.compile_eq_compileKind standardScope (typeNode .null)
  exact rejectedBy_of_value (.mixed [] 0) rfl List.mem_cons_self hmerged rfl
    compile_anyInteger rfl

def anyText : Json :=
  typeNode (.str "string")

def uuidFormat : Json :=
  .obj [("format", .str "uuid")]

def zeroUuid : String :=
  "00000000-0000-4000-8000-000000000000"

/-- Beside a format the lengths of a text do not count. -/
theorem rejectedBy_anyText : RejectedBy .own (bothOf anyText uuidFormat) anyText (.str zeroUuid) := by
  have hmerged : standardScope.compile
      (.obj [("type", .str "string"), ("format", .str "uuid")]) = .ok (.leaf Format.uuid.leaf) :=
    Scope.compile_of_buildsLeaf ⟨_, rfl, rfl⟩ rfl (.format rfl rfl rfl)
  have htext : standardScope.compile anyText = .ok (.leaf (Lengths.textLeaf ⟨1, 16, by decide⟩)) :=
    Scope.compile_of_buildsLeaf ⟨_, rfl, rfl⟩ rfl (.text rfl rfl rfl)
  exact rejectedBy_of_value (.mixed [0, 0] 0) rfl List.mem_cons_self hmerged rfl htext rfl

/-- Two letters with a boundary between words in the middle, which no text has. -/
def boundaryTree : Pattern.Tree :=
  .concat [.literal ['a'], .look (.word false), .literal ['b']]

/-- An engine that reads one pattern only. -/
def boundaryEngine : Pattern.Engine where
  tree? source := if source = "a\\bb" then some boundaryTree else none
  search? source :=
    if source = "a\\bb" then some fun text => boundaryTree.occursIn text.toList else none

def boundaryText : Json :=
  .obj [("type", .str "string"), ("pattern", .str "a\\bb")]

/-- What is drawn from a pattern with a condition on a place need not match it. -/
theorem rejectedBy_boundaryText :
    RejectedBy boundaryEngine (bothOf boundaryText (.obj [])) boundaryText (.str "ab") := by
  have hread : boundaryEngine.read "a\\bb" =
      .ok ⟨"a\\bb", boundaryTree, fun text => boundaryTree.occursIn text.toList⟩ := rfl
  have hcompile : Scope.compile ⟨"sample", .standard boundaryEngine⟩ boundaryText =
      .ok (.leaf (Pattern.leaf
        ⟨"a\\bb", boundaryTree, fun text => boundaryTree.occursIn text.toList⟩)) :=
    Scope.compile_of_buildsLeaf ⟨_, rfl, rfl⟩ rfl
      (.pattern rfl (Outcome.map_eq_ok.mpr ⟨_, hread, rfl⟩))
  have hrejects : boundaryTree.occursIn ['a', 'b'] = false := by decide +kernel
  exact rejectedBy_of_value (.mixed [] 0) rfl List.mem_cons_self hcompile rfl hcompile
    (congrArg some hrejects)

def integerPlace : Json :=
  .obj [("items", .arr [anyInteger])]

def integerItems : Json :=
  .obj [("items", anyInteger)]

/-- A list may be too short for the places of another branch. -/
theorem rejectedBy_integerPlace :
    RejectedBy .own (bothOf integerPlace integerItems) integerPlace (.arr []) := by
  have hplain (places : List Json) : integerItems.itemSchema ≠ .arr places :=
    fun h => nomatch (show anyInteger = .arr places from h)
  have hmerged : standardScope.compile integerItems =
      .ok (.list (.leaf anyRange.leaf) ⟨0, 5, by decide⟩) := by
    rw [Scope.compile_of_classify (show classify integerItems = .ok .items from rfl),
      Scope.compileKind, Scope.compileType, Scope.compileArray_of_elements hplain]
    change (do
      let item ← standardScope.compile anyInteger
      return Generator.list item (← ofPrimitive (Lengths.ofList Constraints.none))) = _
    rw [compile_anyInteger]
    rfl
  have hplaces : standardScope.compileAll [anyInteger] = .ok [.leaf anyRange.leaf] := by
    rw [Scope.compileAll, Scope.compileAll, compile_anyInteger]
    rfl
  have hplace : standardScope.compile integerPlace = .ok (.tuple [.leaf anyRange.leaf]) := by
    rw [Scope.compile_of_classify (show classify integerPlace = .ok .items from rfl),
      Scope.compileKind, Scope.compileType]
    exact Scope.compileArray_of_places rfl hplaces
  exact ⟨⟨_, rfl, List.mem_cons_self⟩,
    ⟨.allOf (.list (.leaf anyRange.leaf) ⟨0, 5, by decide⟩), .items [], 2, 1, .mixed [0] 0,
      .mixed [] 0, .mixed [] 0, .mixed [] 0,
      Scope.compile_allOf (show classify (bothOf integerPlace integerItems) = .ok (.allOf _) from rfl)
        hmerged, rfl, rfl⟩,
    ⟨_, hplace, rfl⟩⟩

end Sample

/-- A later branch may give more than an earlier one allows: where it overrides what the earlier one
lists, where one of them has ends that are filled in, where it blanks a keyword or has a format or a
list in the place of lengths or places, and where a pattern cannot be drawn from. -/
theorem rejects_conflicting :
    Sample.RejectedBy .own (Sample.bothOf Sample.firstValues Sample.laterValues)
        Sample.firstValues (.int 2) ∧
      Sample.RejectedBy .own (Sample.bothOf Sample.anyInteger Sample.fromTwoThousand)
        Sample.anyInteger (.int 2000) ∧
      Sample.RejectedBy .own (Sample.bothOf Sample.anyInteger (Sample.typeNode .null))
        Sample.anyInteger (.obj []) ∧
      Sample.RejectedBy .own (Sample.bothOf Sample.anyText Sample.uuidFormat)
        Sample.anyText (.str Sample.zeroUuid) ∧
      Sample.RejectedBy .own (Sample.bothOf Sample.integerPlace Sample.integerItems)
        Sample.integerPlace (.arr []) ∧
      Sample.RejectedBy Sample.boundaryEngine (Sample.bothOf Sample.boundaryText (.obj []))
        Sample.boundaryText (.str "ab") :=
  ⟨Sample.rejectedBy_firstValues, Sample.rejectedBy_anyInteger, Sample.rejectedBy_nullType,
    Sample.rejectedBy_anyText, Sample.rejectedBy_integerPlace, Sample.rejectedBy_boundaryText⟩

end Specimen
