import Mathlib.Data.List.Forall2
import Specimen.Generator.Compile

/-!
# What compiling gives

A node that compiles does so in one of a few ways, and each way fixes the generator from the node
and from what its parts compile to. Everything that is shown about compiled generators goes by these
ways; compiling itself is taken apart here only.
-/

namespace Specimen

theorem Outcome.mapM_eq_ok {ε α β : Type} {f : α → Except ε β} {as : List α} {bs : List β} :
    as.mapM f = .ok bs ↔ List.Forall₂ (fun a b => f a = .ok b) as bs := by
  induction as generalizing bs with
  | nil => cases bs <;> simp [pure, Except.pure]
  | cons a as ih =>
      rw [List.mapM_cons]
      simp only [bind_eq_ok, pure_eq_ok, ih]
      constructor
      · rintro ⟨b, hfirst, bs, hrest, rfl⟩
        exact .cons hfirst hrest
      · rintro ⟨⟩
        exact ⟨_, ‹_›, _, ‹_›, rfl⟩

theorem ofSchema_eq_ok {α : Type} {x : Except SchemaError α} {a : α} :
    ofSchema x = .ok a ↔ x = .ok a := by
  cases x <;> simp [ofSchema]

theorem ofPrimitive_eq_ok {α : Type} {x : Except PrimitiveError α} {a : α} :
    ofPrimitive x = .ok a ↔ x = .ok a := by
  cases x <;> simp [ofPrimitive]

/-- The type a node is of when one keyword alone decides it. A list of one name means the name, and
a format, properties or items mean a type where none is written. -/
inductive TypedAs (node : Json) : TypeName → Prop where
  | name {type : TypeName} (decides : Decides node .type (.str type.text)) : TypedAs node type
  | singleton {type : TypeName} (decides : Decides node .type (.arr [.str type.text])) :
      TypedAs node type
  | format {name : String} (decides : Decides node .format (.str name)) : TypedAs node .string
  | properties {value : Json} (decides : Decides node .properties value) : TypedAs node .object
  | items {value : Json} (decides : Decides node .items value) : TypedAs node .array

/-- The leaf that a library builds for a type without parts. A text goes by its pattern, without
one by its format, and without either by its lengths. -/
inductive BuildsLeaf (library : Library) (constraints : Constraints) : TypeName → Leaf → Prop where
  | boolean {leaf : Leaf} (built : library.boolean constraints = .ok leaf) :
      BuildsLeaf library constraints .boolean leaf
  | integer {leaf : Leaf} (built : library.integer constraints = .ok leaf) :
      BuildsLeaf library constraints .integer leaf
  | number {leaf : Leaf} (built : library.number constraints = .ok leaf) :
      BuildsLeaf library constraints .number leaf
  | null {leaf : Leaf} (built : library.null constraints = .ok leaf) :
      BuildsLeaf library constraints .null leaf
  | pattern {leaf : Leaf} {pattern : String} (written : constraints.pattern = some pattern)
      (built : library.pattern pattern constraints = .ok leaf) :
      BuildsLeaf library constraints .string leaf
  | format {leaf : Leaf} {format : String} (noPattern : constraints.pattern = none)
      (written : constraints.format = some format)
      (built : library.format format constraints = .ok leaf) :
      BuildsLeaf library constraints .string leaf
  | text {leaf : Leaf} (noPattern : constraints.pattern = none)
      (noFormat : constraints.format = none) (built : library.string constraints = .ok leaf) :
      BuildsLeaf library constraints .string leaf

/-- The schema of the elements of a list; without one they are of the empty schema. -/
def Json.itemSchema (node : Json) : Json :=
  (node.present? .items).getD (.obj [])

namespace Scope

/-- A field is what a property compiles to, under the same name. -/
abbrev FieldOf (scope : Scope) (property : String × Json) (field : String × Generator) : Prop :=
  property.1 = field.1 ∧ scope.compile property.2 = .ok field.2

/-- The ways in which a node of a type compiles. -/
inductive CompilesAs (scope : Scope) (node : Json) : TypeName → Generator → Prop where
  | leaf {type : TypeName} {constraints : Constraints} {leaf : Leaf}
      (read : Constraints.ofNode node = .ok constraints)
      (builds : BuildsLeaf scope.library constraints type leaf) :
      CompilesAs scope node type (.leaf leaf)
  | bare (absent : node.present? .properties = none) : CompilesAs scope node .object (.object [])
  | object {properties : List (String × Json)} {fields : List (String × Generator)}
      (present : node.present? .properties = some (.obj properties))
      (each : List.Forall₂ scope.FieldOf properties fields) :
      CompilesAs scope node .object (.object fields)
  | tuple {places : List Json} {items : List Generator}
      (present : node.present? .items = some (.arr places))
      (each : List.Forall₂ (fun place item => scope.compile place = .ok item) places items) :
      CompilesAs scope node .array (.tuple items)
  | list {constraints : Constraints} {item : Generator} {lengths : Lengths}
      (plain : ∀ places, node.itemSchema ≠ .arr places)
      (read : Constraints.ofNode node = .ok constraints)
      (compiled : scope.compile node.itemSchema = .ok item)
      (built : scope.library.array constraints = .ok lengths) :
      CompilesAs scope node .array (.list item lengths)

/-- The ways in which a node compiles. -/
inductive Compiles (scope : Scope) (node : Json) : Generator → Prop where
  | reference {pointer : String} {target : Reference}
      (decides : Decides node .ref (.str pointer))
      (parsed : Reference.parse pointer = .ok target) :
      Compiles scope node
        (.reference (target.schemaOr scope.schema) target (node.without Keyword.ref.text))
  | choice {keyword : Keyword} {branches : List Json} {candidates : List Generator}
      {picker : Picker} (combinator : keyword = .anyOf ∨ keyword = .oneOf)
      (decides : Decides node keyword (.arr branches))
      (each : List.Forall₂ (fun branch candidate =>
        scope.compile (withBranch node keyword branch) = .ok candidate) branches candidates)
      (picks : scope.library.index candidates.length = .ok picker) :
      Compiles scope node (.choice keyword candidates picker)
  | allOf {branches : List Json} {merged : Generator}
      (decides : Decides node .allOf (.arr branches))
      (compiled : scope.compile (withAllBranches node branches) = .ok merged) :
      Compiles scope node (.allOf merged)
  | enumeration {values : List Json} {types : Option (List TypeName)} {picker : Picker}
      (decides : Decides node .enum (.arr values)) (declared : declaredTypes node = .ok types)
      (nonempty : kept types values ≠ [])
      (picks : scope.library.index (kept types values).length = .ok picker) :
      Compiles scope node (.enumeration (kept types values) picker)
  | union {types : List TypeName} {candidates : List Generator} {picker : Picker}
      (several : 2 ≤ types.length)
      (decides : Decides node .type (.arr (types.map fun type => .str type.text)))
      (each : List.Forall₂ (fun type candidate =>
        scope.compile (withType node type) = .ok candidate) types candidates)
      (picks : scope.library.index candidates.length = .ok picker) :
      Compiles scope node (.choice .type candidates picker)
  | typed {type : TypeName} {generator : Generator} (typed : TypedAs node type)
      (compiled : CompilesAs scope node type generator) : Compiles scope node generator
  | empty (absent : ∀ keyword ∈ Keyword.precedence, node.present? keyword = none) :
      Compiles scope node .empty

variable {scope : Scope} {node : Json}

/-- What compiling does with a node of a kind. -/
def compileKind (scope : Scope) (node : Json) : Kind → Except Error Generator
  | .reference pointer => scope.reference node pointer
  | .anyOf branches => scope.compileChoice node .anyOf branches
  | .oneOf branches => scope.compileChoice node .oneOf branches
  | .allOf branches => scope.compileAllOf node branches
  | .enumeration values => scope.enumeration node values
  | .single type => scope.compileType node type
  | .union types => scope.compileUnion node types
  | .format _ => scope.compileType node .string
  | .properties => scope.compileType node .object
  | .items => scope.compileType node .array
  | .empty => .ok .empty

theorem compile_eq_compileKind (scope : Scope) (node : Json) :
    scope.compile node = ofSchema (classify node) >>= scope.compileKind node := by
  rw [compile]
  split <;> simp_all [ofSchema, compileKind, bind, Except.bind]

theorem compile_of_classify {kind : Kind} (h : classify node = .ok kind) :
    scope.compile node = scope.compileKind node kind := by
  rw [compile_eq_compileKind, h]
  rfl

theorem compileAll_eq_ok {nodes : List Json} {generators : List Generator}
    (h : scope.compileAll nodes = .ok generators) :
    List.Forall₂ (fun node generator => scope.compile node = .ok generator) nodes generators := by
  induction nodes generalizing generators with
  | nil =>
      simp only [compileAll, Except.ok.injEq] at h
      rw [← h]
      exact .nil
  | cons node rest ih =>
      rw [compileAll] at h
      obtain ⟨first, hfirst, h⟩ := Outcome.bind_eq_ok.mp h
      obtain ⟨others, hothers, h⟩ := Outcome.bind_eq_ok.mp h
      obtain rfl := Outcome.pure_eq_ok.mp h
      exact .cons hfirst (ih hothers)

theorem compileFields_eq_ok {members : List (String × Json)} {fields : List (String × Generator)}
    (h : scope.compileFields members = .ok fields) :
    List.Forall₂ scope.FieldOf members fields := by
  induction members generalizing fields with
  | nil =>
      simp only [compileFields, Except.ok.injEq] at h
      rw [← h]
      exact .nil
  | cons member rest ih =>
      rw [compileFields] at h
      obtain ⟨first, hfirst, h⟩ := Outcome.bind_eq_ok.mp h
      obtain ⟨others, hothers, h⟩ := Outcome.bind_eq_ok.mp h
      obtain rfl := Outcome.pure_eq_ok.mp h
      exact .cons ⟨rfl, hfirst⟩ (ih hothers)

theorem mem_of_mem_kept {types : Option (List TypeName)} {values : List Json} {value : Json}
    (h : value ∈ kept types values) : value ∈ values := by
  cases types with
  | none => exact h
  | some types => exact List.mem_of_mem_filter h

theorem compile_emptySchema (scope : Scope) : scope.compile (.obj []) = .ok .empty :=
  compile_eq_compileKind scope (.obj [])

theorem primitive_eq_ok {type : TypeName} {generator : Generator} (hstring : type ≠ .string)
    (h : scope.primitive node type = .ok generator) : CompilesAs scope node type generator := by
  obtain ⟨constraints, hread, h⟩ := Outcome.bind_eq_ok.mp h
  rw [ofSchema_eq_ok] at hread
  cases type with
  | boolean =>
      obtain ⟨leaf, hbuilt, rfl⟩ := Outcome.map_eq_ok.mp h
      exact .leaf hread (.boolean (ofPrimitive_eq_ok.mp hbuilt))
  | integer =>
      obtain ⟨leaf, hbuilt, rfl⟩ := Outcome.map_eq_ok.mp h
      exact .leaf hread (.integer (ofPrimitive_eq_ok.mp hbuilt))
  | number =>
      obtain ⟨leaf, hbuilt, rfl⟩ := Outcome.map_eq_ok.mp h
      exact .leaf hread (.number (ofPrimitive_eq_ok.mp hbuilt))
  | null =>
      obtain ⟨leaf, hbuilt, rfl⟩ := Outcome.map_eq_ok.mp h
      exact .leaf hread (.null (ofPrimitive_eq_ok.mp hbuilt))
  | string => exact absurd rfl hstring
  | array | object => cases h

theorem string_eq_ok {generator : Generator} (h : scope.string node = .ok generator) :
    CompilesAs scope node .string generator := by
  obtain ⟨constraints, hread, h⟩ := Outcome.bind_eq_ok.mp h
  rw [ofSchema_eq_ok] at hread
  cases hpattern : constraints.pattern with
  | some pattern =>
      simp only [hpattern] at h
      obtain ⟨leaf, hbuilt, rfl⟩ := Outcome.map_eq_ok.mp h
      exact .leaf hread (.pattern hpattern (ofPrimitive_eq_ok.mp hbuilt))
  | none =>
      cases hformat : constraints.format with
      | some format =>
          simp only [hpattern, hformat] at h
          obtain ⟨leaf, hbuilt, rfl⟩ := Outcome.map_eq_ok.mp h
          exact .leaf hread (.format hpattern hformat (ofPrimitive_eq_ok.mp hbuilt))
      | none =>
          simp only [hpattern, hformat] at h
          obtain ⟨leaf, hbuilt, rfl⟩ := Outcome.map_eq_ok.mp h
          exact .leaf hread (.text hpattern hformat (ofPrimitive_eq_ok.mp hbuilt))

theorem compileObject_eq_ok {generator : Generator}
    (h : scope.compileObject node = .ok generator) :
    CompilesAs scope node .object generator := by
  rw [compileObject] at h
  split at h
  · rename_i hget
    cases h
    exact .bare (by simp [Json.present?, hget])
  · rename_i hget
    cases h
    exact .bare (by simp [Json.present?, hget])
  · rename_i members hget
    split at h
    · rename_i fields hfields
      cases h
      exact .object (by simp [Json.present?, hget]) (compileFields_eq_ok hfields)
    · cases h
  · cases h

theorem listOfEmpty_eq_ok {generator : Generator} (habsent : node.present? .items = none)
    (h : scope.listOfEmpty node = .ok generator) : CompilesAs scope node .array generator := by
  obtain ⟨constraints, hread, h⟩ := Outcome.bind_eq_ok.mp h
  obtain ⟨lengths, hlengths, h⟩ := Outcome.bind_eq_ok.mp h
  obtain rfl := Outcome.pure_eq_ok.mp h
  rw [ofSchema_eq_ok] at hread
  rw [ofPrimitive_eq_ok] at hlengths
  have hschema : node.itemSchema = .obj [] := by simp [Json.itemSchema, habsent]
  refine .list ?_ hread ?_ hlengths
  · simp [hschema]
  · rw [hschema, compile_emptySchema]

theorem compileArray_eq_ok {generator : Generator} (h : scope.compileArray node = .ok generator) :
    CompilesAs scope node .array generator := by
  rw [compileArray] at h
  split at h
  · rename_i places hget
    split at h
    · rename_i items hitems
      cases h
      exact .tuple (by simp [Json.present?, hget]) (compileAll_eq_ok hitems)
    · cases h
  · rename_i hget
    exact listOfEmpty_eq_ok (by simp [Json.present?, hget]) h
  · rename_i hget
    exact listOfEmpty_eq_ok (by simp [Json.present?, hget]) h
  · rename_i schema hplain hnull hget
    obtain ⟨constraints, hread, h⟩ := Outcome.bind_eq_ok.mp h
    obtain ⟨item, hitem, h⟩ := Outcome.bind_eq_ok.mp h
    obtain ⟨lengths, hlengths, h⟩ := Outcome.bind_eq_ok.mp h
    obtain rfl := Outcome.pure_eq_ok.mp h
    rw [ofSchema_eq_ok] at hread
    rw [ofPrimitive_eq_ok] at hlengths
    have hschema : node.itemSchema = schema := by
      unfold Json.itemSchema Json.present?
      rw [hget]
      cases schema <;> simp_all
    refine .list ?_ hread ?_ hlengths
    · intro places heq
      exact hplain places (hschema ▸ heq)
    · rw [hschema, hitem]

theorem compileType_eq_ok {type : TypeName} {generator : Generator}
    (h : scope.compileType node type = .ok generator) : CompilesAs scope node type generator := by
  rw [compileType.eq_def] at h
  cases type with
  | object => exact compileObject_eq_ok h
  | array => exact compileArray_eq_ok h
  | string => exact string_eq_ok h
  | boolean | integer | number | null => exact primitive_eq_ok (by simp) h

theorem exists_kept_of_enumeration {values : List Json} {generator : Generator}
    (h : scope.enumeration node values = .ok generator) : ∃ types picker,
      declaredTypes node = .ok types ∧ kept types values ≠ [] ∧
        scope.library.index (kept types values).length = .ok picker ∧
          generator = .enumeration (kept types values) picker := by
  obtain ⟨types, htypes, h⟩ := Outcome.bind_eq_ok.mp h
  rw [ofSchema_eq_ok] at htypes
  split at h
  · cases h
  · rename_i hnonempty
    obtain ⟨picker, hpicker, h⟩ := Outcome.bind_eq_ok.mp h
    obtain rfl := Outcome.pure_eq_ok.mp h
    rw [ofPrimitive_eq_ok] at hpicker
    exact ⟨types, picker, htypes, by simpa using hnonempty, hpicker, rfl⟩

theorem enumeration_eq_ok {values : List Json} {generator : Generator}
    (decides : Decides node .enum (.arr values))
    (h : scope.enumeration node values = .ok generator) : Compiles scope node generator := by
  obtain ⟨types, picker, hdeclared, hnonempty, hpicker, rfl⟩ := exists_kept_of_enumeration h
  exact .enumeration decides hdeclared hnonempty hpicker

theorem choice_eq_ok {keyword : Keyword} {candidates : List Generator} {generator : Generator}
    (h : scope.choice keyword candidates = .ok generator) :
    ∃ picker, scope.library.index candidates.length = .ok picker ∧
      generator = .choice keyword candidates picker := by
  unfold choice at h
  split at h
  · rename_i picker hpicker
    cases h
    exact ⟨picker, hpicker, rfl⟩
  · cases h

theorem compileChoice_eq_ok {keyword : Keyword} {branches : List Json} {generator : Generator}
    (combinator : keyword = .anyOf ∨ keyword = .oneOf)
    (decides : Decides node keyword (.arr branches))
    (h : scope.compileChoice node keyword branches = .ok generator) :
    Compiles scope node generator := by
  rw [compileChoice] at h
  split at h
  · rename_i candidates hall
    obtain ⟨picker, hpicker, rfl⟩ := choice_eq_ok h
    exact .choice combinator decides (List.forall₂_map_left_iff.mp (compileAll_eq_ok hall)) hpicker
  · cases h

theorem compileUnion_eq_ok {types : List TypeName} {generator : Generator}
    (several : 2 ≤ types.length)
    (decides : Decides node .type (.arr (types.map fun type => .str type.text)))
    (h : scope.compileUnion node types = .ok generator) : Compiles scope node generator := by
  rw [compileUnion] at h
  split at h
  · rename_i candidates hall
    obtain ⟨picker, hpicker, rfl⟩ := choice_eq_ok h
    exact .union several decides (List.forall₂_map_left_iff.mp (compileAll_eq_ok hall)) hpicker
  · cases h

theorem compileAllOf_eq_ok {branches : List Json} {generator : Generator}
    (decides : Decides node .allOf (.arr branches))
    (h : scope.compileAllOf node branches = .ok generator) : Compiles scope node generator := by
  rw [compileAllOf] at h
  split at h
  · rename_i merged hmerged
    cases h
    exact .allOf decides hmerged
  · cases h

theorem exists_parsed_of_reference {pointer : String} {generator : Generator}
    (h : scope.reference node pointer = .ok generator) :
    ∃ target, Reference.parse pointer = .ok target ∧
      generator = .reference (target.schemaOr scope.schema) target
        (node.without Keyword.ref.text) := by
  rw [reference] at h
  cases hparse : Reference.parse pointer with
  | error e =>
      rw [hparse] at h
      cases h
  | ok target =>
      rw [hparse] at h
      cases h
      exact ⟨target, rfl, rfl⟩

theorem reference_eq_ok {pointer : String} {generator : Generator}
    (decides : Decides node .ref (.str pointer))
    (h : scope.reference node pointer = .ok generator) : Compiles scope node generator := by
  obtain ⟨target, hparse, rfl⟩ := exists_parsed_of_reference h
  exact .reference decides hparse

theorem compileObject_of_fields {members : List (String × Json)}
    {fields : List (String × Generator)}
    (hget : node.get? Keyword.properties.text = some (.obj members))
    (hfields : scope.compileFields members = .ok fields) :
    scope.compileObject node = .ok (.object fields) := by
  rw [compileObject]
  split <;> simp_all

theorem compileArray_of_places {places : List Json} {items : List Generator}
    (hget : node.get? Keyword.items.text = some (.arr places))
    (hitems : scope.compileAll places = .ok items) :
    scope.compileArray node = .ok (.tuple items) := by
  rw [compileArray]
  split <;> simp_all

/-- A node that compiles does so in one of the ways of `Compiles`. -/
theorem compile_eq_ok {generator : Generator} (h : scope.compile node = .ok generator) :
    Compiles scope node generator := by
  rw [compile_eq_compileKind] at h
  obtain ⟨kind, hkind, h⟩ := Outcome.bind_eq_ok.mp h
  rw [ofSchema_eq_ok] at hkind
  have hdescribes := describes_of_classify hkind
  cases kind with
  | reference pointer => exact reference_eq_ok hdescribes h
  | anyOf branches => exact compileChoice_eq_ok (.inl rfl) hdescribes h
  | oneOf branches => exact compileChoice_eq_ok (.inr rfl) hdescribes h
  | allOf branches => exact compileAllOf_eq_ok hdescribes h
  | enumeration values => exact enumeration_eq_ok hdescribes h
  | single type =>
      rcases hdescribes with hdecides | hdecides
      · exact .typed (.name hdecides) (compileType_eq_ok h)
      · exact .typed (.singleton hdecides) (compileType_eq_ok h)
  | union types => exact compileUnion_eq_ok hdescribes.1 hdescribes.2 h
  | format name => exact .typed (.format hdescribes) (compileType_eq_ok h)
  | properties =>
      obtain ⟨value, hdecides⟩ := hdescribes
      exact .typed (.properties hdecides) (compileType_eq_ok h)
  | items =>
      obtain ⟨value, hdecides⟩ := hdescribes
      exact .typed (.items hdecides) (compileType_eq_ok h)
  | empty =>
      cases h
      exact .empty hdescribes

end Scope

/-! ### A small document

An object with a leaf, a reference to the leaf and a pair of places. It stands for a concrete run
where a statement about runs has to be seen to apply. -/

namespace Sample

/-- A library of booleans and nulls. -/
def library : Library where
  boolean _ := .ok Leaf.boolean
  integer _ := .error (.unknownFormat "integer")
  number _ := .error (.unknownFormat "number")
  null _ := .ok Leaf.null
  string _ := .error (.unknownFormat "string")
  pattern source _ := .error (.badPattern source)
  format name _ := .error (.unknownFormat name)
  array c := Lengths.ofList c
  index length := Picker.ofLength length

def scope : Scope :=
  ⟨"sample", library⟩

def leafNode : Json :=
  .obj [("type", .str "null")]

def rowNode : Json :=
  .obj [("properties", .obj [("id", leafNode)])]

def referenceNode : Json :=
  .obj [("$ref", .str "#/properties/id")]

def enumerationNode : Json :=
  .obj [("enum", .arr [.str "x", .str "y"])]

def pairNode : Json :=
  .obj [("items", .arr [enumerationNode, .obj []])]

def document : Json :=
  .obj [("properties", .obj [("id", leafNode), ("next", referenceNode), ("pair", pairNode)])]

def catalog : Catalog :=
  ⟨[("sample", document)], library⟩

def reference : Generator :=
  .reference "sample" ⟨none, ["properties", "id"]⟩ (.obj [])

def pair : Generator :=
  .tuple [.enumeration [.str "x", .str "y"] ⟨2, Nat.two_pos⟩, .empty]

def fields : List (String × Generator) :=
  [("id", .leaf Leaf.null), ("next", reference), ("pair", pair)]

theorem compile_leafNode : scope.compile leafNode = .ok (.leaf Leaf.null) := by
  rw [Scope.compile_eq_compileKind]
  change scope.compileType leafNode .null = _
  rw [Scope.compileType]
  rfl

theorem compile_referenceNode : scope.compile referenceNode = .ok reference :=
  Scope.compile_eq_compileKind scope referenceNode

theorem compile_enumerationNode :
    scope.compile enumerationNode = .ok (.enumeration [.str "x", .str "y"] ⟨2, Nat.two_pos⟩) :=
  Scope.compile_eq_compileKind scope enumerationNode

theorem compile_pairNode : scope.compile pairNode = .ok pair := by
  have hplaces : scope.compileAll [enumerationNode, .obj []] =
      .ok [.enumeration [.str "x", .str "y"] ⟨2, Nat.two_pos⟩, .empty] := by
    rw [Scope.compileAll, Scope.compileAll, Scope.compileAll, compile_enumerationNode,
      Scope.compile_emptySchema]
    rfl
  rw [Scope.compile_eq_compileKind]
  change scope.compileType pairNode .array = _
  rw [Scope.compileType]
  exact Scope.compileArray_of_places rfl hplaces

theorem compile_document : scope.compile document = .ok (.object fields) := by
  have hfields : scope.compileFields
      [("id", leafNode), ("next", referenceNode), ("pair", pairNode)] = .ok fields := by
    rw [Scope.compileFields, Scope.compileFields, Scope.compileFields, Scope.compileFields,
      compile_leafNode, compile_referenceNode, compile_pairNode]
    rfl
  rw [Scope.compile_eq_compileKind]
  change scope.compileType document .object = _
  rw [Scope.compileType]
  exact Scope.compileObject_of_fields rfl hfields

end Sample

end Specimen
