import Specimen.Generator.Basic
import Specimen.Json.Size
import Specimen.Schema.Constraints
import Specimen.Schema.KindLemmas

/-!
# Compiling schemas

A node compiles to the generator of its kind. Branches are laid over the node they stand in before
they are compiled, and compiling ends because no node grows that way.
-/

namespace Specimen

/-- What a node is compiled in: the schema its local pointers belong to, and the library of
leaves. -/
structure Scope where
  schema : String
  library : Library

namespace Scope

/-- The types an enumeration declares beside its values. In a list only texts count as names. -/
def declaredTypes (node : Json) : Except SchemaError (Option (List TypeName)) :=
  match node.get? Keyword.type.text with
  | none => .ok none
  | some .null => .ok none
  | some (.str name) => do return some [← TypeName.read name]
  | some (.arr entries) => do return some (← (entries.filterMap Json.str?).mapM TypeName.read)
  | some _ => .error (.misused .type .notTypes)

def reference (scope : Scope) (node : Json) (pointer : String) : Except Error Generator :=
  match Reference.parse pointer with
  | .ok target =>
    .ok (.reference (target.schemaOr scope.schema) target (node.without Keyword.ref.text))
  | .error e => .error (.schema e)

def choice (scope : Scope) (keyword : Keyword) (candidates : List Generator) :
    Except Error Generator :=
  match scope.library.index candidates.length with
  | .ok picker => .ok (.choice keyword candidates picker)
  | .error e => .error (.primitive e)

/-- The values that are of one of the declared types, or all values when none is declared. -/
def kept (types : Option (List TypeName)) (values : List Json) : List Json :=
  match types with
  | some types => values.filter fun value => types.any value.hasType
  | none => values

/-- A pick from the values of the declared types. -/
def enumeration (scope : Scope) (node : Json) (values : List Json) : Except Error Generator := do
  let types ← ofSchema (declaredTypes node)
  if (kept types values).isEmpty then throw (.schema (.noValues types))
  let picker ← ofPrimitive (scope.library.index (kept types values).length)
  return .enumeration (kept types values) picker

def primitive (scope : Scope) (node : Json) (type : TypeName) : Except Error Generator := do
  let constraints ← ofSchema (Constraints.ofNode node)
  match type with
  | .boolean => .leaf <$> ofPrimitive (scope.library.boolean constraints)
  | .integer => .leaf <$> ofPrimitive (scope.library.integer constraints)
  | .number => .leaf <$> ofPrimitive (scope.library.number constraints)
  | .null => .leaf <$> ofPrimitive (scope.library.null constraints)
  | .string => .leaf <$> ofPrimitive (scope.library.string constraints)
  | .array | .object => throw (.schema (.misused .type (.notPrimitive type)))

/-- A pattern wins over a format, and a format over plain text. -/
def string (scope : Scope) (node : Json) : Except Error Generator := do
  let constraints ← ofSchema (Constraints.ofNode node)
  match constraints.pattern, constraints.format with
  | some pattern, _ => .leaf <$> ofPrimitive (scope.library.pattern pattern constraints)
  | none, some format => .leaf <$> ofPrimitive (scope.library.format format constraints)
  | none, none => .leaf <$> ofPrimitive (scope.library.string constraints)

/-- The node with one branch of a combinator laid over what stands beside the combinator. -/
def withBranch (node : Json) (keyword : Keyword) (branch : Json) : Json :=
  (node.without keyword.text).merge branch

/-- The node with all branches laid over it from left to right. -/
def withAllBranches (node : Json) (branches : List Json) : Json :=
  branches.foldl Json.merge (node.without Keyword.allOf.text)

/-- The node with a single type in the place of its list of types. -/
def withType (node : Json) (type : TypeName) : Json :=
  node.put Keyword.type.text (.str type.text)

theorem size_withBranch_le (node : Json) (keyword : Keyword) (branch : Json) :
    (withBranch node keyword branch).size ≤ (node.without keyword.text).size + branch.size :=
  Json.size_merge_le _ _

theorem size_withAllBranches_le (node : Json) (branches : List Json) :
    (withAllBranches node branches).size ≤
      (node.without Keyword.allOf.text).size + Json.sizeItems branches :=
  Json.size_foldl_merge_le _ _

theorem size_withType (node : Json) (type other : TypeName) :
    (withType node type).size = (withType node other).size := by
  cases node with
  | obj members =>
    cases h : Assoc.get? Keyword.type.text members with
    | none =>
      have h₁ := Json.sizeMembers_put_of_none h (.str type.text)
      have h₂ := Json.sizeMembers_put_of_none h (.str other.text)
      simp only [withType, Json.put, Json.size] at h₁ h₂ ⊢
      omega
    | some old =>
      have h₁ := Json.sizeMembers_put_of_some h (.str type.text)
      have h₂ := Json.sizeMembers_put_of_some h (.str other.text)
      simp only [withType, Json.put, Json.size] at h₁ h₂ ⊢
      omega
  | _ => rfl

theorem size_withType_lt {node entry : Json} {entries : List Json} (type : TypeName)
    (h : node.get? Keyword.type.text = some (.arr (entry :: entries))) :
    (withType node type).size < node.size := by
  have hput := Json.size_put_of_some h (.str type.text)
  have hentry := Json.size_pos entry
  simp only [Json.size, Json.sizeItems] at hput
  simp only [withType]
  omega

theorem maxSize_withBranch_le (node : Json) (keyword : Keyword) (branches : List Json) :
    Json.maxSize (branches.map (withBranch node keyword)) ≤
      (node.without keyword.text).size + Json.sizeItems branches := by
  apply Json.maxSize_le
  intro merged hmerged
  obtain ⟨branch, hbranch, rfl⟩ := List.mem_map.1 hmerged
  have hle := size_withBranch_le node keyword branch
  have hsize := Json.size_le_sizeItems hbranch
  omega

theorem maxSize_withType_le (node : Json) (types : List TypeName) :
    Json.maxSize (types.map (withType node)) ≤ (withType node .null).size := by
  apply Json.maxSize_le
  intro single hsingle
  obtain ⟨type, -, rfl⟩ := List.mem_map.1 hsingle
  exact Nat.le_of_eq (size_withType node type .null)

/-- A list of any number of empty objects. -/
def listOfEmpty (scope : Scope) (node : Json) : Except Error Generator := do
  let constraints ← ofSchema (Constraints.ofNode node)
  return .list .empty (← ofPrimitive (scope.library.array constraints))

mutual

/-- Compiles a node to the generator of its kind. -/
def compile (scope : Scope) (node : Json) : Except Error Generator :=
  match _hkind : classify node with
  | .error e => .error (.schema e)
  | .ok (.reference pointer) => scope.reference node pointer
  | .ok (.anyOf branches) => scope.compileChoice node .anyOf branches
  | .ok (.oneOf branches) => scope.compileChoice node .oneOf branches
  | .ok (.allOf branches) => scope.compileAllOf node branches
  | .ok (.enumeration values) => scope.enumeration node values
  | .ok (.single type) => scope.compileType node type
  | .ok (.union types) => scope.compileUnion node types
  | .ok (.format _) => scope.compileType node .string
  | .ok .properties => scope.compileType node .object
  | .ok .items => scope.compileType node .array
  | .ok .empty => .ok .empty
termination_by (node.size, 2, 0)
decreasing_by
  · have := Json.size_without_arr (Kind.get?_of_classify _hkind)
    exact Prod.Lex.right' _ (by omega) (Prod.Lex.left _ _ (by omega))
  · have := Json.size_without_arr (Kind.get?_of_classify _hkind)
    exact Prod.Lex.right' _ (by omega) (Prod.Lex.left _ _ (by omega))
  · have := Json.size_without_arr (Kind.get?_of_classify _hkind)
    exact Prod.Lex.right' _ (by omega) (Prod.Lex.left _ _ (by omega))
  · exact Prod.Lex.right _ (Prod.Lex.left _ _ (by omega))
  · obtain ⟨_, _, hget⟩ := Kind.get?_of_classify _hkind
    have := size_withType_lt .null hget
    exact Prod.Lex.right' _ (by omega) (Prod.Lex.left _ _ (by omega))
  all_goals exact Prod.Lex.right _ (Prod.Lex.left _ _ (by omega))

def compileType (scope : Scope) (node : Json) (type : TypeName) : Except Error Generator :=
  match type with
  | .object => scope.compileObject node
  | .array => scope.compileArray node
  | .string => scope.string node
  | .boolean | .integer | .number | .null => scope.primitive node type
termination_by (node.size, 1, 0)
decreasing_by
  all_goals exact Prod.Lex.right _ (Prod.Lex.left _ _ (by omega))

/-- Every branch is compiled on its own; one of them is picked for each value. -/
def compileChoice (scope : Scope) (node : Json) (keyword : Keyword) (branches : List Json) :
    Except Error Generator :=
  match scope.compileAll (branches.map (withBranch node keyword)) with
  | .ok candidates => scope.choice keyword candidates
  | .error e => .error e
termination_by ((node.without keyword.text).size + Json.sizeItems branches + 1, 0, 0)
decreasing_by
  have := maxSize_withBranch_le node keyword branches
  exact Prod.Lex.left _ _ (by omega)

def compileAllOf (scope : Scope) (node : Json) (branches : List Json) : Except Error Generator :=
  match scope.compile (withAllBranches node branches) with
  | .ok merged => .ok (.allOf merged)
  | .error e => .error e
termination_by ((node.without Keyword.allOf.text).size + Json.sizeItems branches + 1, 0, 0)
decreasing_by
  have := size_withAllBranches_le node branches
  exact Prod.Lex.left _ _ (by omega)

/-- Every type is compiled on its own; one of them is picked for each value. -/
def compileUnion (scope : Scope) (node : Json) (types : List TypeName) : Except Error Generator :=
  match scope.compileAll (types.map (withType node)) with
  | .ok candidates => scope.choice .type candidates
  | .error e => .error e
termination_by ((withType node .null).size + 1, 0, 0)
decreasing_by
  have := maxSize_withType_le node types
  exact Prod.Lex.left _ _ (by omega)

def compileObject (scope : Scope) (node : Json) : Except Error Generator :=
  match _hmembers : node.get? Keyword.properties.text with
  | none => .ok (.object [])
  | some .null => .ok (.object [])
  | some (.obj members) =>
    match scope.compileFields members with
    | .ok fields => .ok (.object fields)
    | .error e => .error e
  | some _ => .error (.schema (.misused .properties .notProperties))
termination_by (node.size, 0, 0)
decreasing_by
  have hlt := Json.size_lt_of_get? _hmembers
  have hle := Json.maxSize_le_sizeMembers members
  simp only [Json.size] at hlt
  exact Prod.Lex.left _ _ (by omega)

/-- A list of item schemas makes a tuple; any other is the schema of every element. -/
def compileArray (scope : Scope) (node : Json) : Except Error Generator :=
  match _hitems : node.get? Keyword.items.text with
  | some (.arr places) =>
    match scope.compileAll places with
    | .ok items => .ok (.tuple items)
    | .error e => .error e
  | none => scope.listOfEmpty node
  | some .null => scope.listOfEmpty node
  | some schema => do
    let constraints ← ofSchema (Constraints.ofNode node)
    let item ← scope.compile schema
    return .list item (← ofPrimitive (scope.library.array constraints))
termination_by (node.size, 0, 0)
decreasing_by
  · have hlt := Json.size_lt_of_get? _hitems
    have hle := Json.maxSize_le_sizeItems places
    simp only [Json.size] at hlt
    exact Prod.Lex.left _ _ (by omega)
  · exact Prod.Lex.left _ _ (Json.size_lt_of_get? _hitems)

/-- Compiles nodes from left to right, up to the first that fails. -/
def compileAll (scope : Scope) (nodes : List Json) : Except Error (List Generator) :=
  match nodes with
  | [] => .ok []
  | node :: rest => do
    let first ← scope.compile node
    return first :: (← scope.compileAll rest)
termination_by (Json.maxSize nodes, 3, nodes.length)
decreasing_by
  · have := Json.maxSize_cons node rest
    exact Prod.Lex.right' _ (by omega) (Prod.Lex.left _ _ (by omega))
  · have := Json.maxSize_cons node rest
    exact Prod.Lex.right' _ (by omega) (Prod.Lex.right _ (by simp))

def compileFields (scope : Scope) (members : List (String × Json)) :
    Except Error (List (String × Generator)) :=
  match members with
  | [] => .ok []
  | (name, node) :: rest => do
    let first ← scope.compile node
    return (name, first) :: (← scope.compileFields rest)
termination_by (Json.maxSize (members.map Prod.snd), 3, members.length)
decreasing_by
  · have := Json.maxSize_cons node (rest.map Prod.snd)
    exact Prod.Lex.right' _ (by simp only [List.map_cons]; omega) (Prod.Lex.left _ _ (by omega))
  · have := Json.maxSize_cons node (rest.map Prod.snd)
    exact Prod.Lex.right' _ (by simp only [List.map_cons]; omega) (Prod.Lex.right _ (by simp))

end

end Scope

end Specimen
