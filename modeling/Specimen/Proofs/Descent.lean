import Specimen.Proofs.Correspondence

/-!
# Descent

Compiling a node goes on with nodes that need not stand in it: a branch is laid over what stands
beside its combinator, and the result may hold the same combinator again. What carries the
recursion is the size alone. One level of compiling is taken apart from the calls it makes, so
that a call on a node that is not smaller can be made to give nothing, and compiling can be run
with a bound on the calls that are open inside each other.
-/

namespace Specimen

/-- A compilation that may also stay without an outcome. -/
abbrev Attempt := ExceptT Error Option

namespace Attempt

variable {α β : Type}

def finished (outcome : Except Error α) : Attempt α :=
  ExceptT.mk (some outcome)

def unfinished : Attempt α :=
  ExceptT.mk none

theorem finished_bind (outcome : Except Error α) (next : α → Except Error β) :
    (finished outcome >>= fun a => finished (next a)) = finished (outcome >>= next) := by
  cases outcome with
  | ok a => rfl
  | error e => rfl

theorem pure_eq_finished (a : α) : (pure a : Attempt α) = finished (.ok a) :=
  rfl

theorem map_finished (f : α → β) (outcome : Except Error α) :
    f <$> finished outcome = finished (f <$> outcome) := by
  cases outcome with
  | ok a => rfl
  | error e => rfl

theorem mapM_finished {attempt : α → Attempt β} {outcome : α → Except Error β} {members : List α}
    (h : ∀ member ∈ members, attempt member = finished (outcome member)) :
    members.mapM attempt = finished (members.mapM outcome) := by
  induction members with
  | nil => rfl
  | cons first rest ih =>
      have hfirst := h first List.mem_cons_self
      have hrest := ih fun member hmember => h member (List.mem_cons_of_mem _ hmember)
      rw [List.mapM_cons, List.mapM_cons, hfirst, hrest]
      cases outcome first with
      | error e => rfl
      | ok b =>
          cases rest.mapM outcome with
          | error e => rfl
          | ok bs => rfl

end Attempt

open Attempt (finished unfinished)

namespace Scope

/-! ### One level of compiling -/

section Level

variable (scope : Scope) (recur : Json → Attempt Generator) (node : Json)

def choiceBy (keyword : Keyword) (nodes : List Json) : Attempt Generator := do
  finished (scope.choice keyword (← nodes.mapM recur))

def objectBy : Attempt Generator :=
  match node.present? .properties with
  | none => finished (.ok (.object []))
  | some (.obj properties) => do
    let field := fun property : String × Json => (property.1, ·) <$> recur property.2
    return .object (← properties.mapM field)
  | some _ => finished (.error (.schema (.misused .properties .notProperties)))

def arrayBy : Attempt Generator :=
  match node.itemSchema with
  | .arr places => do return .tuple (← places.mapM recur)
  | schema => do
    let constraints ← finished (ofSchema (Constraints.ofNode node))
    let item ← recur schema
    return .list item (← finished (ofPrimitive (scope.library.array constraints)))

def typeBy : TypeName → Attempt Generator
  | .object => objectBy recur node
  | .array => scope.arrayBy recur node
  | .string => finished (scope.string node)
  | type => finished (scope.primitive node type)

def kindBy : Kind → Attempt Generator
  | .reference pointer => finished (scope.reference node pointer)
  | .anyOf branches => scope.choiceBy recur .anyOf (branches.map (withBranch node .anyOf))
  | .oneOf branches => scope.choiceBy recur .oneOf (branches.map (withBranch node .oneOf))
  | .allOf branches => do return .allOf (← recur (withAllBranches node branches))
  | .enumeration values => finished (scope.enumeration node values)
  | .single type => scope.typeBy recur node type
  | .union types => scope.choiceBy recur .type (types.map (withType node))
  | .format _ => scope.typeBy recur node .string
  | .properties => scope.typeBy recur node .object
  | .items => scope.typeBy recur node .array
  | .empty => finished (.ok .empty)

/-- Compiles a node with `recur` in the place of every call of compiling itself. -/
def compileBy : Attempt Generator := do
  scope.kindBy recur node (← finished (ofSchema (classify node)))

end Level

/-- Compiling with a bound on the calls that are open inside each other. -/
def compileWithin (scope : Scope) (calls : Nat) (node : Json) : Attempt Generator :=
  match calls with
  | 0 => unfinished
  | calls + 1 => scope.compileBy (scope.compileWithin calls) node

/-- Compiles what is below a size, and has no outcome for anything else. -/
def compileBelow (scope : Scope) (bound : Nat) (node : Json) : Attempt Generator :=
  if node.size < bound then finished (scope.compile node) else unfinished

/-! ### The calls are on parts -/

theorem compileAll_eq_mapM (scope : Scope) (nodes : List Json) :
    scope.compileAll nodes = nodes.mapM scope.compile := by
  induction nodes with
  | nil =>
      rw [compileAll]
      rfl
  | cons node rest ih => rw [compileAll, List.mapM_cons, ih]

theorem compileFields_eq_mapM (scope : Scope) (properties : List (String × Json)) :
    scope.compileFields properties =
      properties.mapM fun property => (property.1, ·) <$> scope.compile property.2 := by
  induction properties with
  | nil =>
      rw [compileFields]
      rfl
  | cons property rest ih =>
      rw [compileFields, List.mapM_cons, ih]
      cases scope.compile property.2 with
      | error e => rfl
      | ok generator => rfl

section Parts

variable {scope : Scope} {recur : Json → Attempt Generator} {node : Json}

theorem choiceBy_eq {keyword : Keyword} {nodes : List Json}
    (h : ∀ candidate ∈ nodes, recur candidate = finished (scope.compile candidate)) :
    scope.choiceBy recur keyword nodes =
      finished (scope.compileAll nodes >>= scope.choice keyword) := by
  rw [choiceBy, Attempt.mapM_finished h, Attempt.finished_bind, compileAll_eq_mapM]

theorem objectBy_eq (h : ∀ properties, node.present? .properties = some (.obj properties) →
      ∀ property ∈ properties, recur property.2 = finished (scope.compile property.2)) :
    objectBy recur node = finished (scope.compileObject node) := by
  rw [objectBy]
  cases hpresent : node.present? .properties with
  | none => rw [compileObject_of_bare hpresent]
  | some value =>
      cases value with
      | obj properties =>
          have hfields : properties.mapM (fun property => (property.1, ·) <$> recur property.2) =
              finished (scope.compileFields properties) := by
            rw [compileFields_eq_mapM]
            apply Attempt.mapM_finished
            intro property hproperty
            rw [h properties hpresent property hproperty, Attempt.map_finished]
          dsimp only
          rw [compileObject_eq properties hpresent, hfields, ← Attempt.map_finished]
          rfl
      | null | bool | int | float | str | arr =>
          rw [compileObject_of_noFields hpresent (by simp)]

theorem arrayBy_eq (hplaces : ∀ places, node.present? .items = some (.arr places) →
      ∀ place ∈ places, recur place = finished (scope.compile place))
    (helement : (∀ places, node.itemSchema ≠ .arr places) →
      recur node.itemSchema = finished (scope.compile node.itemSchema)) :
    scope.arrayBy recur node = finished (scope.compileArray node) := by
  by_cases hplain : ∀ places, node.itemSchema ≠ .arr places
  · have hlist : scope.arrayBy recur node = (do
        let constraints ← finished (ofSchema (Constraints.ofNode node))
        let item ← recur node.itemSchema
        return .list item (← finished (ofPrimitive (scope.library.array constraints)))) := by
      rw [arrayBy]
      split
      case h_1 places hschema => exact absurd hschema (hplain places)
      case h_2 => rfl
    rw [hlist, compileArray_of_elements hplain, helement hplain]
    simp only [Attempt.pure_eq_finished, Attempt.finished_bind]
    rfl
  · simp only [ne_eq, not_forall, not_not] at hplain
    obtain ⟨places, hschema⟩ := hplain
    have hpresent : node.present? .items = some (.arr places) := by
      rw [Json.itemSchema] at hschema
      cases hitems : node.present? .items with
      | none =>
          rw [hitems] at hschema
          cases hschema
      | some value =>
          rw [hitems] at hschema
          exact congrArg some hschema
    have htuple : scope.arrayBy recur node = (do return .tuple (← places.mapM recur)) := by
      rw [arrayBy, hschema]
    rw [htuple, compileArray_eq places hpresent, Attempt.mapM_finished (hplaces places hpresent),
      compileAll_eq_mapM, ← Attempt.map_finished]
    rfl

theorem typeBy_eq {kind : Kind} {type : TypeName} (hkind : classify node = .ok kind)
    (htype : kind.type? = some type)
    (h : ∀ part, node.Part part → recur part = finished (scope.compile part)) :
    scope.typeBy recur node type = finished (scope.compileType node type) := by
  cases type with
  | object =>
      rw [typeBy, compileType]
      apply objectBy_eq
      intro properties hpresent property hproperty
      exact h _ (.property hkind htype hpresent hproperty)
  | array =>
      rw [typeBy, compileType]
      apply arrayBy_eq
      · intro places hpresent place hplace
        exact h _ (.place hkind htype hpresent hplace)
      · intro hplain
        exact h _ (.element hkind htype hplain)
  | string => rw [typeBy, compileType]
  | boolean | integer | number | null => rw [typeBy, compileType] <;> simp

/-- Compiling calls itself on the parts of the node and on nothing else: whatever does the same on
the parts can stand in the place of the calls. -/
theorem compileBy_eq (h : ∀ part, node.Part part → recur part = finished (scope.compile part)) :
    scope.compileBy recur node = finished (scope.compile node) := by
  rw [compileBy, compile_eq_compileKind, ← Attempt.finished_bind]
  cases hkind : classify node with
  | error e => rfl
  | ok kind =>
      change scope.kindBy recur node kind = finished (scope.compileKind node kind)
      cases kind with
      | reference | enumeration | empty => rfl
      | anyOf branches =>
          rw [compileKind_of_candidates? rfl, kindBy]
          exact choiceBy_eq fun candidate hcandidate => h _ (.candidate hkind rfl hcandidate)
      | oneOf branches =>
          rw [compileKind_of_candidates? rfl, kindBy]
          exact choiceBy_eq fun candidate hcandidate => h _ (.candidate hkind rfl hcandidate)
      | union types =>
          rw [compileKind_of_candidates? rfl, kindBy]
          exact choiceBy_eq fun candidate hcandidate => h _ (.candidate hkind rfl hcandidate)
      | allOf branches =>
          rw [compileKind, compileAllOf_eq, kindBy, h _ (.merged hkind), ← Attempt.map_finished]
          rfl
      | single type => exact typeBy_eq hkind rfl h
      | format name => exact typeBy_eq hkind rfl h
      | properties => exact typeBy_eq hkind rfl h
      | items => exact typeBy_eq hkind rfl h

theorem compileBelow_of_lt {bound : Nat} (h : node.size < bound) :
    scope.compileBelow bound node = finished (scope.compile node) :=
  if_pos h

theorem compileBy_compileBelow (scope : Scope) (node : Json) :
    scope.compileBy (scope.compileBelow node.size) node = finished (scope.compile node) :=
  compileBy_eq fun _ hpart => compileBelow_of_lt hpart.size_lt

/-- As many calls as the size of the node are enough. -/
theorem compileWithin_eq {calls : Nat} (h : node.size ≤ calls) :
    scope.compileWithin calls node = finished (scope.compile node) := by
  induction calls generalizing node with
  | zero =>
      have hpos := node.size_pos
      omega
  | succ calls ih =>
      rw [compileWithin]
      apply compileBy_eq
      intro part hpart
      have hlt := hpart.size_lt
      apply ih
      omega

/-! ### References -/

/-- A reference compiles without a call, wherever it leads. -/
theorem compileBy_of_reference {pointer : String} {target : Reference}
    (hkind : classify node = .ok (.reference pointer))
    (hparse : Reference.parse pointer = .ok target) :
    scope.compileBy recur node = finished (.ok
      (.reference (target.schemaOr scope.schema) target (node.without Keyword.ref.text))) := by
  rw [compileBy, hkind]
  change finished (scope.reference node pointer) = _
  rw [reference, hparse]

theorem compile_of_reference {pointer : String} {target : Reference}
    (hkind : classify node = .ok (.reference pointer))
    (hparse : Reference.parse pointer = .ok target) : scope.compile node =
      .ok (.reference (target.schemaOr scope.schema) target (node.without Keyword.ref.text)) := by
  rw [compile_of_classify hkind, compileKind, reference, hparse]

theorem exists_compileFields {properties : List (String × Json)}
    (h : ∀ property ∈ properties, ∃ generator, scope.compile property.2 = .ok generator) :
    ∃ fields, scope.compileFields properties = .ok fields := by
  induction properties with
  | nil => exact ⟨[], by rw [compileFields]⟩
  | cons property rest ih =>
      obtain ⟨generator, hgenerator⟩ := h property List.mem_cons_self
      obtain ⟨fields, hfields⟩ := ih fun other hother => h other (List.mem_cons_of_mem _ hother)
      exact ⟨(property.1, generator) :: fields, by rw [compileFields, hgenerator, hfields]; rfl⟩

/-- An object compiles if its properties do, and those that only refer do wherever they lead. -/
theorem exists_compile_of_properties {kind : Kind} {properties : List (String × Json)}
    (hkind : classify node = .ok kind) (hobject : kind.type? = some .object)
    (hpresent : node.present? .properties = some (.obj properties))
    (h : ∀ property ∈ properties, (∃ pointer target,
        classify property.2 = .ok (.reference pointer) ∧ Reference.parse pointer = .ok target) ∨
      ∃ generator, scope.compile property.2 = .ok generator) :
    ∃ fields, scope.compile node = .ok (.object fields) := by
  have heach : ∀ property ∈ properties, ∃ generator, scope.compile property.2 = .ok generator := by
    intro property hproperty
    rcases h property hproperty with ⟨pointer, target, hrefers, hparse⟩ | hcompiles
    · exact ⟨_, compile_of_reference hrefers hparse⟩
    · exact hcompiles
  obtain ⟨fields, hfields⟩ := exists_compileFields heach
  refine ⟨fields, ?_⟩
  rw [compile_of_classify hkind, compileKind_of_type? hobject, compileType,
    compileObject_eq properties hpresent, hfields]
  rfl

end Parts

/-! ### Compiling ends -/

structure Descends (scope : Scope) : Prop where
  merged : ∀ base overlay : Json, (base.merge overlay).size ≤ base.size + overlay.size
  smaller : ∀ {node part : Json}, node.Part part → part.size < node.size
  /-- Nothing is missed if a call on a node that is not smaller has no outcome. -/
  calls : ∀ node, scope.compileBy (scope.compileBelow node.size) node =
    finished (scope.compile node)
  returns : ∀ {node : Json} {calls : Nat}, node.size ≤ calls →
    scope.compileWithin calls node = finished (scope.compile node)
  /-- A reference makes no call at all. -/
  refers : ∀ {node : Json} {pointer : String} {target : Reference},
    classify node = .ok (.reference pointer) → Reference.parse pointer = .ok target →
      scope.compileBy (fun _ => unfinished) node = finished (.ok
        (.reference (target.schemaOr scope.schema) target (node.without Keyword.ref.text)))
  linked : ∀ {node : Json} {kind : Kind} {properties : List (String × Json)},
    classify node = .ok kind → kind.type? = some .object →
      node.present? .properties = some (.obj properties) →
      (∀ property ∈ properties, (∃ pointer target,
          classify property.2 = .ok (.reference pointer) ∧ Reference.parse pointer = .ok target) ∨
        ∃ generator, scope.compile property.2 = .ok generator) →
      ∃ fields, scope.compile node = .ok (.object fields)

/-- Compiling has an outcome for every node of every schema: laying one value over another adds up
sizes at most, calls are on smaller nodes only, and references are not followed. -/
theorem compile_descends (scope : Scope) : scope.Descends where
  merged := Json.size_merge_le
  smaller := Json.Part.size_lt
  calls := scope.compileBy_compileBelow
  returns := compileWithin_eq
  refers := compileBy_of_reference
  linked := exists_compile_of_properties

/-- A schema whose property is the schema itself. -/
example : Sample.scope.compileWithin 2 (.obj [("properties",
      .obj [("next", .obj [("$ref", .str "#")])])]) =
    finished (.ok (.object [("next", .reference "sample" ⟨none, []⟩ (.obj []))])) :=
  rfl

end Scope

end Specimen
