import Specimen.Proofs.Conformance
import Specimen.Proofs.Correspondence
import Specimen.Proofs.Narrowing
import Specimen.Proofs.Validation

/-!
# Values that satisfy a node

What a node says of a value that is written down somewhere: that it is one of those listed, that the
constraints of its type permit it, and so on down through properties and items. References and
choices say nothing. A node that compiles does not reject a value that satisfies it.
-/

namespace Specimen

/-- What the node compiles to on its own, if it does, does not reject the value. -/
def Scope.Allows (scope : Scope) (node value : Json) : Prop :=
  ∀ generator, scope.compile node = .ok generator → generator.Accepts value

/-- The node is compiled by this type alone. -/
def Json.OfType (node : Json) (type : TypeName) : Prop :=
  ∃ kind, classify node = .ok kind ∧ kind.type? = some type

/-- References, choices and the empty schema judge nothing. -/
def Kind.Unjudged : Kind → Prop
  | .reference _ | .anyOf _ | .oneOf _ | .union _ | .empty => True
  | .allOf _ | .enumeration _ | .single _ | .format _ | .properties | .items => False

/-- A value satisfies a node. -/
inductive Satisfies (engine : Pattern.Engine) : Json → Json → Prop where
  | unjudged {node value : Json} {kind : Kind} (classified : classify node = .ok kind)
      (unjudged : kind.Unjudged) : Satisfies engine node value
  | allOf {node value : Json} {branches : List Json}
      (classified : classify node = .ok (.allOf branches))
      (satisfies : Satisfies engine (Scope.withAllBranches node branches) value) :
      Satisfies engine node value
  | enumeration {node value entry : Json} {values : List Json}
      (classified : classify node = .ok (.enumeration values)) (listed : entry ∈ values)
      (allowed : AllowsType node entry) (equal : entry.equal value = true) :
      Satisfies engine node value
  | leaf {node value : Json} {type : TypeName} {constraints : Constraints}
      (ofType : node.OfType type) (read : Constraints.ofNode node = .ok constraints)
      (permits : Permits engine constraints type value) : Satisfies engine node value
  | object {node : Json} {members : List (String × Json)} (ofType : node.OfType .object)
      (each : ∀ properties, node.present? .properties = some (.obj properties) →
        ∀ property ∈ properties,
          Satisfies engine property.2 ((Assoc.get? property.1 members).getD .null)) :
      Satisfies engine node (.obj members)
  | tuple {node : Json} {places values : List Json} (ofType : node.OfType .array)
      (present : node.present? .items = some (.arr places))
      (each : ∀ (place : Nat) schema, places[place]? = some schema →
        Satisfies engine schema (values[place]?.getD .null)) : Satisfies engine node (.arr values)
  | list {node : Json} {values : List Json} {constraints : Constraints} {lengths : Lengths}
      (ofType : node.OfType .array) (plain : ∀ places, node.itemSchema ≠ .arr places)
      (read : Constraints.ofNode node = .ok constraints)
      (built : Lengths.ofList constraints = .ok lengths)
      (inside : lengths.contains values.length = true)
      (each : ∀ schema, node.present? .items = some schema →
        ∀ value ∈ values, Satisfies engine schema value) : Satisfies engine node (.arr values)

/-! ### What a node allows -/

namespace Scope

variable {scope : Scope} {node value : Json}

theorem compilesAs_of_ofType {type : TypeName} {generator : Generator} (htype : node.OfType type)
    (h : scope.compile node = .ok generator) : CompilesAs scope node type generator := by
  obtain ⟨kind, hkind, hof⟩ := htype
  rw [compile_of_classify hkind, compileKind_of_type? hof] at h
  exact compileType_eq_ok h

/-- A node of a type without parts compiles to the leaf that the library builds. -/
theorem compile_of_buildsLeaf {type : TypeName} {c : Constraints} {leaf : Leaf}
    (htype : node.OfType type) (hread : Constraints.ofNode node = .ok c)
    (hbuilds : BuildsLeaf scope.library c type leaf) : scope.compile node = .ok (.leaf leaf) := by
  obtain ⟨kind, hkind, hof⟩ := htype
  rw [compile_of_classify hkind, compileKind_of_type? hof]
  have hleaf {built : Except PrimitiveError Leaf} (h : built = .ok leaf) :
      Generator.leaf <$> ofPrimitive built = .ok (.leaf leaf) :=
    Outcome.map_eq_ok.mpr ⟨leaf, ofPrimitive_eq_ok.mpr h, rfl⟩
  cases hbuilds with
  | boolean built | integer built | number built | null built =>
      rw [compileType, primitive]
      exact Outcome.bind_eq_ok.mpr ⟨c, ofSchema_eq_ok.mpr hread, hleaf built⟩
  | pattern written built =>
      rw [compileType, string]
      refine Outcome.bind_eq_ok.mpr ⟨c, ofSchema_eq_ok.mpr hread, ?_⟩
      simp only [written]
      exact hleaf built
  | format noPattern written built =>
      rw [compileType, string]
      refine Outcome.bind_eq_ok.mpr ⟨c, ofSchema_eq_ok.mpr hread, ?_⟩
      simp only [noPattern, written]
      exact hleaf built
  | text noPattern noFormat built =>
      rw [compileType, string]
      refine Outcome.bind_eq_ok.mpr ⟨c, ofSchema_eq_ok.mpr hread, ?_⟩
      simp only [noPattern, noFormat]
      exact hleaf built

theorem allows_of_candidates {kind : Kind} {keyword : Keyword} {candidates : List Json}
    (hkind : classify node = .ok kind) (hamong : kind.candidates? node = some (keyword, candidates)) :
    scope.Allows node value := by
  intro generator hcompile
  rw [compile_of_classify hkind, compileKind_of_candidates? hamong] at hcompile
  obtain ⟨generators, -, hchoice⟩ := Outcome.bind_eq_ok.mp hcompile
  obtain ⟨picker, -, rfl⟩ := choice_eq_ok hchoice
  simp [Generator.Accepts, Generator.validate]

theorem allows_unjudged {kind : Kind} (hkind : classify node = .ok kind) (hunjudged : kind.Unjudged) :
    scope.Allows node value := by
  cases kind with
  | anyOf | oneOf | union => exact allows_of_candidates hkind rfl
  | reference pointer =>
      intro generator hcompile
      rw [compile_of_classify hkind, compileKind] at hcompile
      obtain ⟨target, -, rfl⟩ := exists_parsed_of_reference hcompile
      simp [Generator.Accepts, Generator.validate]
  | empty =>
      intro generator hcompile
      rw [compile_of_classify hkind] at hcompile
      cases hcompile
      exact Generator.accepts_empty value
  | allOf | enumeration | single | format | properties | items => cases hunjudged

theorem allows_merged {branches : List Json} (hkind : classify node = .ok (.allOf branches))
    (h : scope.Allows (withAllBranches node branches) value) : scope.Allows node value := by
  intro generator hcompile
  rw [compile_of_classify hkind, compileKind, compileAllOf_eq] at hcompile
  obtain ⟨merged, hmerged, rfl⟩ := Outcome.map_eq_ok.mp hcompile
  exact h merged hmerged

theorem allows_listed {entry : Json} {values : List Json}
    (hkind : classify node = .ok (.enumeration values)) (hlisted : entry ∈ values)
    (hallowed : AllowsType node entry) (hequal : entry.equal value = true) :
    scope.Allows node value := by
  intro generator hcompile
  rw [compile_of_classify hkind, compileKind] at hcompile
  obtain ⟨types, picker, hdeclared, -, -, rfl⟩ := exists_kept_of_enumeration hcompile
  have hkept := (mem_kept_iff hdeclared).mpr ⟨hlisted, hallowed⟩
  have hany : (kept types values).any (Json.equal · value) = true :=
    List.any_eq_true.mpr ⟨entry, hkept, hequal⟩
  simp [Generator.Accepts, Generator.validate, hany]

theorem allows_permitted {engine : Pattern.Engine} {constraints : Constraints} {type : TypeName}
    (hlibrary : scope.library = .standard engine) (htype : node.OfType type)
    (hread : Constraints.ofNode node = .ok constraints) (h : Permits engine constraints type value) :
    scope.Allows node value := by
  intro generator hcompile
  cases compilesAs_of_ofType htype hcompile with
  | leaf read builds =>
      obtain rfl := Except.ok.inj (hread.symm.trans read)
      rw [hlibrary] at builds
      exact h.validate_ne builds
  | bare | object | tuple | list => cases h

theorem allows_object {members : List (String × Json)} (htype : node.OfType .object)
    (heach : ∀ properties, node.present? .properties = some (.obj properties) →
      ∀ property ∈ properties,
        scope.Allows property.2 ((Assoc.get? property.1 members).getD .null)) :
    scope.Allows node (.obj members) := by
  intro generator hcompile
  cases compilesAs_of_ofType htype hcompile with
  | leaf _ builds => cases builds
  | bare => simp [Generator.Accepts, Generator.validate, Generator.validateFields]
  | @object properties fields present each =>
      have hfields : Generator.validateFields fields members = true := by
        rw [Generator.validateFields_iff]
        intro field hfield
        obtain ⟨property, hproperty, hname, hcompile⟩ := exists_mem_of_forall₂ each hfield
        rw [← hname]
        exact heach properties present property hproperty field.2 hcompile
      simp [Generator.Accepts, Generator.validate, hfields]

theorem validatePlaces_of_accepts {items : List Generator} {values : List Json}
    (h : ∀ (place : Nat) item, items[place]? = some item →
      item.Accepts (values[place]?.getD .null)) : Generator.validatePlaces items values = true := by
  induction items generalizing values with
  | nil => rfl
  | cons item items ih =>
      rw [Generator.validatePlaces, Bool.and_eq_true]
      constructor
      · have hfirst := Generator.accepts_iff.mp (h 0 item rfl)
        rwa [← List.head?_eq_getElem?] at hfirst
      · apply ih
        intro place found hfound
        rw [List.getElem?_tail]
        exact h (place + 1) found hfound

theorem allows_tuple {places values : List Json} (htype : node.OfType .array)
    (hpresent : node.present? .items = some (.arr places))
    (heach : ∀ (place : Nat) schema, places[place]? = some schema →
      scope.Allows schema (values[place]?.getD .null)) : scope.Allows node (.arr values) := by
  intro generator hcompile
  cases compilesAs_of_ofType htype hcompile with
  | leaf _ builds => cases builds
  | @tuple places' items present each =>
      rw [hpresent, Option.some.injEq, Json.arr.injEq] at present
      subst present
      have hplaces : Generator.validatePlaces items values = true := by
        apply validatePlaces_of_accepts
        intro place item hitem
        obtain ⟨schema, hschema, hcompile⟩ := exists_of_rel_right (rel_getElem? each place) hitem
        exact heach place schema hschema item hcompile
      simp [Generator.Accepts, Generator.validate, hplaces]
  | list plain => exact absurd (by simp [Json.itemSchema, hpresent]) (plain places)

/-- A list node allows lists of its lengths whose elements its item schema allows. -/
theorem allows_list {engine : Pattern.Engine} {values : List Json} {constraints : Constraints}
    {lengths : Lengths} (hlibrary : scope.library = .standard engine)
    (htype : node.OfType .array) (hplain : ∀ places, node.itemSchema ≠ .arr places)
    (hread : Constraints.ofNode node = .ok constraints)
    (hbuilt : Lengths.ofList constraints = .ok lengths)
    (hlength : lengths.contains values.length = true)
    (heach : ∀ schema, node.present? .items = some schema →
      ∀ value ∈ values, scope.Allows schema value) : scope.Allows node (.arr values) := by
  intro generator hcompile
  cases compilesAs_of_ofType htype hcompile with
  | leaf _ builds => cases builds
  | @tuple places _ present =>
      exact absurd (by simp [Json.itemSchema, present]) (hplain places)
  | @list _ item _ _ read compiled built =>
      obtain rfl := Except.ok.inj (hread.symm.trans read)
      rw [hlibrary] at built
      obtain rfl := Except.ok.inj (hbuilt.symm.trans built)
      apply Generator.accepts_list hlength
      intro value hvalue
      cases hitems : node.present? .items with
      | none =>
          rw [Json.itemSchema, hitems, Option.getD_none, compile_emptySchema] at compiled
          cases compiled
          exact Generator.accepts_empty value
      | some schema =>
          rw [Json.itemSchema, hitems, Option.getD_some] at compiled
          exact heach schema hitems value hvalue item compiled

end Scope

/-- A node of the standard library allows the values that satisfy it. -/
theorem Satisfies.allows {engine : Pattern.Engine} {scope : Scope} {node value : Json}
    (h : Satisfies engine node value) (hlibrary : scope.library = .standard engine) :
    scope.Allows node value := by
  induction h with
  | unjudged classified unjudged => exact Scope.allows_unjudged classified unjudged
  | allOf classified _ ih => exact Scope.allows_merged classified ih
  | enumeration classified listed allowed equal =>
      exact Scope.allows_listed classified listed allowed equal
  | leaf ofType read permits => exact Scope.allows_permitted hlibrary ofType read permits
  | object ofType _ ih => exact Scope.allows_object ofType ih
  | tuple ofType present _ ih => exact Scope.allows_tuple ofType present ih
  | list ofType plain read built inside _ ih =>
      exact Scope.allows_list hlibrary ofType plain read built inside ih

end Specimen
