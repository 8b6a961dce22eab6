import Specimen.Proofs.Agreement

/-!
# Nodes that correspond

Two nodes correspond when compiling treats them in the same way and goes on with parts that are
related. If related parts compile both or fail both, so do the nodes, and what they compile to is
built alike. References are left out, since they compile without their targets.
-/

namespace Specimen

/-- The nodes of which one is picked for each value, with the keyword they stem from. -/
def Kind.candidates? (node : Json) : Kind → Option (Keyword × List Json)
  | .anyOf branches => some (.anyOf, branches.map (Scope.withBranch node .anyOf))
  | .oneOf branches => some (.oneOf, branches.map (Scope.withBranch node .oneOf))
  | .union types => some (.type, types.map (Scope.withType node))
  | _ => none

/-- The type by which a node is compiled. -/
def Kind.type? : Kind → Option TypeName
  | .single type => some type
  | .format _ => some .string
  | .properties => some .object
  | .items => some .array
  | _ => none

/-- A node that is compiled on the way of compiling another. -/
inductive Json.Part (node : Json) : Json → Prop where
  | candidate {kind : Kind} {keyword : Keyword} {nodes : List Json} {candidate : Json}
      (classified : classify node = .ok kind)
      (candidates : kind.candidates? node = some (keyword, nodes)) (member : candidate ∈ nodes) :
      Part node candidate
  | merged {branches : List Json} (classified : classify node = .ok (.allOf branches)) :
      Part node (Scope.withAllBranches node branches)
  | property {kind : Kind} {properties : List (String × Json)} {property : String × Json}
      (classified : classify node = .ok kind) (object : kind.type? = some .object)
      (present : node.present? .properties = some (.obj properties))
      (member : property ∈ properties) : Part node property.2
  | place {kind : Kind} {places : List Json} {place : Json} (classified : classify node = .ok kind)
      (array : kind.type? = some .array) (present : node.present? .items = some (.arr places))
      (member : place ∈ places) : Part node place
  | element {kind : Kind} (classified : classify node = .ok kind)
      (array : kind.type? = some .array) (plain : ∀ places, node.itemSchema ≠ .arr places) :
      Part node node.itemSchema

/-! ### Ways in which nodes correspond -/

section Corresponds

variable (E : Error → Error → Prop) (P : Json → Json → Prop)

/-- Readings of a schema that give the same or fail both. -/
def Agrees {α : Type} (x y : Except SchemaError α) : Prop :=
  Outcome.Related (fun e f => E (.schema e) (.schema f)) Eq x y

/-- The parts of two nodes of one type correspond. -/
inductive PartsCorrespond (node other : Json) : TypeName → Prop where
  | plain {type : TypeName} (notObject : type ≠ .object) (notArray : type ≠ .array)
      (read : Agrees E (Constraints.ofNode node) (Constraints.ofNode other)) :
      PartsCorrespond node other type
  | bare (left : node.present? .properties = none) (right : other.present? .properties = none) :
      PartsCorrespond node other .object
  | fields {properties others : List (String × Json)}
      (left : node.present? .properties = some (.obj properties))
      (right : other.present? .properties = some (.obj others))
      (each : List.Forall₂ (fun property other => property.1 = other.1 ∧ P property.2 other.2)
        properties others) : PartsCorrespond node other .object
  | noFields {value value' : Json} (left : node.present? .properties = some value)
      (right : other.present? .properties = some value')
      (notObject : ∀ properties, value ≠ .obj properties)
      (notObject' : ∀ properties, value' ≠ .obj properties) : PartsCorrespond node other .object
  | places {places others : List Json} (left : node.present? .items = some (.arr places))
      (right : other.present? .items = some (.arr others)) (each : List.Forall₂ P places others) :
      PartsCorrespond node other .array
  | elements (left : ∀ places, node.itemSchema ≠ .arr places)
      (right : ∀ places, other.itemSchema ≠ .arr places)
      (read : Agrees E (Constraints.ofNode node) (Constraints.ofNode other))
      (element : P node.itemSchema other.itemSchema) : PartsCorrespond node other .array

/-- Two nodes correspond up to what their parts and their errors have to do with each other. -/
inductive Corresponds (node other : Json) : Prop where
  | broken {e f : SchemaError} (left : classify node = .error e)
      (right : classify other = .error f) (errors : E (.schema e) (.schema f))
  | choice {kind kind' : Kind} {keyword keyword' : Keyword} {nodes others : List Json}
      (left : classify node = .ok kind) (right : classify other = .ok kind')
      (candidates : kind.candidates? node = some (keyword, nodes))
      (candidates' : kind'.candidates? other = some (keyword', others))
      (each : List.Forall₂ P nodes others)
  | allOf {branches others : List Json} (left : classify node = .ok (.allOf branches))
      (right : classify other = .ok (.allOf others))
      (merged : P (Scope.withAllBranches node branches) (Scope.withAllBranches other others))
  | enumeration {values : List Json} (left : classify node = .ok (.enumeration values))
      (right : classify other = .ok (.enumeration values))
      (types : Agrees E (Scope.declaredTypes node) (Scope.declaredTypes other))
  | typed {kind kind' : Kind} {type : TypeName} (left : classify node = .ok kind)
      (right : classify other = .ok kind') (ofType : kind.type? = some type)
      (ofType' : kind'.type? = some type) (parts : PartsCorrespond E P node other type)
  | empty (left : classify node = .ok .empty) (right : classify other = .ok .empty)

end Corresponds

theorem agrees_self {E : Error → Error → Prop} (hrefl : ∀ e, E e e) {α : Type}
    (x : Except SchemaError α) : Agrees E x x := by
  cases x with
  | ok a => exact .ok rfl
  | error e => exact .error (hrefl _)

/-! ### Values of `properties` and of `items` -/

/-- Two values of `properties` hold related schemas under the same names, or neither is an object. -/
inductive PropertiesAlike (P : Json → Json → Prop) : Json → Json → Prop where
  | each {properties others : List (String × Json)}
      (each : List.Forall₂ (fun property other => property.1 = other.1 ∧ P property.2 other.2)
        properties others) : PropertiesAlike P (.obj properties) (.obj others)
  | noFields {value other : Json} (notObject : ∀ properties, value ≠ .obj properties)
      (notObject' : ∀ properties, other ≠ .obj properties) : PropertiesAlike P value other

/-- Two values of `items` hold related schemas place by place, or are related schemas themselves. -/
inductive ItemsAlike (P : Json → Json → Prop) : Json → Json → Prop where
  | places {places others : List Json} (each : List.Forall₂ P places others) :
      ItemsAlike P (.arr places) (.arr others)
  | element {schema other : Json} (plain : ∀ places, schema ≠ .arr places)
      (plain' : ∀ places, other ≠ .arr places) (related : P schema other) :
      ItemsAlike P schema other

section Alike

variable {E : Error → Error → Prop} {P Q : Json → Json → Prop} {node other : Json}

theorem propertiesAlike_self (hpart : ∀ part, P part part) (value : Json) :
    PropertiesAlike P value value := by
  cases value with
  | obj properties => exact .each (List.forall₂_same.mpr fun property _ => ⟨rfl, hpart property.2⟩)
  | null | bool | int | float | str | arr => exact .noFields (by simp) (by simp)

theorem itemsAlike_self (hpart : ∀ part, P part part) (value : Json) : ItemsAlike P value value := by
  cases value with
  | arr places => exact .places (List.forall₂_same.mpr fun place _ => hpart place)
  | null | bool | int | float | str | obj => exact .element (by simp) (by simp) (hpart _)

theorem PropertiesAlike.imp (h : PropertiesAlike P node other) (himp : ∀ x y, P x y → Q x y) :
    PropertiesAlike Q node other := by
  cases h with
  | each each => exact .each (each.imp fun _ _ hxy => ⟨hxy.1, himp _ _ hxy.2⟩)
  | noFields notObject notObject' => exact .noFields notObject notObject'

theorem ItemsAlike.imp (h : ItemsAlike P node other) (himp : ∀ x y, P x y → Q x y) :
    ItemsAlike Q node other := by
  cases h with
  | places each => exact .places (each.imp himp)
  | element plain plain' related => exact .element plain plain' (himp _ _ related)

theorem fieldsCorrespond_of_alike (h : Option.Rel (PropertiesAlike P) (node.present? .properties)
    (other.present? .properties)) : PartsCorrespond E P node other .object := by
  rcases rel_cases h with ⟨habsent, habsent'⟩ | ⟨value, value', hvalue, hvalue', halike⟩
  · exact .bare habsent habsent'
  · cases halike with
    | each each => exact .fields hvalue hvalue' each
    | noFields notObject notObject' => exact .noFields hvalue hvalue' notObject notObject'

theorem placesCorrespond_of_alike
    (h : Option.Rel (ItemsAlike P) (node.present? .items) (other.present? .items))
    (hread : Agrees E (Constraints.ofNode node) (Constraints.ofNode other))
    (hempty : P (.obj []) (.obj [])) : PartsCorrespond E P node other .array := by
  rcases rel_cases h with ⟨habsent, habsent'⟩ | ⟨value, value', hvalue, hvalue', halike⟩
  · have hschema : node.itemSchema = .obj [] := by rw [Json.itemSchema, habsent]; rfl
    have hschema' : other.itemSchema = .obj [] := by rw [Json.itemSchema, habsent']; rfl
    refine .elements (by simp [hschema]) (by simp [hschema']) hread ?_
    rw [hschema, hschema']
    exact hempty
  · have hschema : node.itemSchema = value := by rw [Json.itemSchema, hvalue]; rfl
    have hschema' : other.itemSchema = value' := by rw [Json.itemSchema, hvalue']; rfl
    cases halike with
    | places each => exact .places hvalue hvalue' each
    | element plain plain' related =>
        refine .elements (hschema ▸ plain) (hschema' ▸ plain') hread ?_
        rw [hschema, hschema']
        exact related

/-- The parts of two nodes correspond if their properties and their items do, whatever their type. -/
theorem partsCorrespond_of_alike
    (hproperties : Option.Rel (PropertiesAlike P) (node.present? .properties)
      (other.present? .properties))
    (hitems : Option.Rel (ItemsAlike P) (node.present? .items) (other.present? .items))
    (hread : Agrees E (Constraints.ofNode node) (Constraints.ofNode other))
    (hempty : P (.obj []) (.obj [])) (type : TypeName) : PartsCorrespond E P node other type := by
  by_cases hobject : type = .object
  · rw [hobject]
    exact fieldsCorrespond_of_alike hproperties
  · by_cases harray : type = .array
    · rw [harray]
      exact placesCorrespond_of_alike hitems hread hempty
    · exact .plain hobject harray hread

end Alike

/-- A node corresponds to itself unless it is a reference. -/
theorem corresponds_self {E : Error → Error → Prop} {P : Json → Json → Prop} (hrefl : ∀ e, E e e)
    (hpart : ∀ part, P part part) (node : Json) :
    Corresponds E P node node ∨ ∃ pointer, classify node = .ok (.reference pointer) := by
  have htyped (type : TypeName) : PartsCorrespond E P node node type :=
    partsCorrespond_of_alike (rel_self (propertiesAlike_self hpart) _)
      (rel_self (itemsAlike_self hpart) _) (agrees_self hrefl _) (hpart _) type
  have hchoice {kind : Kind} {keyword : Keyword} {nodes : List Json}
      (hkind : classify node = .ok kind)
      (hcandidates : kind.candidates? node = some (keyword, nodes)) : Corresponds E P node node :=
    .choice hkind hkind hcandidates hcandidates (List.forall₂_same.mpr fun part _ => hpart part)
  cases hkind : classify node with
  | error e => exact .inl (.broken hkind hkind (hrefl _))
  | ok kind =>
      cases kind with
      | reference pointer => exact .inr ⟨pointer, rfl⟩
      | anyOf | oneOf | union => exact .inl (hchoice hkind rfl)
      | allOf => exact .inl (.allOf hkind hkind (hpart _))
      | enumeration => exact .inl (.enumeration hkind hkind (agrees_self hrefl _))
      | single | format | properties | items => exact .inl (.typed hkind hkind rfl rfl (htyped _))
      | empty => exact .inl (.empty hkind hkind)

/-! ### Sizes of the parts -/

theorem Scope.size_withAllBranches_lt {node : Json} {branches : List Json}
    (h : node.get? Keyword.allOf.text = some (.arr branches)) :
    (withAllBranches node branches).size < node.size := by
  have hle := size_withAllBranches_le node branches
  have hsize := Json.size_without_arr h
  omega

theorem Scope.size_withBranch_lt {node branch : Json} {keyword : Keyword} {branches : List Json}
    (h : node.get? keyword.text = some (.arr branches)) (hbranch : branch ∈ branches) :
    (withBranch node keyword branch).size < node.size := by
  have hle := size_withBranch_le node keyword branch
  have hitems := Json.size_le_sizeItems hbranch
  have hsize := Json.size_without_arr h
  omega

theorem Kind.size_lt_of_candidates? {node candidate : Json} {kind : Kind} {keyword : Keyword}
    {nodes : List Json} (hkind : classify node = .ok kind)
    (h : kind.candidates? node = some (keyword, nodes)) (hcandidate : candidate ∈ nodes) :
    candidate.size < node.size := by
  have hget := Kind.get?_of_classify hkind
  cases kind with
  | anyOf branches =>
      cases h
      obtain ⟨branch, hbranch, rfl⟩ := List.mem_map.mp hcandidate
      exact Scope.size_withBranch_lt hget hbranch
  | oneOf branches =>
      cases h
      obtain ⟨branch, hbranch, rfl⟩ := List.mem_map.mp hcandidate
      exact Scope.size_withBranch_lt hget hbranch
  | union types =>
      cases h
      obtain ⟨type, -, rfl⟩ := List.mem_map.mp hcandidate
      obtain ⟨entry, entries, hentries⟩ := hget
      exact Scope.size_withType_lt type hentries
  | reference | allOf | enumeration | single | format | properties | items | empty => cases h

/-- A node of some type has a member, so it is larger than the empty schema. -/
theorem Kind.size_itemSchema_lt {node : Json} {kind : Kind} {type : TypeName}
    (hkind : classify node = .ok kind) (htype : kind.type? = some type) :
    node.itemSchema.size < node.size := by
  rw [Json.itemSchema]
  cases hitems : node.present? .items with
  | some schema => exact Json.size_lt_of_get? (Json.get?_of_present? hitems)
  | none =>
      have hdecided : ∃ keyword value, Decides node keyword value := by
        have hdescribes := describes_of_classify hkind
        cases kind with
        | single type =>
            rcases hdescribes with hdecides | hdecides
            · exact ⟨_, _, hdecides⟩
            · exact ⟨_, _, hdecides⟩
        | format name => exact ⟨_, _, hdescribes⟩
        | properties => exact ⟨_, hdescribes⟩
        | items => exact ⟨_, hdescribes⟩
        | reference | anyOf | allOf | oneOf | enumeration | union | empty => cases htype
      obtain ⟨keyword, value, hdecides⟩ := hdecided
      have hlt := Json.size_lt_of_get? (Json.get?_of_present? hdecides.present)
      have hpos := value.size_pos
      change 1 < node.size
      omega

theorem Json.Part.size_lt {node part : Json} (h : node.Part part) : part.size < node.size := by
  cases h with
  | candidate classified candidates member =>
      exact Kind.size_lt_of_candidates? classified candidates member
  | merged classified => exact Scope.size_withAllBranches_lt (Kind.get?_of_classify classified)
  | property classified object present member =>
      exact Json.size_lt_of_get?_obj (Json.get?_of_present? present) member
  | place classified array present member =>
      exact Json.size_lt_of_get?_arr (Json.get?_of_present? present) member
  | element classified array plain => exact Kind.size_itemSchema_lt classified array

theorem Json.not_part {node part : Json} {kind : Kind} (hkind : classify node = .ok kind)
    (hcandidates : kind.candidates? node = none) (hallOf : ∀ branches, kind ≠ .allOf branches)
    (hobject : kind.type? ≠ some .object) (harray : kind.type? ≠ some .array) :
    ¬ node.Part part := by
  rintro (⟨classified, candidates, -⟩ | ⟨classified⟩ | ⟨classified, object, -, -⟩ |
    ⟨classified, array, -, -⟩ | ⟨classified, array, -⟩)
  · rw [hkind] at classified
    cases classified
    rw [hcandidates] at candidates
    cases candidates
  · rw [hkind] at classified
    cases classified
    exact hallOf _ rfl
  · rw [hkind] at classified
    cases classified
    exact hobject object
  · rw [hkind] at classified
    cases classified
    exact harray array
  · rw [hkind] at classified
    cases classified
    exact harray array

theorem Json.Part.exists_property {node part : Json} {kind : Kind} (h : node.Part part)
    (hkind : classify node = .ok kind) (hobject : kind.type? = some .object) : ∃ properties,
      node.present? .properties = some (.obj properties) ∧ ∃ property ∈ properties,
        part = property.2 := by
  cases h with
  | property classified object present member => exact ⟨_, present, _, member, rfl⟩
  | candidate classified candidates member =>
      cases Except.ok.inj (hkind.symm.trans classified)
      cases kind <;> cases hobject <;> cases candidates
  | merged classified =>
      cases Except.ok.inj (hkind.symm.trans classified)
      cases hobject
  | place classified array | element classified array =>
      cases Except.ok.inj (hkind.symm.trans classified)
      cases hobject.symm.trans array

/-- Nodes correspond up to more if their parts do. -/
theorem Corresponds.imp {E : Error → Error → Prop} {P Q : Json → Json → Prop} {node other : Json}
    (h : Corresponds E P node other)
    (himp : ∀ x y, node.Part x → other.Part y → P x y → Q x y) : Corresponds E Q node other := by
  cases h with
  | broken left right errors => exact .broken left right errors
  | choice left right candidates candidates' each =>
      exact .choice left right candidates candidates' (forall₂_imp_of_mem each fun x hx y hy =>
        himp x y (.candidate left candidates hx) (.candidate right candidates' hy))
  | allOf left right merged =>
      exact .allOf left right (himp _ _ (.merged left) (.merged right) merged)
  | enumeration left right types => exact .enumeration left right types
  | empty left right => exact .empty left right
  | typed left right ofType ofType' parts =>
      apply Corresponds.typed left right ofType ofType'
      cases parts with
      | plain notObject notArray read => exact .plain notObject notArray read
      | bare absent absent' => exact .bare absent absent'
      | noFields present present' notObject notObject' =>
          exact .noFields present present' notObject notObject'
      | fields present present' each =>
          exact .fields present present' (forall₂_imp_of_mem each fun x hx y hy hxy =>
            ⟨hxy.1, himp _ _ (.property left ofType present hx)
              (.property right ofType' present' hy) hxy.2⟩)
      | places present present' each =>
          exact .places present present' (forall₂_imp_of_mem each fun x hx y hy =>
            himp x y (.place left ofType present hx) (.place right ofType' present' hy))
      | elements plain plain' read element =>
          exact .elements plain plain' read
            (himp _ _ (.element left ofType plain) (.element right ofType' plain') element)

/-! ### What compiling does with the parts -/

namespace Scope

variable {scope : Scope} {node : Json}

theorem compileKind_of_candidates? {kind : Kind} {keyword : Keyword} {nodes : List Json}
    (h : kind.candidates? node = some (keyword, nodes)) :
    scope.compileKind node kind = scope.compileAll nodes >>= scope.choice keyword := by
  cases kind with
  | anyOf branches =>
      cases h
      rw [compileKind, compileChoice]
      split <;> simp_all [bind, Except.bind]
  | oneOf branches =>
      cases h
      rw [compileKind, compileChoice]
      split <;> simp_all [bind, Except.bind]
  | union types =>
      cases h
      rw [compileKind, compileUnion]
      split <;> simp_all [bind, Except.bind]
  | reference | allOf | enumeration | single | format | properties | items | empty => cases h

theorem compileKind_of_type? {kind : Kind} {type : TypeName} (h : kind.type? = some type) :
    scope.compileKind node kind = scope.compileType node type := by
  cases kind with
  | single | format | properties | items =>
      cases h
      rfl
  | reference | anyOf | allOf | oneOf | enumeration | union | empty => cases h

theorem compileAllOf_eq (branches : List Json) : scope.compileAllOf node branches =
    Generator.allOf <$> scope.compile (withAllBranches node branches) := by
  rw [compileAllOf]
  split <;> simp_all [Functor.map, Except.map]

theorem compile_allOf {branches : List Json} {merged : Generator}
    (hkind : classify node = .ok (.allOf branches))
    (h : scope.compile (withAllBranches node branches) = .ok merged) :
    scope.compile node = .ok (.allOf merged) := by
  rw [compile_of_classify hkind, compileKind, compileAllOf_eq]
  exact Outcome.map_eq_ok.mpr ⟨merged, h, rfl⟩

theorem compileObject_of_bare (h : node.present? .properties = none) :
    scope.compileObject node = .ok (.object []) := by
  rw [compileObject]
  split <;> simp_all [Json.present?]

theorem compileObject_eq (properties : List (String × Json))
    (h : node.present? .properties = some (.obj properties)) :
    scope.compileObject node = Generator.object <$> scope.compileFields properties := by
  have hget := Json.get?_of_present? h
  rw [compileObject]
  split <;> simp_all
  split <;> simp_all [Functor.map, Except.map]

theorem compileObject_of_noFields {value : Json} (h : node.present? .properties = some value)
    (hvalue : ∀ properties, value ≠ .obj properties) :
    scope.compileObject node = .error (.schema (.misused .properties .notProperties)) := by
  have hget := Json.get?_of_present? h
  have hnotNull : value ≠ .null := by
    rintro rfl
    simp [Json.present?, hget] at h
  rw [compileObject]
  split
  case h_1 hnone =>
      rw [hget] at hnone
      cases hnone
  case h_2 hnull =>
      rw [hget] at hnull
      exact absurd (Option.some.inj hnull) hnotNull
  case h_3 members hmembers =>
      rw [hget] at hmembers
      exact absurd (Option.some.inj hmembers) (hvalue members)
  case h_4 => rfl

theorem compileArray_eq (places : List Json) (h : node.present? .items = some (.arr places)) :
    scope.compileArray node = Generator.tuple <$> scope.compileAll places := by
  have hget := Json.get?_of_present? h
  rw [compileArray]
  split <;> simp_all
  split <;> simp_all [Functor.map, Except.map]

theorem compileArray_of_elements (h : ∀ places, node.itemSchema ≠ .arr places) :
    scope.compileArray node = (do
      let constraints ← ofSchema (Constraints.ofNode node)
      let item ← scope.compile node.itemSchema
      return .list item (← ofPrimitive (scope.library.array constraints))) := by
  have hempty : node.get? Keyword.items.text = none ∨ node.get? Keyword.items.text = some .null →
      node.itemSchema = .obj [] := by
    rintro (hget | hget)
    · simp [Json.itemSchema, Json.present?, hget]
    · simp [Json.itemSchema, Json.present?, hget]
  rw [compileArray]
  split
  case h_1 places hget => exact absurd (by simp [Json.itemSchema, Json.present?, hget]) (h places)
  case h_2 hget =>
      rw [hempty (.inl hget), compile_emptySchema]
      rfl
  case h_3 hget =>
      rw [hempty (.inr hget), compile_emptySchema]
      rfl
  case h_4 schema _ hnull hget =>
      have hschema : node.itemSchema = schema := by
        unfold Json.itemSchema Json.present?
        rw [hget]
        cases schema <;> simp_all
      rw [hschema]

end Scope

section Compiling

variable {E : Error → Error → Prop} {P : Json → Json → Prop} {library : Library}
  {schema schema' : String} {node other : Json}

/-- Generators that two related nodes compile to. -/
def CompiledFrom (library : Library) (schema schema' : String) (P : Json → Json → Prop)
    (g h : Generator) : Prop :=
  ∃ node other, P node other ∧ Scope.compile ⟨schema, library⟩ node = .ok g ∧
    Scope.compile ⟨schema', library⟩ other = .ok h

/-- Nodes that compile both or fail both. -/
abbrev CompileAlike (E : Error → Error → Prop) (library : Library) (schema schema' : String)
    (node other : Json) : Prop :=
  Outcome.Related E (fun _ _ => True) (Scope.compile ⟨schema, library⟩ node)
    (Scope.compile ⟨schema', library⟩ other)

theorem CompileAlike.compiledFrom (h : CompileAlike E library schema schema' node other)
    (hrelated : P node other) :
    Outcome.Related E (CompiledFrom library schema schema' P)
      (Scope.compile ⟨schema, library⟩ node) (Scope.compile ⟨schema', library⟩ other) := by
  rcases h.cases with ⟨g, h, hg, hh, -⟩ | ⟨e, f, he, hf, herrors⟩
  · rw [hg, hh]
    exact .ok ⟨node, other, hrelated, hg, hh⟩
  · rw [he, hf]
    exact .error herrors

theorem related_compileAll {R : Generator → Generator → Prop} {nodes others : List Json}
    (h : List.Forall₂ (fun node other => Outcome.Related E R
      (Scope.compile ⟨schema, library⟩ node) (Scope.compile ⟨schema', library⟩ other))
      nodes others) :
    Outcome.Related E (List.Forall₂ R) (Scope.compileAll ⟨schema, library⟩ nodes)
      (Scope.compileAll ⟨schema', library⟩ others) := by
  induction h with
  | nil =>
      rw [Scope.compileAll, Scope.compileAll]
      exact .ok .nil
  | cons hfirst _ ih =>
      rw [Scope.compileAll, Scope.compileAll]
      apply hfirst.bind
      intro g h hgh
      apply ih.bind
      intro gs hs hrest
      exact .ok (.cons hgh hrest)

theorem related_compileFields {R : Generator → Generator → Prop}
    {members others : List (String × Json)}
    (h : List.Forall₂ (fun member other => member.1 = other.1 ∧ Outcome.Related E R
      (Scope.compile ⟨schema, library⟩ member.2) (Scope.compile ⟨schema', library⟩ other.2))
      members others) :
    Outcome.Related E
      (List.Forall₂ fun field other => field.1 = other.1 ∧ R field.2 other.2)
      (Scope.compileFields ⟨schema, library⟩ members)
      (Scope.compileFields ⟨schema', library⟩ others) := by
  induction h with
  | nil =>
      rw [Scope.compileFields, Scope.compileFields]
      exact .ok .nil
  | cons hfirst _ ih =>
      rw [Scope.compileFields, Scope.compileFields]
      apply hfirst.2.bind
      intro g h hgh
      apply ih.bind
      intro gs hs hrest
      exact .ok (.cons ⟨hfirst.1, hgh⟩ hrest)

theorem related_choice (hrefl : ∀ e, E e e) {R : Generator → Generator → Prop}
    {keyword keyword' : Keyword} {candidates others : List Generator}
    (h : List.Forall₂ R candidates others) :
    Outcome.Related E (Generator.Alike library R)
      (Scope.choice ⟨schema, library⟩ keyword candidates)
      (Scope.choice ⟨schema', library⟩ keyword' others) := by
  rw [Scope.choice, Scope.choice, ← h.length_eq]
  dsimp only
  cases hpicker : library.index candidates.length with
  | error e => exact .error (hrefl _)
  | ok picker => exact .ok (.choice h hpicker)

theorem related_ofSchema {α : Type} {x y : Except SchemaError α} (h : Agrees E x y) :
    Outcome.Related E Eq (ofSchema x) (ofSchema y) := by
  cases h with
  | ok results => exact .ok results
  | error errors => exact .error errors

theorem related_leaf (hrefl : ∀ e, E e e) {R : Generator → Generator → Prop}
    (x : Except PrimitiveError Leaf) :
    Outcome.Related E (Generator.Alike library R) (Generator.leaf <$> ofPrimitive x)
      (Generator.leaf <$> ofPrimitive x) := by
  cases x with
  | error e => exact .error (hrefl _)
  | ok leaf => exact .ok (.leaf leaf)

theorem related_compileType_plain (hrefl : ∀ e, E e e) {R : Generator → Generator → Prop}
    {type : TypeName} (hobject : type ≠ .object) (harray : type ≠ .array)
    (hread : Agrees E (Constraints.ofNode node) (Constraints.ofNode other)) :
    Outcome.Related E (Generator.Alike library R)
      (Scope.compileType ⟨schema, library⟩ node type)
      (Scope.compileType ⟨schema', library⟩ other type) := by
  rw [Scope.compileType.eq_def, Scope.compileType.eq_def]
  cases type with
  | object => exact absurd rfl hobject
  | array => exact absurd rfl harray
  | string =>
      apply (related_ofSchema hread).bind
      rintro constraints _ rfl
      cases hpattern : constraints.pattern with
      | some pattern => exact related_leaf hrefl _
      | none =>
          cases hformat : constraints.format with
          | some format => exact related_leaf hrefl _
          | none => exact related_leaf hrefl _
  | boolean | integer | number | null =>
      apply (related_ofSchema hread).bind
      rintro constraints _ rfl
      exact related_leaf hrefl _

theorem related_enumeration (hrefl : ∀ e, E e e) {R : Generator → Generator → Prop}
    (values : List Json)
    (htypes : Agrees E (Scope.declaredTypes node) (Scope.declaredTypes other)) :
    Outcome.Related E (Generator.Alike library R)
      (Scope.enumeration ⟨schema, library⟩ node values)
      (Scope.enumeration ⟨schema', library⟩ other values) := by
  apply (related_ofSchema htypes).bind
  rintro types _ rfl
  by_cases hempty : (Scope.kept types values).isEmpty = true
  · rw [if_pos hempty]
    exact .error (hrefl _)
  · rw [if_neg hempty]
    cases hpicker : library.index (Scope.kept types values).length with
    | error e => simpa [hpicker] using .error (hrefl _)
    | ok picker => simpa [hpicker] using .ok (.enumeration hpicker)

/-- Related parts of a node compile alike. -/
def PartsCompile (E : Error → Error → Prop) (P : Json → Json → Prop) (library : Library)
    (schema schema' : String) (node : Json) : Prop :=
  ∀ part other, node.Part part → P part other → CompileAlike E library schema schema' part other

theorem PartsCompile.related (h : PartsCompile E P library schema schema' node) {part other : Json}
    (hpart : node.Part part) (hrelated : P part other) :
    Outcome.Related E (CompiledFrom library schema schema' P)
      (Scope.compile ⟨schema, library⟩ part) (Scope.compile ⟨schema', library⟩ other) :=
  (h part other hpart hrelated).compiledFrom hrelated

theorem related_parts (hrefl : ∀ e, E e e) (hparts : PartsCompile E P library schema schema' node)
    {kind : Kind} {type : TypeName} (hkind : classify node = .ok kind)
    (htype : kind.type? = some type) (h : PartsCorrespond E P node other type) :
    Outcome.Related E
      (Generator.Alike library (CompiledFrom library schema schema' P))
      (Scope.compileType ⟨schema, library⟩ node type)
      (Scope.compileType ⟨schema', library⟩ other type) := by
  cases h with
  | plain notObject notArray read => exact related_compileType_plain hrefl notObject notArray read
  | bare left right =>
      rw [Scope.compileType, Scope.compileType, Scope.compileObject_of_bare left,
        Scope.compileObject_of_bare right]
      exact .ok (.object .nil)
  | fields left right each =>
      rw [Scope.compileType, Scope.compileType, Scope.compileObject_eq _ left,
        Scope.compileObject_eq _ right]
      apply (related_compileFields (forall₂_imp_of_mem each fun property hproperty other _ hrelated =>
        ⟨hrelated.1, hparts.related (.property hkind htype left hproperty) hrelated.2⟩)).bind
      intro gs hs heach
      exact .ok (.object heach)
  | noFields left right notObject notObject' =>
      rw [Scope.compileType, Scope.compileType, Scope.compileObject_of_noFields left notObject,
        Scope.compileObject_of_noFields right notObject']
      exact .error (hrefl _)
  | places left right each =>
      rw [Scope.compileType, Scope.compileType, Scope.compileArray_eq _ left,
        Scope.compileArray_eq _ right]
      apply (related_compileAll (forall₂_imp_of_mem each fun place hplace other _ =>
        hparts.related (.place hkind htype left hplace))).bind
      intro gs hs heach
      exact .ok (.tuple heach)
  | elements left right read element =>
      rw [Scope.compileType, Scope.compileType, Scope.compileArray_of_elements left,
        Scope.compileArray_of_elements right]
      apply (related_ofSchema read).bind
      rintro constraints _ rfl
      apply (hparts.related (.element hkind htype left) element).bind
      intro item item' hitem
      dsimp only
      cases library.array constraints with
      | error e => exact .error (hrefl _)
      | ok lengths => exact .ok (.list hitem)

/-- What corresponding nodes compile to is built alike, and one compiles if and only if the other
does. -/
theorem related_of_corresponds (hrefl : ∀ e, E e e)
    (hparts : PartsCompile E P library schema schema' node) (h : Corresponds E P node other) :
    Outcome.Related E
      (Generator.Alike library (CompiledFrom library schema schema' P))
      (Scope.compile ⟨schema, library⟩ node) (Scope.compile ⟨schema', library⟩ other) := by
  cases h with
  | broken left right errors =>
      rw [Scope.compile_eq_compileKind, Scope.compile_eq_compileKind, left, right]
      exact .error errors
  | choice left right candidates candidates' each =>
      rw [Scope.compile_of_classify left, Scope.compile_of_classify right,
        Scope.compileKind_of_candidates? candidates, Scope.compileKind_of_candidates? candidates']
      apply (related_compileAll (forall₂_imp_of_mem each fun candidate hcandidate other _ =>
        hparts.related (.candidate left candidates hcandidate))).bind
      intro gs hs heach
      exact related_choice hrefl heach
  | allOf left right merged =>
      rw [Scope.compile_of_classify left, Scope.compile_of_classify right, Scope.compileKind,
        Scope.compileKind, Scope.compileAllOf_eq, Scope.compileAllOf_eq]
      apply (hparts.related (.merged left) merged).bind
      intro g h hmerged
      exact .ok (.allOf hmerged)
  | enumeration left right types =>
      rw [Scope.compile_of_classify left, Scope.compile_of_classify right]
      exact related_enumeration hrefl _ types
  | typed left right ofType ofType' parts =>
      rw [Scope.compile_of_classify left, Scope.compile_of_classify right,
        Scope.compileKind_of_type? ofType, Scope.compileKind_of_type? ofType']
      exact related_parts hrefl hparts left ofType parts
  | empty left right =>
      rw [Scope.compile_of_classify left, Scope.compile_of_classify right]
      exact .ok .empty

end Compiling

end Specimen
