import Specimen.Proofs.Compiling
import Specimen.Proofs.Generating

/-!
# Conformance

What it means for a value to conform to a schema node, said by rules on the node alone, and that
every value a compiled node produces conforms to it. References are followed into the catalog, so a
rule may lead to another schema and to the leaves of the catalog's own library.
-/

namespace Specimen

/-- Whether the types declared beside an enumeration, if any are, allow a value. -/
def AllowsType (node value : Json) : Prop :=
  ∀ declared, node.present? .type = some declared → ∃ type : TypeName,
    (declared = .str type.text ∨ ∃ entries, declared = .arr entries ∧ .str type.text ∈ entries) ∧
      value.hasType type = true

mutual

/-- A value conforms to a node: the first keyword present decides by which rule. -/
inductive Conforms (catalog : Catalog) : Scope → Json → Json → Prop where
  /-- The value conforms to what stands beside the reference laid over its target, in the target's
  schema. -/
  | reference {scope : Scope} {node found value : Json} {pointer : String} {target : Reference}
      (decides : Decides node .ref (.str pointer))
      (parsed : Reference.parse pointer = .ok target)
      (resolved : catalog.resolve (target.schemaOr scope.schema) target = .ok found)
      (conforms : Conforms catalog ⟨target.schemaOr scope.schema, catalog.library⟩
        (found.merge (node.without Keyword.ref.text)) value) :
      Conforms catalog scope node value
  /-- The value conforms to the node with one of the branches in the place of the combinator. -/
  | branch {scope : Scope} {node branch value : Json} {keyword : Keyword} {branches : List Json}
      (combinator : keyword = .anyOf ∨ keyword = .oneOf)
      (decides : Decides node keyword (.arr branches)) (listed : branch ∈ branches)
      (conforms : Conforms catalog scope ((node.without keyword.text).merge branch) value) :
      Conforms catalog scope node value
  /-- The value conforms to the node with all branches laid over it from left to right. -/
  | allOf {scope : Scope} {node value : Json} {branches : List Json}
      (decides : Decides node .allOf (.arr branches))
      (conforms : Conforms catalog scope
        (branches.foldl Json.merge (node.without Keyword.allOf.text)) value) :
      Conforms catalog scope node value
  | enumeration {scope : Scope} {node value : Json} {values : List Json}
      (decides : Decides node .enum (.arr values)) (listed : value ∈ values)
      (allowed : AllowsType node value) : Conforms catalog scope node value
  /-- The value conforms to the node with one of several type names alone. -/
  | union {scope : Scope} {node value : Json} {types : List TypeName} {type : TypeName}
      (several : 2 ≤ types.length)
      (decides : Decides node .type (.arr (types.map fun type => .str type.text)))
      (listed : type ∈ types)
      (conforms : Conforms catalog scope (node.put Keyword.type.text (.str type.text)) value) :
      Conforms catalog scope node value
  | typed {scope : Scope} {node value : Json} {type : TypeName} (typed : TypedAs node type)
      (conforms : ConformsAs catalog scope node type value) : Conforms catalog scope node value
  /-- Without any of the deciding keywords only the empty object conforms. -/
  | empty {scope : Scope} {node : Json}
      (absent : ∀ keyword ∈ Keyword.precedence, node.present? keyword = none) :
      Conforms catalog scope node (.obj [])

/-- A value conforms to a node as one of a type. -/
inductive ConformsAs (catalog : Catalog) : Scope → Json → TypeName → Json → Prop where
  /-- The value is one that the leaf of the library gives for some source. -/
  | leaf {scope : Scope} {node value : Json} {type : TypeName} {constraints : Constraints}
      {leaf : Leaf} (read : Constraints.ofNode node = .ok constraints)
      (builds : BuildsLeaf scope.library constraints type leaf) (gives : leaf.Gives value) :
      ConformsAs catalog scope node type value
  | bare {scope : Scope} {node : Json} (absent : node.present? .properties = none) :
      ConformsAs catalog scope node .object (.obj [])
  /-- The keys are those of the properties in their order, and every member conforms to its
  property. -/
  | object {scope : Scope} {node : Json} {properties members : List (String × Json)}
      (present : node.present? .properties = some (.obj properties))
      (keys : Assoc.keys members = Assoc.keys properties)
      (each : ∀ property member, (property, member) ∈ properties.zip members →
        Conforms catalog scope property.2 member.2) :
      ConformsAs catalog scope node .object (.obj members)
  /-- There is an element for every place, and it conforms to the schema of its place. -/
  | tuple {scope : Scope} {node : Json} {places values : List Json}
      (present : node.present? .items = some (.arr places))
      (length : values.length = places.length)
      (each : ∀ place value, (place, value) ∈ places.zip values →
        Conforms catalog scope place value) :
      ConformsAs catalog scope node .array (.arr values)
  /-- The length is one the library allows, and every element conforms to the item schema. -/
  | list {scope : Scope} {node : Json} {constraints : Constraints} {lengths : Lengths}
      {values : List Json} (plain : ∀ places, node.itemSchema ≠ .arr places)
      (read : Constraints.ofNode node = .ok constraints)
      (built : scope.library.array constraints = .ok lengths)
      (length : lengths.min ≤ values.length ∧ values.length ≤ lengths.max)
      (each : ∀ value ∈ values, Conforms catalog scope node.itemSchema value) :
      ConformsAs catalog scope node .array (.arr values)

end

theorem declaredTypes_eq_some {node : Json} {types : List TypeName}
    (h : Scope.declaredTypes node = .ok (some types)) :
    (∃ type, node.present? .type = some (.str type.text) ∧ types = [type]) ∨
      ∃ entries, node.present? .type = some (.arr entries) ∧
        ∀ type, type ∈ types ↔ Json.str type.text ∈ entries := by
  unfold Scope.declaredTypes at h
  split at h
  · cases h
  · cases h
  · rename_i name hget
    obtain ⟨type, hread, hpure⟩ := Outcome.bind_eq_ok.mp h
    rw [TypeName.read_eq_ok_iff] at hread
    rw [Outcome.pure_eq_ok, Option.some.injEq] at hpure
    subst hread
    exact .inl ⟨type, by simp [Json.present?, hget], hpure.symm⟩
  · rename_i entries hget
    obtain ⟨read, hread, hpure⟩ := Outcome.bind_eq_ok.mp h
    rw [Outcome.pure_eq_ok, Option.some.injEq] at hpure
    subst hpure
    have heach := Outcome.mapM_eq_ok.mp hread
    refine .inr ⟨entries, by simp [Json.present?, hget], fun type => ⟨fun htype => ?_, fun hname => ?_⟩⟩
    · obtain ⟨name, hname, heq⟩ := exists_mem_of_forall₂ heach htype
      obtain ⟨entry, hentry, hstr⟩ := List.mem_filterMap.mp hname
      rw [TypeName.read_eq_ok_iff] at heq
      subst heq
      cases entry with
      | str text =>
          cases hstr
          exact hentry
      | _ => cases hstr
    · have htext : type.text ∈ entries.filterMap Json.str? := List.mem_filterMap.mpr ⟨_, hname, rfl⟩
      obtain ⟨found, hfound, heq⟩ := exists_mem_of_forall₂ heach.flip htext
      rw [TypeName.read_eq_ok_iff.mpr rfl, Except.ok.injEq] at heq
      exact heq ▸ hfound
  · cases h

theorem declaredTypes_eq_none {node : Json} (h : Scope.declaredTypes node = .ok none) :
    node.present? .type = none := by
  unfold Scope.declaredTypes at h
  split at h
  · rename_i hget
    simp [Json.present?, hget]
  · rename_i hget
    simp [Json.present?, hget]
  · obtain ⟨_, _, h⟩ := Outcome.bind_eq_ok.mp h
    cases h
  · obtain ⟨_, _, h⟩ := Outcome.bind_eq_ok.mp h
    cases h
  · cases h

/-- The values kept for an enumeration are those listed that its declared types allow. -/
theorem mem_kept_iff {node value : Json} {types : Option (List TypeName)} {values : List Json}
    (hdeclared : Scope.declaredTypes node = .ok types) :
    value ∈ Scope.kept types values ↔ value ∈ values ∧ AllowsType node value := by
  cases types with
  | none =>
      have hallowed : AllowsType node value := by
        intro declared hpresent
        rw [declaredTypes_eq_none hdeclared] at hpresent
        cases hpresent
      exact (and_iff_left hallowed).symm
  | some types =>
      rw [Scope.kept, List.mem_filter, List.any_eq_true]
      refine and_congr_right fun _ => ⟨?_, fun hallowed => ?_⟩
      · rintro ⟨type, htype, hhas⟩ declared hpresent
        refine ⟨type, ?_, hhas⟩
        rcases declaredTypes_eq_some hdeclared with ⟨only, hname, rfl⟩ | ⟨entries, hentries, hmem⟩
        · obtain rfl := List.mem_singleton.mp htype
          rw [hname, Option.some.injEq] at hpresent
          exact .inl hpresent.symm
        · rw [hentries, Option.some.injEq] at hpresent
          exact .inr ⟨entries, hpresent.symm, (hmem type).mp htype⟩
      · rcases declaredTypes_eq_some hdeclared with ⟨only, hname, rfl⟩ | ⟨entries, hentries, hmem⟩
        · obtain ⟨type, hdeclares | ⟨_, hdeclares, -⟩, hhas⟩ := hallowed _ hname
          · have hsame : TypeName.read only.text = .ok type :=
              TypeName.read_eq_ok_iff.mpr (Json.str.inj hdeclares)
            rw [TypeName.read_eq_ok_iff.mpr rfl, Except.ok.injEq] at hsame
            exact ⟨only, List.mem_cons_self, hsame ▸ hhas⟩
          · cases hdeclares
        · obtain ⟨type, hdeclares | ⟨_, hdeclares, htype⟩, hhas⟩ := hallowed _ hentries
          · cases hdeclares
          · cases hdeclares
            exact ⟨type, (hmem type).mpr htype, hhas⟩

/-- Whatever a compiled node gives in runs of at most these depths conforms to the node. -/
def ConformsWithin (catalog : Catalog) (generateDepth resolveDepth : Nat) : Prop :=
  ∀ {scope : Scope} {node : Json} {generator : Generator} {draft : Draft} {value : Json},
    scope.compile node = .ok generator → generator.Drafts catalog generateDepth draft →
      draft.Resolves catalog resolveDepth value → Conforms catalog scope node value

section Within

variable {catalog : Catalog} {scope : Scope} {node : Json} {generator : Generator} {draft : Draft}
  {value : Json} {generateDepth resolveDepth : Nat}

theorem conformsAs_object {fields : List (String × Generator)}
    {properties : List (String × Json)} (hwithin : ConformsWithin catalog resolveDepth resolveDepth)
    (hpresent : node.present? .properties = some (.obj properties))
    (heach : List.Forall₂ scope.FieldOf properties fields)
    (hresolves : (Draft.fields fields).Resolves catalog (resolveDepth + 1) value) :
    ConformsAs catalog scope node .object value := by
  obtain ⟨members, rfl, hmembers⟩ := Draft.resolves_fields hresolves
  have hconforms : List.Forall₂ (fun property member => property.1 = member.1 ∧
      Conforms catalog scope property.2 member.2) properties members := by
    apply forall₂_chain ?_ heach hmembers
    rintro property field member ⟨hname, hcompile⟩ ⟨hkey, draft, hdrafts, hresolves⟩
    exact ⟨hname.trans hkey, hwithin hcompile hdrafts hresolves⟩
  apply ConformsAs.object hpresent (keys_eq_of_forall₂ hconforms).symm
  intro property member hmem
  exact (List.forall₂_zip hconforms hmem).2

theorem conformsAs_tuple {places : List Json} {items : List Generator}
    (hwithin : ConformsWithin catalog generateDepth resolveDepth)
    (hpresent : node.present? .items = some (.arr places))
    (heach : List.Forall₂ (fun place item => scope.compile place = .ok item) places items)
    (hdrafts : (Generator.tuple items).Drafts catalog (generateDepth + 1) draft)
    (hresolves : draft.Resolves catalog (resolveDepth + 1) value) :
    ConformsAs catalog scope node .array value := by
  obtain ⟨drafts, rfl, hitems⟩ := Generator.drafts_tuple hdrafts
  obtain ⟨values, rfl, hvalues⟩ := Draft.resolves_items hresolves
  have hproduced : List.Forall₂ (fun item value => ∃ draft,
      item.Drafts catalog generateDepth draft ∧ draft.Resolves catalog resolveDepth value)
      items values := by
    apply forall₂_chain ?_ hitems hvalues
    intro item draft value hdrafts hresolves
    exact ⟨draft, hdrafts, hresolves⟩
  have hconforms : List.Forall₂ (Conforms catalog scope) places values := by
    apply forall₂_chain ?_ heach hproduced
    rintro place item value hcompile ⟨draft, hdrafts, hresolves⟩
    exact hwithin hcompile hdrafts hresolves
  apply ConformsAs.tuple hpresent hconforms.length_eq.symm
  intro place value hmem
  exact List.forall₂_zip hconforms hmem

theorem conformsAs_list {constraints : Constraints} {item : Generator} {lengths : Lengths}
    (hwithin : ConformsWithin catalog generateDepth resolveDepth)
    (hplain : ∀ places, node.itemSchema ≠ .arr places)
    (hread : Constraints.ofNode node = .ok constraints)
    (hcompile : scope.compile node.itemSchema = .ok item)
    (hbuilt : scope.library.array constraints = .ok lengths)
    (hdrafts : (Generator.list item lengths).Drafts catalog (generateDepth + 1) draft)
    (hresolves : draft.Resolves catalog (resolveDepth + 1) value) :
    ConformsAs catalog scope node .array value := by
  obtain ⟨drafts, rfl, hlength, hitem⟩ := Generator.drafts_list hdrafts
  obtain ⟨values, rfl, hvalues⟩ := Draft.resolves_items hresolves
  rw [hvalues.length_eq] at hlength
  have hbounds : lengths.min ≤ values.length ∧ values.length ≤ lengths.max := by
    simpa [Lengths.contains] using hlength
  apply ConformsAs.list hplain hread hbuilt hbounds
  intro value hvalue
  obtain ⟨draft, hdraft, hresolves⟩ := exists_mem_of_forall₂ hvalues hvalue
  exact hwithin hcompile (hitem draft hdraft) hresolves

/-- One step of the induction for a node of one type: the parts conform by runs of less depth. -/
theorem conformsAs_of_compilesAs {type : TypeName}
    (hnested : ConformsWithin catalog resolveDepth resolveDepth)
    (hitems : ConformsWithin catalog generateDepth resolveDepth)
    (hcompile : Scope.CompilesAs scope node type generator)
    (hdrafts : generator.Drafts catalog (generateDepth + 1) draft)
    (hresolves : draft.Resolves catalog (resolveDepth + 1) value) :
    ConformsAs catalog scope node type value := by
  cases hcompile with
  | leaf hread hbuilds =>
      obtain ⟨given, hgives, rfl⟩ := Generator.drafts_leaf hdrafts
      rw [Draft.resolves_value hresolves]
      exact .leaf hread hbuilds hgives
  | bare habsent =>
      obtain rfl := Generator.drafts_object hdrafts
      obtain ⟨members, rfl, hmembers⟩ := Draft.resolves_fields hresolves
      rw [List.forall₂_nil_left_iff.mp hmembers]
      exact .bare habsent
  | object hpresent heach =>
      obtain rfl := Generator.drafts_object hdrafts
      exact conformsAs_object hnested hpresent heach hresolves
  | tuple hpresent heach => exact conformsAs_tuple hitems hpresent heach hdrafts hresolves
  | list hplain hread hcompile hbuilt =>
      exact conformsAs_list hitems hplain hread hcompile hbuilt hdrafts hresolves

/-- One step of the induction. A reference, a combinator and a union hand their draft on unresolved,
so they only lower the depth of generating; members are generated while the draft is resolved. -/
theorem conforms_of_compiles (hnested : ConformsWithin catalog resolveDepth resolveDepth)
    (hitems : ConformsWithin catalog generateDepth resolveDepth)
    (hhanded : ConformsWithin catalog generateDepth (resolveDepth + 1))
    (hcompile : scope.Compiles node generator)
    (hdrafts : generator.Drafts catalog (generateDepth + 1) draft)
    (hresolves : draft.Resolves catalog (resolveDepth + 1) value) :
    Conforms catalog scope node value := by
  cases hcompile with
  | reference hdecides hparsed =>
      obtain ⟨generator, hderef, hdrafts⟩ := Generator.drafts_reference hdrafts
      unfold Generator.dereference at hderef
      split at hderef
      · rename_i found hfound
        exact .reference hdecides hparsed hfound (hhanded hderef hdrafts hresolves)
      · cases hderef
  | choice hcombinator hdecides heach =>
      obtain ⟨candidate, hcandidate, hdrafts⟩ := Generator.drafts_choice hdrafts
      obtain ⟨branch, hbranch, hcompile⟩ := exists_mem_of_forall₂ heach hcandidate
      exact .branch hcombinator hdecides hbranch (hhanded hcompile hdrafts hresolves)
  | allOf hdecides hcompile =>
      exact .allOf hdecides (hhanded hcompile (Generator.drafts_allOf hdrafts) hresolves)
  | enumeration hdecides hdeclared =>
      obtain ⟨found, hfound, rfl⟩ := Generator.drafts_enumeration hdrafts
      obtain ⟨hlisted, hallowed⟩ := (mem_kept_iff hdeclared).mp hfound
      rw [Draft.resolves_value hresolves]
      exact .enumeration hdecides hlisted hallowed
  | union hseveral hdecides heach =>
      obtain ⟨candidate, hcandidate, hdrafts⟩ := Generator.drafts_choice hdrafts
      obtain ⟨type, htype, hcompile⟩ := exists_mem_of_forall₂ heach hcandidate
      exact .union hseveral hdecides htype (hhanded hcompile hdrafts hresolves)
  | typed htyped hcompile =>
      exact .typed htyped (conformsAs_of_compilesAs hnested hitems hcompile hdrafts hresolves)
  | empty habsent =>
      obtain rfl := Generator.drafts_empty hdrafts
      rw [Draft.resolves_value hresolves]
      exact .empty habsent

end Within

/-- The depths go down together with the run: first that of resolving, and for one depth of
resolving that of generating. -/
theorem conformsWithin (catalog : Catalog) (generateDepth resolveDepth : Nat) :
    ConformsWithin catalog generateDepth resolveDepth := by
  induction resolveDepth generalizing generateDepth with
  | zero =>
      intro scope node generator draft value _ _ hresolves
      exact absurd hresolves Draft.not_resolves_zero
  | succ resolveDepth hless =>
      induction generateDepth with
      | zero =>
          intro scope node generator draft value _ hdrafts _
          exact absurd hdrafts Generator.not_drafts_zero
      | succ generateDepth hhanded =>
          intro scope node generator draft value hcompile hdrafts hresolves
          exact conforms_of_compiles (hless resolveDepth) (hless generateDepth) hhanded
            (Scope.compile_eq_ok hcompile) hdrafts hresolves

/-- Every value that comes of a compiled node conforms to the node, whatever the source is when its
draft is generated and whatever it is when the draft is resolved. -/
theorem conforms_of_resolve_generate {catalog : Catalog} {scope : Scope} {node : Json}
    {generator : Generator} {generateDepth resolveDepth : Nat} {draft : Draft} {value : Json}
    {first second third fourth : Source} (hcompile : scope.compile node = .ok generator)
    (hgenerate : generator.generate catalog generateDepth first = (.ok draft, second))
    (hresolve : draft.resolve catalog resolveDepth third = (.ok value, fourth)) :
    Conforms catalog scope node value :=
  conformsWithin catalog generateDepth resolveDepth hcompile ⟨first, second, hgenerate⟩
    ⟨third, fourth, hresolve⟩

theorem conforms_of_resolve_generate_document :
    Sample.scope.compile Sample.document = .ok (.object Sample.fields) ∧
      (Generator.object Sample.fields).generate Sample.catalog 1 (.mixed [] 0) =
        (.ok (.fields Sample.fields), .mixed [] 0) ∧
      (Draft.fields Sample.fields).resolve Sample.catalog 4 (.mixed [0] 0) =
        (.ok Sample.value, .mixed [] 0) ∧
      Conforms Sample.catalog Sample.scope Sample.document Sample.value :=
  ⟨Sample.compile_document, Generator.generate_object _ _ _ _, Sample.resolve_fields,
    conforms_of_resolve_generate Sample.compile_document
      (Generator.generate_object Sample.catalog 0 _ (.mixed [] 0)) Sample.resolve_fields⟩

end Specimen
