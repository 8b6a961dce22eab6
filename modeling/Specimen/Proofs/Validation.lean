import Specimen.Json.WellFormed
import Specimen.Proofs.Generating

/-!
# Validation of generated values

A compiled node does not reject what it generates, as long as the leaves of the library do not. The
judgement goes down the generator as the generation does, except at references and choices, which
have no opinion; so one invariant of generators carries it, and compiling establishes the invariant.
-/

namespace Specimen

/-- No leaf that the library builds rejects a value it gives itself. -/
def Library.SelfAccepting (library : Library) : Prop :=
  ∀ constraints type leaf, BuildsLeaf library constraints type leaf →
    ∀ value, leaf.Gives value → leaf.validate value ≠ some false

namespace Generator

/-- A generator does not reject a value; it may have no opinion. -/
def Accepts (generator : Generator) (value : Json) : Prop :=
  generator.validate value ≠ some false

/-- What a generator needs so as not to reject its own values, at every place its judgement
reaches. -/
inductive Coherent : Generator → Prop where
  | reference {schema : String} {target : Reference} {overlay : Json} :
      Coherent (.reference schema target overlay)
  | choice {keyword : Keyword} {candidates : List Generator} {picker : Picker} :
      Coherent (.choice keyword candidates picker)
  | allOf {merged : Generator} (coherent : merged.Coherent) : Coherent (.allOf merged)
  | leaf {l : Leaf} (accepts : ∀ value, l.Gives value → l.validate value ≠ some false) :
      Coherent (.leaf l)
  | enumeration {values : List Json} {picker : Picker}
      (equal : ∀ value ∈ values, value.equal value = true) : Coherent (.enumeration values picker)
  | empty : Coherent .empty
  | object {fields : List (String × Generator)} (distinct : (Assoc.keys fields).Nodup)
      (each : ∀ field ∈ fields, field.2.Coherent) : Coherent (.object fields)
  | tuple {items : List Generator} (each : ∀ item ∈ items, item.Coherent) :
      Coherent (.tuple items)
  | list {item : Generator} {lengths : Lengths} (coherent : item.Coherent) :
      Coherent (.list item lengths)

theorem accepts_iff {generator : Generator} {value : Json} :
    generator.Accepts value ↔ (generator.validate value).getD true = true := by
  unfold Accepts
  cases generator.validate value with
  | none => simp
  | some judgement => simp

theorem accepts_empty (value : Json) : empty.Accepts value := by
  simp [Accepts, validate]

theorem validateFields_iff {fields : List (String × Generator)} {members : List (String × Json)} :
    validateFields fields members = true ↔
      ∀ field ∈ fields, field.2.Accepts ((Assoc.get? field.1 members).getD .null) := by
  induction fields with
  | nil => simp [validateFields]
  | cons field rest ih =>
      rw [validateFields, Bool.and_eq_true, ih, ← accepts_iff, List.forall_mem_cons]

theorem validatePlaces_of_forall₂ {items : List Generator} {values : List Json}
    (h : List.Forall₂ Accepts items values) : validatePlaces items values = true := by
  induction h with
  | nil => rfl
  | cons hfirst _ ih =>
      rw [validatePlaces, Bool.and_eq_true]
      exact ⟨accepts_iff.mp hfirst, ih⟩

theorem accepts_object {fields : List (String × Generator)} {members : List (String × Json)}
    (hdistinct : (Assoc.keys fields).Nodup)
    (heach : List.Forall₂ (fun field member => field.1 = member.1 ∧ field.2.Accepts member.2)
      fields members) : (object fields).Accepts (.obj members) := by
  have hkeys := keys_eq_of_forall₂ heach
  have hfields : validateFields fields members = true := by
    rw [validateFields_iff]
    intro field hfield
    obtain ⟨member, hmember, hname, haccepts⟩ := exists_mem_of_forall₂ heach.flip hfield
    rw [hname, Assoc.get?_of_mem (hkeys ▸ hdistinct) hmember]
    exact haccepts
  simp [Accepts, validate, hfields]

theorem accepts_tuple {items : List Generator} {values : List Json}
    (heach : List.Forall₂ Accepts items values) : (tuple items).Accepts (.arr values) := by
  simp [Accepts, validate, validatePlaces_of_forall₂ heach]

theorem accepts_list {item : Generator} {lengths : Lengths} {values : List Json}
    (hlength : lengths.contains values.length = true)
    (heach : ∀ value ∈ values, item.Accepts value) : (list item lengths).Accepts (.arr values) := by
  have hall : (values.all fun value => (item.validate value).getD true) = true := by
    rw [List.all_eq_true]
    intro value hvalue
    exact accepts_iff.mp (heach value hvalue)
  simp [Accepts, validate, hlength, hall]

/-- A generator accepts every value that comes of it, whenever its drafts are resolved. -/
def AcceptsOwn (catalog : Catalog) (generator : Generator) : Prop :=
  ∀ {generateDepth resolveDepth : Nat} {draft : Draft} {value : Json},
    generator.Drafts catalog generateDepth draft → draft.Resolves catalog resolveDepth value →
      generator.Accepts value

section Own

variable {catalog : Catalog}

theorem acceptsOwn_leaf {l : Leaf}
    (haccepts : ∀ value, l.Gives value → l.validate value ≠ some false) :
    (leaf l).AcceptsOwn catalog := by
  intro generateDepth resolveDepth draft value hdrafts hresolves
  obtain ⟨generateLess, rfl⟩ := exists_depth_of_drafts hdrafts
  obtain ⟨resolveLess, rfl⟩ := Draft.exists_depth_of_resolves hresolves
  obtain ⟨given, hgives, rfl⟩ := drafts_leaf hdrafts
  rw [Draft.resolves_value hresolves]
  exact haccepts given hgives

theorem acceptsOwn_enumeration {values : List Json} {picker : Picker}
    (hequal : ∀ value ∈ values, value.equal value = true) :
    (enumeration values picker).AcceptsOwn catalog := by
  intro generateDepth resolveDepth draft value hdrafts hresolves
  obtain ⟨generateLess, rfl⟩ := exists_depth_of_drafts hdrafts
  obtain ⟨resolveLess, rfl⟩ := Draft.exists_depth_of_resolves hresolves
  obtain ⟨found, hfound, rfl⟩ := drafts_enumeration hdrafts
  rw [Draft.resolves_value hresolves]
  have hany : values.any (Json.equal · found) = true :=
    List.any_eq_true.mpr ⟨found, hfound, hequal found hfound⟩
  simp [Accepts, validate, hany]

theorem acceptsOwn_object {fields : List (String × Generator)}
    (hdistinct : (Assoc.keys fields).Nodup)
    (heach : ∀ field ∈ fields, field.2.AcceptsOwn catalog) :
    (object fields).AcceptsOwn catalog := by
  intro generateDepth resolveDepth draft value hdrafts hresolves
  obtain ⟨generateLess, rfl⟩ := exists_depth_of_drafts hdrafts
  obtain ⟨resolveLess, rfl⟩ := Draft.exists_depth_of_resolves hresolves
  obtain rfl := drafts_object hdrafts
  obtain ⟨members, rfl, hmembers⟩ := Draft.resolves_fields hresolves
  apply accepts_object hdistinct
  refine ((List.forall₂_and_left _ _).mpr ⟨heach, hmembers⟩).imp ?_
  rintro field member ⟨hown, hname, draft, hdrafts, hresolves⟩
  exact ⟨hname, hown hdrafts hresolves⟩

theorem acceptsOwn_tuple {items : List Generator}
    (heach : ∀ item ∈ items, item.AcceptsOwn catalog) : (tuple items).AcceptsOwn catalog := by
  intro generateDepth resolveDepth draft value hdrafts hresolves
  obtain ⟨generateLess, rfl⟩ := exists_depth_of_drafts hdrafts
  obtain ⟨resolveLess, rfl⟩ := Draft.exists_depth_of_resolves hresolves
  obtain ⟨drafts, rfl, hitems⟩ := drafts_tuple hdrafts
  obtain ⟨values, rfl, hvalues⟩ := Draft.resolves_items hresolves
  apply accepts_tuple
  apply forall₂_chain ?_ ((List.forall₂_and_left _ _).mpr ⟨heach, hitems⟩) hvalues
  rintro item draft value ⟨hown, hdrafts⟩ hresolves
  exact hown hdrafts hresolves

theorem acceptsOwn_list {item : Generator} {lengths : Lengths} (hown : item.AcceptsOwn catalog) :
    (list item lengths).AcceptsOwn catalog := by
  intro generateDepth resolveDepth draft value hdrafts hresolves
  obtain ⟨generateLess, rfl⟩ := exists_depth_of_drafts hdrafts
  obtain ⟨resolveLess, rfl⟩ := Draft.exists_depth_of_resolves hresolves
  obtain ⟨drafts, rfl, hlength, hitem⟩ := drafts_list hdrafts
  obtain ⟨values, rfl, hvalues⟩ := Draft.resolves_items hresolves
  rw [hvalues.length_eq] at hlength
  apply accepts_list hlength
  intro value hvalue
  obtain ⟨draft, hdraft, hresolves⟩ := exists_mem_of_forall₂ hvalues hvalue
  exact hown (hitem draft hdraft) hresolves

/-- The induction is on the coherence, which is on the generator as far as its judgement reaches. -/
theorem Coherent.acceptsOwn {generator : Generator} (h : generator.Coherent) :
    generator.AcceptsOwn catalog := by
  induction h with
  | reference | choice | empty =>
      intro generateDepth resolveDepth draft value _ _
      simp [Accepts, validate]
  | allOf _ ih =>
      intro generateDepth resolveDepth draft value hdrafts hresolves
      obtain ⟨generateLess, rfl⟩ := exists_depth_of_drafts hdrafts
      exact ih (drafts_allOf hdrafts) hresolves
  | leaf haccepts => exact acceptsOwn_leaf haccepts
  | enumeration hequal => exact acceptsOwn_enumeration hequal
  | object hdistinct _ ih => exact acceptsOwn_object hdistinct ih
  | tuple _ ih => exact acceptsOwn_tuple ih
  | list _ ih => exact acceptsOwn_list ih

end Own

end Generator

/-! ### What is compiled is coherent -/

section Compiled

variable {scope : Scope} {node : Json} {generator : Generator}

/-- One step for a node of one type, when all smaller nodes are known to compile to coherent
generators. -/
theorem coherent_of_compilesAs {type : TypeName} (hlibrary : scope.library.SelfAccepting)
    (hnode : node.WellFormed)
    (hless : ∀ {part : Json} {generator : Generator}, part.size < node.size → part.WellFormed →
      scope.compile part = .ok generator → generator.Coherent)
    (h : Scope.CompilesAs scope node type generator) : generator.Coherent := by
  cases h with
  | leaf _ hbuilds => exact .leaf (hlibrary _ _ _ hbuilds)
  | bare => exact .object (by simp [Assoc.keys]) (by simp)
  | object hpresent heach =>
      have hget := Json.get?_of_present? hpresent
      have hproperties := Json.wellFormed_obj_iff.mp (hnode.get? hget)
      apply Generator.Coherent.object (keys_eq_of_forall₂ heach ▸ hproperties.1)
      intro field hfield
      obtain ⟨property, hproperty, -, hcompile⟩ := exists_mem_of_forall₂ heach hfield
      have hpart := Json.size_lt_of_get?_obj hget hproperty
      exact hless hpart (hproperties.2 property hproperty) hcompile
  | tuple hpresent heach =>
      have hget := Json.get?_of_present? hpresent
      have hplaces := Json.wellFormed_arr_iff.mp (hnode.get? hget)
      apply Generator.Coherent.tuple
      intro item hitem
      obtain ⟨place, hplace, hcompile⟩ := exists_mem_of_forall₂ heach hitem
      exact hless (Json.size_lt_of_get?_arr hget hplace) (hplaces place hplace) hcompile
  | list _ _ hcompile _ =>
      apply Generator.Coherent.list
      cases hpresent : node.present? .items with
      | none =>
          rw [Json.itemSchema, hpresent] at hcompile
          change scope.compile (.obj []) = _ at hcompile
          rw [Scope.compile_emptySchema, Except.ok.injEq] at hcompile
          rw [← hcompile]
          exact .empty
      | some schema =>
          rw [Json.itemSchema, hpresent] at hcompile
          have hget := Json.get?_of_present? hpresent
          exact hless (Json.size_lt_of_get? hget) (hnode.get? hget) hcompile

/-- The induction is on the size of the node, since the branches of an `allOf` are laid over it
before they are compiled. -/
theorem coherent_of_compile (hlibrary : scope.library.SelfAccepting) (hnode : node.WellFormed)
    (h : scope.compile node = .ok generator) : generator.Coherent := by
  induction hsize : node.size using Nat.strongRecOn generalizing node generator with
  | ind size ih =>
      subst hsize
      cases Scope.compile_eq_ok h with
      | reference => exact .reference
      | choice | union => exact .choice
      | @allOf branches merged hdecides hcompile =>
          have hget := Json.get?_of_present? hdecides.present
          have hbranches := Json.wellFormed_arr_iff.mp (hnode.get? hget)
          have hmerged : (Scope.withAllBranches node branches).WellFormed :=
            Json.wellFormed_foldl_merge (hnode.without _) hbranches
          have hless : (Scope.withAllBranches node branches).size < node.size := by
            calc
              (Scope.withAllBranches node branches).size ≤
                  (node.without Keyword.allOf.text).size + Json.sizeItems branches :=
                Scope.size_withAllBranches_le node branches
              _ < (node.without Keyword.allOf.text).size + Json.sizeItems branches + 1 := by
                omega
              _ = node.size := Json.size_without_arr hget
          exact .allOf (ih _ hless hmerged hcompile rfl)
      | @enumeration values types picker hdecides =>
          have hvalues := Json.wellFormed_arr_iff.mp
            (hnode.get? (Json.get?_of_present? hdecides.present))
          apply Generator.Coherent.enumeration
          intro value hvalue
          exact Json.equal_self (hvalues value (Scope.mem_of_mem_kept hvalue))
      | typed _ hcompile =>
          apply coherent_of_compilesAs hlibrary hnode ?_ hcompile
          intro part generator hless hpart hcompile
          exact ih part.size hless hpart hcompile rfl
      | empty => exact .empty

/-- A compiled node does not reject a value that comes of it, whatever the source is when its draft
is generated and whatever it is when the draft is resolved. Distinct keys and finite numbers in the
node are what lets a member be found by its name and a listed value be equal to itself. -/
theorem accepts_of_resolve_generate {catalog : Catalog} {generateDepth resolveDepth : Nat}
    {draft : Draft} {value : Json} {first second third fourth : Source}
    (hlibrary : scope.library.SelfAccepting) (hnode : node.WellFormed)
    (hcompile : scope.compile node = .ok generator)
    (hgenerate : generator.generate catalog generateDepth first = (.ok draft, second))
    (hresolve : draft.resolve catalog resolveDepth third = (.ok value, fourth)) :
    generator.validate value ≠ some false :=
  (coherent_of_compile hlibrary hnode hcompile).acceptsOwn ⟨first, second, hgenerate⟩
    ⟨third, fourth, hresolve⟩

end Compiled

namespace Sample

theorem selfAccepting_library : library.SelfAccepting := by
  intro constraints type leaf hbuilds value hgives
  cases hbuilds with
  | boolean hbuilt =>
      cases hbuilt
      obtain ⟨source, rfl⟩ := Leaf.gives_lift_iff.mp hgives
      change some true ≠ some false
      simp
  | null hbuilt =>
      cases hbuilt
      obtain ⟨source, later, hnull⟩ := hgives
      obtain ⟨rfl, -⟩ := Run.pure_eq_ok.mp hnull
      change some true ≠ some false
      simp
  | integer hbuilt | number hbuilt | pattern _ hbuilt | format _ _ hbuilt | text _ _ hbuilt =>
      cases hbuilt

theorem wellFormed_document : document.WellFormed := by
  simp [document, leafNode, referenceNode, pairNode, enumerationNode, Json.WellFormed,
    Json.WellFormedMembers, Json.WellFormedItems, Assoc.keys]

end Sample

theorem accepts_of_resolve_generate_document :
    Sample.library.SelfAccepting ∧ Sample.document.WellFormed ∧
      Sample.scope.compile Sample.document = .ok (.object Sample.fields) ∧
      (Generator.object Sample.fields).generate Sample.catalog 1 (.mixed [] 0) =
        (.ok (.fields Sample.fields), .mixed [] 0) ∧
      (Draft.fields Sample.fields).resolve Sample.catalog 4 (.mixed [0] 0) =
        (.ok Sample.value, .mixed [] 0) ∧
      (Generator.object Sample.fields).validate Sample.value ≠ some false :=
  ⟨Sample.selfAccepting_library, Sample.wellFormed_document, Sample.compile_document,
    Generator.generate_object _ _ _ _, Sample.resolve_fields,
    accepts_of_resolve_generate Sample.selfAccepting_library Sample.wellFormed_document
      Sample.compile_document (Generator.generate_object Sample.catalog 0 _ (.mixed [] 0))
      Sample.resolve_fields⟩

end Specimen
