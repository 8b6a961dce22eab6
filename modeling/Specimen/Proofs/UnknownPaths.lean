import Specimen.Fixture
import Specimen.Proofs.Thorough

/-!
# Overrides at unknown paths

An override is reported when the search over the raw schema finds no property at its path. Where the
search goes far enough such an override changes nothing, and each of the limits of the search has a
fixture that reports an override which applies.
-/

namespace Specimen

theorem Path.text_ofText (text : String) : (ofText text).text = text := by
  have hparts : (Text.split '.' text.toList).map (String.toList ∘ String.ofList) =
      Text.split '.' text.toList := by
    simp [Function.comp_def]
  rw [Path.text, ofText, List.map_map, hparts, Text.join_split, String.ofList_toList]

/-- All overrides are at dotted paths. -/
def Overrides.Dotted (overrides : Overrides) : Prop :=
  ∀ path ∈ overrides.segments, ∃ text, path = Path.ofText text

theorem Overrides.dotted_insert {overrides : Overrides} (h : overrides.Dotted) (text : String)
    (entry : Override) : (overrides.insert text entry).2.Dotted := by
  intro path hpath
  obtain ⟨found, hfound, rfl⟩ := List.mem_map.mp hpath
  rcases Assoc.mem_put hfound with hold | rfl
  · exact h _ (List.mem_map_of_mem hold)
  · exact ⟨text, rfl⟩

theorem Fixture.mem_unknownPaths {fixture : Fixture} {catalog : Catalog} {text : String} :
    text ∈ fixture.unknownPaths catalog ↔ ∃ path ∈ fixture.overrides.segments,
      catalog.hasPath fixture.name fixture.schema path = false ∧ path.text = text := by
  simp only [unknownPaths, Overrides.sorted, List.mem_mergeSort, List.mem_map, List.mem_filter,
    Bool.not_eq_true', and_assoc]

/-- An override that is reported as unknown changes nothing: without it a fixture gives the same values
or the same error from the same draws, and calls the other overrides as often. This holds where the
search for its path is thorough and the overrides above it keep off the rest of the path. -/
theorem generateMany_without_unknown {setting : Setting} {fixture : Fixture} {text : String}
    (hcatalog : setting.catalog.WellFormed) (hschema : fixture.schema.WellFormed)
    (hleaves : setting.catalog.library.DrawsNoObjects)
    (hcompile : Scope.compile ⟨fixture.name, setting.catalog.library⟩ fixture.schema =
      .ok fixture.generator)
    (hdotted : fixture.overrides.Dotted)
    (hspare : fixture.overrides.Spare setting (Path.ofText text))
    (hthorough : setting.catalog.Thorough fixture.name fixture.schema (Path.ofText text))
    (hreported : text ∈ fixture.unknownPaths setting.catalog) (depth count : Nat) :
    (fixture.without (Path.ofText text)).generateMany setting depth count =
        ((fixture.generateMany setting depth count).1,
          (fixture.generateMany setting depth count).2.without (Path.ofText text)) ∧
      (fixture.without (Path.ofText text)).fill setting depth count =
        ((fixture.fill setting depth count).1,
          (fixture.fill setting depth count).2.without (Path.ofText text)) := by
  obtain ⟨path, hpath, hmissed, hshown⟩ := Fixture.mem_unknownPaths.mp hreported
  obtain ⟨written, rfl⟩ := hdotted path hpath
  rw [Path.text_ofText] at hshown
  subst hshown
  have havoids : ∀ draft, fixture.generator.Drafts setting.catalog depth draft →
      (RootShape.ofSchema fixture.schema).Avoids setting.catalog (Path.ofText written) draft :=
    fun draft => Catalog.avoids_of_thorough hcatalog hschema hleaves (Path.ofText_ne_nil written)
      hthorough hmissed hcompile
  exact ⟨Fixture.generateMany_without havoids hspare count,
    Fixture.fill_without havoids hspare count⟩

namespace Sample

def objectChoice : Json :=
  .obj [("anyOf", .arr [rowNode])]

def choiceCatalog : Catalog :=
  ⟨[("sample", objectChoice)], library⟩

/-- A choice of one object, with an override at its property and one below that. -/
def chosen : Fixture where
  name := "sample"
  generator := .choice .anyOf [.object [("id", .leaf Leaf.null)]] ⟨1, Nat.one_pos⟩
  schema := objectChoice
  overrides := ⟨[(["id"], .value (.bool true)), (["id", "name"], .value (.int 0))]⟩
  source := .mixed [0, 0] 0
  store := .empty

theorem compile_objectChoice : scope.compile objectChoice = .ok chosen.generator := by
  have hbranch : scope.compile rowNode = .ok (.object [("id", .leaf Leaf.null)]) :=
    compile_single rfl rfl rfl compile_leafNode
  have hall : scope.compileAll [rowNode] = .ok [.object [("id", .leaf Leaf.null)]] := by
    rw [Scope.compileAll, Scope.compileAll, hbranch]
    rfl
  have hkind : classify objectChoice = .ok (.anyOf [rowNode]) := rfl
  have hcandidates : (Kind.anyOf [rowNode]).candidates? objectChoice =
      some (.anyOf, [rowNode]) := rfl
  rw [Scope.compile_of_classify hkind, Scope.compileKind_of_candidates? hcandidates, hall]
  rfl

theorem part_objectChoice {part : Json} (h : objectChoice.Part part) : part = rowNode := by
  cases h with
  | candidate classified candidates member =>
      cases classified
      cases candidates
      exact List.mem_singleton.mp member
  | merged classified => cases classified
  | property classified object => cases classified; cases object
  | place classified array => cases classified; cases array
  | element classified array => cases classified; cases array

theorem part_rowNode {part : Json} (h : rowNode.Part part) : part = leafNode := by
  obtain ⟨properties, hpresent, property, hmember, rfl⟩ := h.exists_property rfl rfl
  cases hpresent
  rw [List.mem_singleton.mp hmember]

theorem reached_objectChoice {current : String} {node : Json}
    (h : Reached choiceCatalog "sample" objectChoice current node) :
    node = objectChoice ∨ node = rowNode ∨ node = leafNode := by
  induction h with
  | root => exact .inl rfl
  | part _ isPart ih =>
      rcases ih with rfl | rfl | rfl
      · exact .inr (.inl (part_objectChoice isPart))
      · exact .inr (.inr (part_rowNode isPart))
      · exact absurd isPart (Json.not_part (rfl : classify leafNode = .ok (.single .null)) rfl
          (by simp) (by simp [Kind.type?]) (by simp [Kind.type?]))
  | target _ classified _ _ ih =>
      rcases ih with rfl | rfl | rfl <;> cases classified

theorem not_leadsTo_objectChoice :
    ¬ choiceCatalog.LeadsTo "sample" objectChoice ["id", "name"] := by
  have hbranches (node : Json) (hnode : node = rowNode ∨ node = leafNode) :
      ∀ keyword ∈ [Keyword.anyOf, .allOf, .oneOf], node.branches? keyword = none := by
    rcases hnode with rfl | rfl <;> simp only [List.forall_mem_cons] <;>
      exact ⟨rfl, rfl, rfl, by simp⟩
  intro h
  obtain ⟨_, _, _, hstep, hbranch⟩ := h.exists_step
  cases hstep with
  | target refers => cases refers
  | property plain present => cases present
  | branch plain combinator listed member =>
      simp only [List.mem_cons, List.not_mem_nil, or_false] at combinator
      rcases combinator with rfl | rfl | rfl
      · cases listed
        rw [List.mem_singleton.mp member] at hbranch
        obtain ⟨property, hproperty, hleaf⟩ :=
          hbranch.exists_property rfl (hbranches rowNode (.inl rfl))
        cases hproperty
        obtain ⟨property, hproperty, -⟩ :=
          hleaf.exists_property rfl (hbranches leafNode (.inr rfl))
        cases hproperty
      · cases listed
      · cases listed

theorem pointersAlone_single {key : String} {value : Json} (hkey : key ≠ Keyword.ref.text)
    (hvalue : value.PointersAlone) : (Json.obj [(key, value)]).PointersAlone := by
  refine .object (fun pointer hmember => ?_) fun other found hmember => ?_
  · obtain ⟨hsame, -⟩ := Prod.mk.inj (List.mem_singleton.mp hmember)
    exact absurd hsame.symm hkey
  · obtain ⟨-, rfl⟩ := Prod.mk.inj (List.mem_singleton.mp hmember)
    exact hvalue

theorem pointersAlone_objectChoice : objectChoice.PointersAlone := by
  have hleaf : leafNode.PointersAlone :=
    pointersAlone_single (by decide) (.plain rfl (by simp))
  have hbranch : rowNode.PointersAlone :=
    pointersAlone_single (by decide) (pointersAlone_single (by decide) hleaf)
  refine pointersAlone_single (by decide) (.array fun branch hmember => ?_)
  exact List.mem_singleton.mp hmember ▸ hbranch

theorem thorough_objectChoice :
    choiceCatalog.Thorough "sample" objectChoice ["id", "name"] where
  unlimited start hstart hleads := by
    rw [List.mem_singleton.mp hstart] at hleads
    exact absurd hleads not_leadsTo_objectChoice
  array hshape := by cases hshape
  literals current node value target values rest hreached hkind := by
    rcases reached_objectChoice hreached with rfl | rfl | rfl <;> cases hkind
  branches current node rest hunblended _ _ hwritten := by
    refine Catalog.leadsTo_of_unblended ?_ pointersAlone_objectChoice hunblended hwritten
    intro name document hdocument
    obtain ⟨-, rfl⟩ := Prod.mk.inj (List.mem_singleton.mp (Assoc.mem_of_get? hdocument))
    exact pointersAlone_objectChoice
  pointers current node part hunblended _ hpart := by
    intro schema below pointer reference hreached hkind
    rcases reached_objectChoice ((hunblended.reached.part hpart).trans hreached) with
      rfl | rfl | rfl <;> cases hkind

def choiceSetting : Setting :=
  ⟨choiceCatalog, fun _ => .empty⟩

/-- The override at the property gives a value without members. -/
theorem spare_chosen : chosen.overrides.Spare choiceSetting ["id", "name"] := by
  intro above entry hentry rest hrest hpath
  have hmember := Assoc.mem_of_get? hentry
  simp only [chosen, List.mem_cons, Prod.mk.injEq, List.not_mem_nil, or_false] at hmember
  rcases hmember with ⟨rfl, rfl⟩ | ⟨rfl, rfl⟩
  · obtain rfl : ["name"] = rest := (List.append_right_inj ["id"]).mp hpath
    rintro count draft rfl target hleads
    cases hleads
  · obtain rfl : [] = rest := (List.append_right_inj ["id", "name"]).mp hpath
    exact absurd rfl hrest

theorem drawsNoObjects_library : library.DrawsNoObjects := by
  intro constraints type leaf hbuilds members hobject
  cases hbuilds with
  | boolean built =>
      cases built
      obtain ⟨_, hcoin⟩ := Leaf.gives_lift_iff.mp hobject
      cases hcoin
  | null built =>
      cases built
      obtain ⟨_, _, hnull⟩ := hobject
      cases hnull
  | integer built | number built | text _ _ built => cases built
  | pattern _ built | format _ _ built => cases built

theorem wellFormed_objectChoice : objectChoice.WellFormed := by
  simp [objectChoice, rowNode, leafNode, Json.WellFormed, Json.WellFormedMembers,
    Json.WellFormedItems, Assoc.keys]

end Sample

/-- The override below the property is reported, and the choice of an object gives the same without
it. -/
theorem generateMany_without_unknown_choice :
    "id.name" ∈ Sample.chosen.unknownPaths Sample.choiceCatalog ∧
      (Sample.chosen.without ["id", "name"]).generateMany Sample.choiceSetting 4 2 =
        ((Sample.chosen.generateMany Sample.choiceSetting 4 2).1,
          (Sample.chosen.generateMany Sample.choiceSetting 4 2).2.without ["id", "name"]) := by
  have hreported : "id.name" ∈ Sample.chosen.unknownPaths Sample.choiceCatalog := by
    rw [Fixture.mem_unknownPaths]
    exact ⟨["id", "name"], by decide, rfl, by decide⟩
  have hdotted : Sample.chosen.overrides.Dotted := by
    intro path hpath
    have hcases : path = ["id"] ∨ path = ["id", "name"] := by
      simpa [Overrides.segments, Sample.chosen, Assoc.keys] using hpath
    rcases hcases with rfl | rfl
    · exact ⟨"id", by decide⟩
    · exact ⟨"id.name", by decide⟩
  have hcatalog : Sample.choiceCatalog.WellFormed := by
    intro name document hdocument
    obtain ⟨-, rfl⟩ := Prod.mk.inj (List.mem_singleton.mp (Assoc.mem_of_get? hdocument))
    exact Sample.wellFormed_objectChoice
  have htext : Path.ofText "id.name" = ["id", "name"] := by decide
  refine ⟨hreported, ?_⟩
  rw [← htext]
  exact (generateMany_without_unknown hcatalog Sample.wellFormed_objectChoice
    Sample.drawsNoObjects_library Sample.compile_objectChoice hdotted
      (htext ▸ Sample.spare_chosen) (htext ▸ Sample.thorough_objectChoice) hreported 4 2).1

/-- A fixture reports an override that applies: without it the fixture gives another value. -/
structure Fixture.Misreports (fixture : Fixture) (setting : Setting) (path : Path) : Prop where
  compiled : Scope.compile ⟨fixture.name, setting.catalog.library⟩ fixture.schema =
    .ok fixture.generator
  reported : path.text ∈ fixture.unknownPaths setting.catalog
  applies : ∃ (depth : Nat) (given plain : Json),
    (fixture.generate setting depth).1 = .ok given ∧
      ((fixture.without path).generate setting depth).1 = .ok plain ∧ given ≠ plain

namespace Sample

/-- A setting with one more schema beside the sample. -/
def settingBeside (schema other : Json) : Setting :=
  ⟨⟨[("sample", schema), ("other", other)], library⟩, fun _ => .empty⟩

def fixtureOf (schema : Json) (generator : Generator) (overrides : Overrides) : Fixture :=
  ⟨"sample", generator, schema, overrides, .mixed [0] 0, .empty⟩

theorem mem_unknownPaths_fixtureOf {schema other : Json} {generator : Generator}
    {overrides : Overrides} {path : Path} (hmember : path ∈ overrides.segments)
    (hmissed : (settingBeside schema other).catalog.hasPath "sample" schema path = false) :
    path.text ∈
      (fixtureOf schema generator overrides).unknownPaths (settingBeside schema other).catalog :=
  Fixture.mem_unknownPaths.mpr ⟨path, hmember, hmissed, rfl⟩

def objectLiteral : Json :=
  .obj [("a", .int 1)]

def literalNode : Json :=
  .obj [("enum", .arr [objectLiteral])]

def enumerated : Fixture :=
  fixtureOf literalNode (.enumeration [objectLiteral] ⟨1, Nat.one_pos⟩) ⟨[(["a"], .value (.int 2))]⟩

/-- The search does not look into the values of an enumeration. -/
theorem misreports_enumerated : enumerated.Misreports (settingBeside literalNode .null) ["a"] where
  compiled := Scope.compile_eq_compileKind _ _
  reported := mem_unknownPaths_fixtureOf (by decide) rfl
  applies := ⟨4, .obj [("a", .int 2)], objectLiteral, rfl, rfl, by simp [objectLiteral]⟩

def literalArray : Json :=
  .obj [("type", .str "array"), ("enum", .arr [.arr [objectLiteral]])]

def enumeratedArray : Fixture :=
  fixtureOf literalArray (.enumeration [.arr [objectLiteral]] ⟨1, Nat.one_pos⟩)
    ⟨[(["a"], .value (.int 2))]⟩

/-- At an array the search starts below its items, also where these are not what it is compiled to. -/
theorem misreports_enumeratedArray :
    enumeratedArray.Misreports (settingBeside literalArray .null) ["a"] where
  compiled := Scope.compile_eq_compileKind _ _
  reported := mem_unknownPaths_fixtureOf (by decide) rfl
  applies := ⟨4, .arr [.obj [("a", .int 2)]], .arr [objectLiteral], rfl, rfl,
    by simp [objectLiteral]⟩

def leafObject (name : String) : Json :=
  .obj [("properties", .obj [(name, leafNode)])]

theorem compile_leafNode_in (schema : String) :
    Scope.compile ⟨schema, library⟩ leafNode = .ok (.leaf Leaf.null) := by
  have hkind : classify leafNode = .ok (.single .null) := rfl
  rw [Scope.compile_of_classify hkind, Scope.compileKind, Scope.compileType]
  rfl

theorem compile_leafObject (schema name : String) :
    Scope.compile ⟨schema, library⟩ (leafObject name) = .ok (.object [(name, .leaf Leaf.null)]) :=
  compile_single rfl rfl rfl (compile_leafNode_in schema)

def overriddenTwice : Fixture :=
  fixtureOf (leafObject "a") (.object [("a", .leaf Leaf.null)])
    ⟨[(["a"], .value (.obj [("b", .int 1)])), (["a", "b"], .value (.int 2))]⟩

/-- The search does not look into what an override above gives. -/
theorem misreports_overriddenTwice :
    overriddenTwice.Misreports (settingBeside (leafObject "a") .null) ["a", "b"] where
  compiled := compile_leafObject "sample" "a"
  reported := mem_unknownPaths_fixtureOf (by decide) rfl
  applies := ⟨6, .obj [("a", .obj [("b", .int 2)])], .obj [("a", .obj [("b", .int 1)])],
    rfl, rfl, by simp⟩

/-- An object below many combinators of one branch. -/
def stacked : Nat → Json
  | 0 => leafObject "a"
  | height + 1 => .obj [("allOf", .arr [stacked height])]

def stackedGenerator : Nat → Generator
  | 0 => .object [("a", .leaf Leaf.null)]
  | height + 1 => .allOf (stackedGenerator height)

theorem compile_allOf {scope : Scope} {node merged : Json} {branches : List Json}
    {generator : Generator} (hkind : classify node = .ok (.allOf branches))
    (hmerged : Scope.withAllBranches node branches = merged)
    (hcompile : scope.compile merged = .ok generator) :
    scope.compile node = .ok (.allOf generator) := by
  rw [Scope.compile_of_classify hkind, Scope.compileKind, Scope.compileAllOf_eq, hmerged, hcompile]
  rfl

theorem compile_stacked (height : Nat) :
    scope.compile (stacked height) = .ok (stackedGenerator height) := by
  induction height with
  | zero => exact compile_leafObject "sample" "a"
  | succ height ih => exact compile_allOf rfl (by cases height <;> rfl) ih

def tooHigh : Fixture :=
  fixtureOf (stacked 33) (stackedGenerator 33) ⟨[(["a"], .value (.int 2))]⟩

/-- The search ends at its limit of steps. -/
theorem misreports_tooHigh : tooHigh.Misreports (settingBeside (stacked 33) .null) ["a"] where
  compiled := compile_stacked 33
  reported := mem_unknownPaths_fixtureOf (by decide) rfl
  applies := ⟨40, .obj [("a", .int 2)], .obj [("a", .null)], rfl, rfl, by simp⟩

theorem generate_allOf_reference {catalog : Catalog} {name : String} {reference : Reference}
    {overlay : Json} {target : Generator} {depth : Nat} {draft : Draft}
    (htarget : Generator.dereference catalog name reference overlay = .ok target)
    (hdraft : target.generate catalog depth = pure draft) :
    (Generator.allOf (.reference name reference overlay)).generate catalog (depth + 2) =
      pure draft := by
  simp only [Generator.generate, htarget, Generation.ofExcept, pure_bind, hdraft]

theorem generate_fixtureOf {setting : Setting} {schema : Json} {generator : Generator} {depth : Nat}
    {draft : Draft} (overrides : Overrides) (hshape : RootShape.ofSchema schema = .object)
    (hdraft : generator.generate setting.catalog depth = pure draft) :
    ((fixtureOf schema generator overrides).generate setting depth).1 =
      (flatten setting depth [] draft ⟨.mixed [0] 0, overrides⟩).1 := by
  have hrun : ((fixtureOf schema generator overrides).generate setting depth).1 =
      (materialize setting depth schema generator ⟨.mixed [0] 0, overrides⟩).1 := rfl
  rw [hrun, materialize, hdraft, hshape]
  rfl

def nestedLeaf : Json :=
  .obj [("properties", .obj [("a", leafObject "b")])]

def overlay : Json :=
  .obj [("properties", .obj [("a", .obj [])])]

def concealingNode : Json :=
  .obj [("allOf", .arr [
    .obj [("$ref", .str "other#"), ("properties", .obj [("a", .bool true)])], overlay])]

def concealing : Fixture :=
  fixtureOf concealingNode (.allOf (.reference "other" ⟨some "other", []⟩ overlay))
    ⟨[(["a", "b"], .value (.int 2))]⟩

/-- The search takes each branch by itself: what stands beside the reference in one hides the property
of the target, and the other is laid over it. -/
theorem misreports_concealing :
    concealing.Misreports (settingBeside concealingNode nestedLeaf) ["a", "b"] where
  compiled := compile_allOf rfl rfl (Scope.compile_eq_compileKind _ _)
  reported := mem_unknownPaths_fixtureOf (by decide) rfl
  applies := by
    have htarget : Generator.dereference (settingBeside concealingNode nestedLeaf).catalog "other"
        ⟨some "other", []⟩ overlay = .ok (.object [("a", .object [("b", .leaf Leaf.null)])]) :=
      compile_single rfl rfl rfl (compile_leafObject "other" "b")
    have hdraft : (Generator.allOf (.reference "other" ⟨some "other", []⟩ overlay)).generate
        (settingBeside concealingNode nestedLeaf).catalog 6 =
          pure (.fields [("a", .object [("b", .leaf Leaf.null)])]) :=
      generate_allOf_reference htarget rfl
    exact ⟨6, .obj [("a", .obj [("b", .int 2)])], .obj [("a", .obj [("b", .null)])],
      generate_fixtureOf _ rfl hdraft, generate_fixtureOf _ rfl hdraft, by simp⟩

def definitions : Json :=
  .obj [("x", leafObject "a")]

def localBranch : Json :=
  .obj [("allOf", .arr [.obj [("$ref", .str "#/definitions/x")]])]

def lendingNode : Json :=
  .obj [("allOf", .arr [.obj [("$ref", .str "other#")], localBranch])]

def lending : Fixture :=
  fixtureOf lendingNode (.allOf (.reference "other" ⟨some "other", []⟩ localBranch))
    ⟨[(["a"], .value (.int 2))]⟩

/-- The search follows a local pointer in the schema it is written in, and not in the one whose
reference it comes to stand beside. -/
theorem misreports_lending : lending.Misreports
    (settingBeside lendingNode (.obj [("definitions", definitions)])) ["a"] where
  compiled := compile_allOf rfl rfl (Scope.compile_eq_compileKind _ _)
  reported := mem_unknownPaths_fixtureOf (by decide) rfl
  applies := by
    have hbranch : Generator.dereference
        (settingBeside lendingNode (.obj [("definitions", definitions)])).catalog "other"
          ⟨none, ["definitions", "x"]⟩ (.obj [("definitions", definitions)]) =
            .ok (.object [("a", .leaf Leaf.null)]) :=
      compile_single rfl rfl rfl (compile_leafNode_in "other")
    have htarget : Generator.dereference
        (settingBeside lendingNode (.obj [("definitions", definitions)])).catalog "other"
          ⟨some "other", []⟩ localBranch =
            .ok (.allOf (.reference "other" ⟨none, ["definitions", "x"]⟩
              (.obj [("definitions", definitions)]))) :=
      compile_allOf rfl rfl (Scope.compile_eq_compileKind _ _)
    have hdraft : (Generator.allOf (.reference "other" ⟨some "other", []⟩ localBranch)).generate
        (settingBeside lendingNode (.obj [("definitions", definitions)])).catalog 6 =
          pure (.fields [("a", .leaf Leaf.null)]) :=
      generate_allOf_reference htarget (generate_allOf_reference hbranch rfl)
    exact ⟨6, .obj [("a", .int 2)], .obj [("a", .null)],
      generate_fixtureOf _ rfl hdraft, generate_fixtureOf _ rfl hdraft, by simp⟩

end Sample

/-- Fixtures that report an override that applies, one for each way in which runs go where the search
does not. -/
theorem misreports_each :
    Sample.enumerated.Misreports (Sample.settingBeside Sample.literalNode .null) ["a"] ∧
      Sample.enumeratedArray.Misreports (Sample.settingBeside Sample.literalArray .null) ["a"] ∧
      Sample.overriddenTwice.Misreports (Sample.settingBeside (Sample.leafObject "a") .null)
        ["a", "b"] ∧
      Sample.tooHigh.Misreports (Sample.settingBeside (Sample.stacked 33) .null) ["a"] ∧
      Sample.concealing.Misreports (Sample.settingBeside Sample.concealingNode Sample.nestedLeaf)
        ["a", "b"] ∧
      Sample.lending.Misreports
        (Sample.settingBeside Sample.lendingNode (.obj [("definitions", Sample.definitions)]))
          ["a"] :=
  ⟨Sample.misreports_enumerated, Sample.misreports_enumeratedArray,
    Sample.misreports_overriddenTwice, Sample.misreports_tooHigh, Sample.misreports_concealing,
    Sample.misreports_lending⟩

end Specimen
