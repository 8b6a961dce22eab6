import Specimen.Proofs.Failures

/-!
# Picks

A choice and an enumeration hold what they pick from and the bound of their picker apart. The two
agree wherever a generator comes from, be it from branches, from a list of types, from values of the
declared types, or from the node that a reference is merged to when a value is generated. So a pick
never goes past the end, and a node that leaves nothing to pick from does not compile.
-/

namespace Specimen

/-- A picker fits as many things as there are if there is one at least and all can be picked. -/
structure Picker.Fits (picker : Picker) (count : Nat) : Prop where
  nonempty : 0 < count
  bound : picker.bound = count

/-- Where a library gives a picker, there is something to pick and the picker is bounded by how much
it is. -/
def Library.PickersFit (library : Library) : Prop :=
  ∀ count picker, library.index count = .ok picker → picker.Fits count

/-- The picker of a choice or an enumeration fits what they hold. -/
def Generator.PickerFits : Generator → Prop
  | .choice _ candidates picker => picker.Fits candidates.length
  | .enumeration values picker => picker.Fits values.length
  | _ => True

def Overrides.CompiledWith (L : Library → Prop) (overrides : Overrides) : Prop :=
  ∀ path g, overrides.get? path = some (.generator g) → g.CompiledWith L

theorem Library.pickersFit_of_index {library : Library} (h : library.index = Picker.ofLength) :
    library.PickersFit := by
  intro count picker hpicker
  rw [h] at hpicker
  have hbound := Picker.bound_of_ofLength hpicker
  exact ⟨hbound ▸ picker.bound_pos, hbound⟩

/-! ### What can be picked -/

section

variable {g : Generator} {catalog : Catalog} {roots : Generator → Prop}

theorem Generator.PickerGivenBy.pickerFits {library : Library} (h : g.PickerGivenBy library)
    (hlibrary : library.PickersFit) : g.PickerFits := by
  cases g with
  | choice => exact hlibrary _ _ h
  | enumeration => exact hlibrary _ _ h
  | reference | allOf | leaf | empty | object | tuple | list => trivial

theorem Generator.CompiledWith.pickerFits (h : g.CompiledWith Library.PickersFit) :
    g.PickerFits := by
  obtain ⟨scope, node, hlibrary, hcompile⟩ := h
  exact (Scope.pickerGivenBy_of_compile hcompile).pickerFits hlibrary

theorem Generator.PickerFits.picksInRange (h : g.PickerFits) : g.PicksInRange := by
  cases g with
  | choice | enumeration => exact Nat.le_of_eq h.bound
  | reference | allOf | leaf | empty | object | tuple | list => trivial

theorem Halt.CutOff.ne_outOfRange {halt : Halt} (h : halt.CutOff catalog roots) :
    halt ≠ .outOfRange := by
  rintro rfl
  rcases h with hdeep | hreference | ⟨_, _, _, _, hroom⟩
  · cases hdeep
  · cases hreference
  · cases hroom

end

/-- Whatever a generator comes to, with the overrides it is materialized with, has a picker that fits,
and no run of any of it picks what is not there. -/
structure Generator.PicksWithin (catalog : Catalog) (overrides : Overrides) (g : Generator) :
    Prop where
  fits (p : Generator) (hused : p.Used catalog (overrides.Roots g)) : p.PickerFits
  generated (p : Generator) (hused : p.Used catalog (overrides.Roots g)) (depth : Nat)
    (source later : Source) : p.generate catalog depth source ≠ (.error .outOfRange, later)
  resolved (p : Generator) (hused : p.Used catalog (overrides.Roots g)) (depth : Nat)
    (draft : Draft) (hdrafts : p.Drafts catalog depth draft) (depth' : Nat)
    (source later : Source) : draft.resolve catalog depth' source ≠ (.error .outOfRange, later)
  materialized (stores : Stores) (schema : Json) (depth : Nat) (source : Source)
    (after : Progress) : materialize ⟨catalog, stores⟩ depth schema g ⟨source, overrides⟩ ≠
      (.error .outOfRange, after)

theorem picksWithin_of_compiledWith {g : Generator} {catalog : Catalog} {overrides : Overrides}
    (h : g.CompiledWith Library.PickersFit) (hlibrary : catalog.library.PickersFit)
    (hoverrides : overrides.CompiledWith Library.PickersFit) : g.PicksWithin catalog overrides := by
  have hroots : ∀ root, overrides.Roots g root → root.CompiledWith Library.PickersFit := by
    rintro root (rfl | ⟨path, hpath⟩)
    · exact h
    · exact hoverrides path root hpath
  have hfits (p : Generator) (hused : p.Used catalog (overrides.Roots g)) : p.PickerFits :=
    (hused.compiledWith hlibrary hroots).pickerFits
  have hpicks (p : Generator) (hused : p.Used catalog (overrides.Roots g)) : p.PicksInRange :=
    (hfits p hused).picksInRange
  refine ⟨hfits, ?_, ?_, ?_⟩
  · intro p hused depth source later hrun
    exact ((hused.ends_generate hpicks depth).error trivial hrun).ne_outOfRange rfl
  · rintro p hused depth draft ⟨start, rest, hdrafts⟩ depth' source later hrun
    have hmade : draft.MadeOf (Generator.Used catalog (overrides.Roots g)) := by
      have hends := (hused.ends_generate hpicks depth start trivial).2
      rwa [hdrafts] at hends
    exact ((hmade.ends_resolve hpicks depth').error trivial hrun).ne_outOfRange rfl
  · intro stores schema depth source after hrun
    have hends := Generator.Used.ends_materialize hpicks (.inl rfl) stores schema depth
    exact (hends.error (overrides.rooted_roots g) hrun).ne_outOfRange rfl

/-! ### What cannot be picked from -/

/-- A node that leaves nothing to pick from does not compile, and the error says what is missing. -/
structure Scope.RefusesEmpty (scope : Scope) (node : Json) : Prop where
  branches (keyword : Keyword) (combinator : keyword ∈ [Keyword.anyOf, .allOf, .oneOf])
    (decides : Decides node keyword (.arr [])) :
    scope.compile node = .error (.schema (.noBranches keyword))
  types (decides : Decides node .type (.arr [])) :
    scope.compile node = .error (.schema (.misused .type .noTypes))
  values (values : List Json) (types : Option (List TypeName))
    (decides : Decides node .enum (.arr values)) (declared : declaredTypes node = .ok types)
    (none : kept types values = []) :
    scope.compile node = .error (.schema (.noValues types))

theorem Scope.compile_of_classify_error {scope : Scope} {node : Json} {e : SchemaError}
    (h : classify node = .error e) : scope.compile node = .error (.schema e) := by
  rw [compile_eq_compileKind, h]
  rfl

theorem Scope.enumeration_of_kept_eq_nil {scope : Scope} {node : Json} {values : List Json}
    {types : Option (List TypeName)} (hdeclared : declaredTypes node = .ok types)
    (hnone : kept types values = []) :
    scope.enumeration node values = .error (.schema (.noValues types)) := by
  have hempty : (kept types values).isEmpty = true := List.isEmpty_iff.mpr hnone
  rw [enumeration, hdeclared]
  change (if (kept types values).isEmpty = true then _ else _) = _
  rw [if_pos hempty]
  rfl

theorem Scope.refusesEmpty (scope : Scope) (node : Json) : scope.RefusesEmpty node := by
  constructor
  · intro keyword combinator decides
    apply compile_of_classify_error
    rw [classify_of_decides decides]
    simp only [List.mem_cons, List.not_mem_nil, or_false] at combinator
    rcases combinator with rfl | rfl | rfl <;> rfl
  · intro decides
    apply compile_of_classify_error
    rw [classify_of_decides decides]
    rfl
  · intro values types decides declared none
    have hkind : classify node = .ok (.enumeration values) := classify_of_decides decides
    rw [compile_of_classify hkind]
    exact enumeration_of_kept_eq_nil declared none

/-- With libraries whose pickers fit, as those of the standard one do, whatever is compiled picks from
something and stays within it, and so does what its references and its overrides compile to. No node
compiles that leaves nothing to pick from. -/
theorem picksWithin_of_compile (scope : Scope) (node : Json) (catalog : Catalog) :
    (∀ engine, (Library.standard engine).PickersFit) ∧ scope.RefusesEmpty node ∧
      (scope.library.PickersFit → catalog.library.PickersFit →
        ∀ g, scope.compile node = .ok g →
          ∀ overrides : Overrides, overrides.CompiledWith Library.PickersFit →
            g.PicksWithin catalog overrides) := by
  refine ⟨fun _ => Library.pickersFit_of_index rfl, scope.refusesEmpty node, ?_⟩
  intro hscope hcatalog g hcompile overrides hoverrides
  exact picksWithin_of_compiledWith ⟨scope, node, hscope, hcompile⟩ hcatalog hoverrides

namespace Sample

def kindReference : Json :=
  .obj [("$ref", .str "#/properties/kind")]

def kindChoice : Json :=
  .obj [("anyOf", .arr [leafNode, kindReference])]

def kindCatalog : Catalog :=
  ⟨[("sample", unlinkedNode)], library⟩

def kinds : Generator :=
  .enumeration [.str "x", .str "y"] ⟨2, Nat.two_pos⟩

def kindTarget : Generator :=
  .reference "sample" ⟨none, ["properties", "kind"]⟩ (.obj [])

def nullOrKind : Generator :=
  .choice .anyOf [.leaf Leaf.null, kindTarget] ⟨2, Nat.two_pos⟩

def kindOverride : Overrides :=
  ⟨[(["kind"], .generator kinds)]⟩

/-- An enumeration without a value of the declared type. -/
def kindlessNode : Json :=
  .obj [("type", .str "null"), ("enum", .arr [.str "x", .str "y"])]

theorem compile_kindReference : scope.compile kindReference = .ok kindTarget :=
  Scope.compile_eq_compileKind scope kindReference

theorem compile_kindChoice : scope.compile kindChoice = .ok nullOrKind := by
  have hall : scope.compileAll [leafNode, kindReference] = .ok [.leaf Leaf.null, kindTarget] := by
    rw [Scope.compileAll, Scope.compileAll, Scope.compileAll, compile_leafNode,
      compile_kindReference]
    rfl
  have hkind : classify kindChoice = .ok (.anyOf [leafNode, kindReference]) := rfl
  have hcandidates : (Kind.anyOf [leafNode, kindReference]).candidates? kindChoice =
      some (.anyOf, [leafNode, kindReference]) := rfl
  rw [Scope.compile_of_classify hkind, Scope.compileKind_of_candidates? hcandidates, hall]
  rfl

theorem dereference_kindTarget :
    Generator.dereference kindCatalog "sample" ⟨none, ["properties", "kind"]⟩ (.obj []) =
      .ok kinds :=
  compile_enumerationNode

theorem used_kinds : kinds.Used kindCatalog (kindOverride.Roots nullOrKind) :=
  .target (.part (.root (.inl rfl)) (.candidate (List.mem_cons_of_mem _ List.mem_cons_self)))
    dereference_kindTarget

theorem compiledWith_kindOverride : kindOverride.CompiledWith Library.PickersFit := by
  intro path g hentry
  have hmember := Assoc.mem_of_get? hentry
  obtain ⟨-, hgenerator⟩ := Prod.mk.inj (List.mem_singleton.mp hmember)
  cases hgenerator
  exact ⟨scope, enumerationNode, Library.pickersFit_of_index rfl, compile_enumerationNode⟩

theorem decides_kindlessNode : Decides kindlessNode .enum (.arr [.str "x", .str "y"]) := by
  refine ⟨rfl, [.ref, .anyOf, .allOf, .oneOf], _, rfl, ?_⟩
  simp only [List.forall_mem_cons]
  exact ⟨rfl, rfl, rfl, rfl, by simp⟩

theorem decides_anyOf_nil : Decides (.obj [("anyOf", .arr [])]) .anyOf (.arr []) := by
  refine ⟨rfl, [.ref], _, rfl, ?_⟩
  simp only [List.forall_mem_cons]
  exact ⟨rfl, by simp⟩

end Sample

theorem picksWithin_of_compile_kinds :
    (Sample.scope.library.PickersFit ∧ Sample.kindCatalog.library.PickersFit ∧
      Sample.scope.compile Sample.kindChoice = .ok Sample.nullOrKind ∧
        Sample.kindOverride.CompiledWith Library.PickersFit) ∧
      Sample.kinds.Used Sample.kindCatalog (Sample.kindOverride.Roots Sample.nullOrKind) ∧
      Sample.nullOrKind.PickerFits ∧ Sample.kinds.PickerFits ∧
      (∀ source later, Sample.nullOrKind.generate Sample.kindCatalog 3 source ≠
        (.error .outOfRange, later)) ∧
      Sample.scope.compile (.obj [("anyOf", .arr [])]) = .error (.schema (.noBranches .anyOf)) ∧
      Sample.scope.compile Sample.kindlessNode = .error (.schema (.noValues (some [.null]))) := by
  have hfit : Sample.scope.library.PickersFit := Library.pickersFit_of_index rfl
  have hwithin := (picksWithin_of_compile Sample.scope Sample.kindChoice Sample.kindCatalog).2.2
    hfit hfit _ Sample.compile_kindChoice _ Sample.compiledWith_kindOverride
  have hbranchless := (picksWithin_of_compile Sample.scope (.obj [("anyOf", .arr [])])
    Sample.kindCatalog).2.1
  have hkindless := (picksWithin_of_compile Sample.scope Sample.kindlessNode
    Sample.kindCatalog).2.1
  refine ⟨⟨hfit, hfit, Sample.compile_kindChoice, Sample.compiledWith_kindOverride⟩,
    Sample.used_kinds, hwithin.fits _ (.root (.inl rfl)), hwithin.fits _ Sample.used_kinds, ?_,
    hbranchless.branches .anyOf List.mem_cons_self Sample.decides_anyOf_nil,
    hkindless.values _ _ Sample.decides_kindlessNode rfl rfl⟩
  exact hwithin.generated _ (.root (.inl rfl)) 3

end Specimen
