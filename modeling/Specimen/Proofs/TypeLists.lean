import Specimen.Fixture
import Specimen.Proofs.Reaching
import Specimen.Proofs.Rewording

/-!
# Lists of one type

Classifying a node and filtering its values read a list of one type as that type. Laying one node over
another does not: of a list with more types, a list above it replaces the first one, and a name above
it replaces all. What shape a root has for overrides is read off the written type and knows names only.
Up to these two, writing a type or a list with nothing but it is the same.
-/

namespace Specimen

namespace Json

/-- Wordings in which lists of one type may become that type. -/
def respelling : Leeway where
  keys := readKeys
  blanks := False
  names := True

/-- The second schema is the first with types in the place of lists of one type. -/
abbrev Respelled : Json → Json → Prop :=
  Reworded respelling

/-- The keys that are followed to find out whether a path leads to a property. -/
def pathKeys : List String :=
  [Keyword.ref, .anyOf, .oneOf, .allOf, .properties, .items].map Keyword.text

/-- Wordings that keep all that a path can follow. -/
def pathLeeway : Leeway where
  keys := pathKeys
  blanks := False
  names := False

section Weakening

variable {leeway weaker : Leeway} {node other : Json}

/-- Wordings that keep some members, the type not among them, keep them whatever becomes of types. -/
theorem Reworded.weaken (hkeys : ∀ key ∈ weaker.keys, key ∈ leeway.keys)
    (hblanks : leeway.blanks → weaker.blanks) (htype : Keyword.type.text ∉ weaker.keys)
    (h : Reworded leeway node other) : Reworded weaker node other := by
  induction hsize : node.size using Nat.strongRecOn generalizing node other with
  | ind size ih =>
      subst hsize
      cases h with
      | plain notObject notObject' => exact .plain notObject notObject'
      | blank allowed notObject object bare =>
          exact .blank (hblanks allowed) notObject object fun key hkey => bare key (hkeys key hkey)
      | object object object' each =>
          refine .object object object' fun key hkey => ?_
          have hfound := each key (hkeys key hkey)
          generalize hget : node.get? key = found at hfound
          generalize other.get? key = found' at hfound
          cases hfound with
          | absent => exact .absent
          | named => exact absurd hkey htype
          | present alike null =>
              refine .present (alike.imp_of_size_le ?_) null
              intro part part' hle hpart
              exact ih part.size (Nat.lt_of_le_of_lt hle (size_lt_of_get? hget)) hpart rfl

end Weakening

section Reaching

variable {node other : Json}

theorem Reworded.rel_get? (h : Reworded pathLeeway node other) {key : String}
    (hkey : key ∈ pathKeys) :
    Option.Rel (MemberAlike (Reworded pathLeeway) key) (node.get? key) (other.get? key) := by
  have hfound := h.found (show key ∈ pathLeeway.keys from hkey)
  generalize node.get? key = found at hfound
  generalize other.get? key = found' at hfound
  cases hfound with
  | absent => exact .none
  | present alike => exact .some alike
  | named allowed => exact allowed.elim

/-- What is looked up in two values of `properties`. -/
theorem FieldsAlike.rel_get? {N : Json → Json → Prop} {value value' : Json}
    (h : FieldsAlike N value value') (name : String) :
    Option.Rel N (value.get? name) (value'.get? name) := by
  cases h with
  | same notObject =>
      rw [get?_of_notObject notObject]
      exact .none
  | each _ each =>
      exact rel_get?_of_forall₂ (Q := fun _ => N)
        (each.imp fun _ _ hfield => fieldAlike_iff.mp hfield) name

theorem BranchesAlike.rel_items? {N : Json → Json → Prop} {value value' : Json}
    (h : BranchesAlike N value value') :
    Option.Rel (List.Forall₂ N) value.items? value'.items? := by
  cases h with
  | each each => exact .some each
  | same plain =>
      rw [plain]
      exact .none

theorem Reworded.get?_ref (h : Reworded pathLeeway node other) :
    node.get? Keyword.ref.text = other.get? Keyword.ref.text := by
  rcases rel_cases (h.rel_get? (show Keyword.ref.text ∈ pathKeys by decide)) with
    ⟨hnone, hnone'⟩ | ⟨value, value', hvalue, hvalue', hsame⟩
  · rw [hnone, hnone']
  · rw [hvalue, hvalue', hsame.eq (by decide)]

theorem Reworded.rel_property (h : Reworded pathLeeway node other) (name : String) :
    Option.Rel (Reworded pathLeeway) ((node.get? Keyword.properties.text).bind (Json.get? name))
      ((other.get? Keyword.properties.text).bind (Json.get? name)) := by
  rcases rel_cases (h.rel_get? (show Keyword.properties.text ∈ pathKeys by decide)) with
    ⟨hnone, hnone'⟩ | ⟨value, value', hvalue, hvalue', halike⟩
  · rw [hnone, hnone']
    exact .none
  · rw [hvalue, hvalue']
    exact halike.fields.rel_get? name

theorem Reworded.rel_branches (h : Reworded pathLeeway node other) {keyword : Keyword}
    (hkeyword : keyword ∈ [Keyword.anyOf, .allOf, .oneOf]) :
    Option.Rel (List.Forall₂ (Reworded pathLeeway)) ((node.get? keyword.text).bind Json.items?)
      ((other.get? keyword.text).bind Json.items?) := by
  have hkey : ∀ keyword ∈ [Keyword.anyOf, .allOf, .oneOf], keyword.text ∈ pathKeys := by decide
  rcases rel_cases (h.rel_get? (hkey keyword hkeyword)) with
    ⟨hnone, hnone'⟩ | ⟨value, value', hvalue, hvalue', halike⟩
  · rw [hnone, hnone']
    exact .none
  · rw [hvalue, hvalue']
    exact (halike.branchesAlike hkeyword).rel_items?

theorem any_eq_of_forall₂ {N : Json → Json → Prop} {branches others : List Json}
    {p : Json → Bool} (h : List.Forall₂ N branches others)
    (heach : ∀ branch branch', N branch branch' → p branch = p branch') :
    branches.any p = others.any p := by
  induction h with
  | nil => rfl
  | cons hfirst _ ih => rw [List.any_cons, List.any_cons, heach _ _ hfirst, ih]

end Reaching

end Json

section Paths

variable {catalog : Catalog} {schema schema' : String} {node node' other other' : Json}
  {segment : String} {rest path path' : Path}

/-- What a step leads to from a reference is a wording again. -/
theorem Json.Reworded.target (h : node.Reworded Json.pathLeeway other) {found : Json}
    (hfound : found.WellFormed) :
    (found.merge (node.without Keyword.ref.text)).Reworded Json.pathLeeway
      (found.merge (other.without Keyword.ref.text)) :=
  (Json.reworded_self _ hfound).merge (h.without _) (Json.not_clashes id id _ _ _)

theorem Catalog.PathStep.reworded (hcatalog : catalog.WellFormed)
    (h : node.Reworded Json.pathLeeway other)
    (step : catalog.PathStep schema node segment rest schema' node' path') :
    ∃ other', catalog.PathStep schema other segment rest schema' other' path' ∧
      node'.Reworded Json.pathLeeway other' := by
  cases step with
  | target refers parsed resolved =>
      rw [h.get?_ref] at refers
      exact ⟨_, .target refers parsed resolved, h.target (hcatalog.resolve resolved)⟩
  | property plain present =>
      rw [h.get?_ref] at plain
      obtain ⟨property, hfound, hrelated⟩ := exists_of_rel_left (h.rel_property segment) present
      exact ⟨property, .property plain hfound, hrelated⟩
  | branch plain combinator listed member =>
      rw [h.get?_ref] at plain
      obtain ⟨others, hfound, heach⟩ := exists_of_rel_left (h.rel_branches combinator) listed
      obtain ⟨branch, hbranch, hrelated⟩ := exists_mem_of_forall₂ heach.flip member
      exact ⟨branch, .branch plain combinator hfound hbranch, hrelated⟩

theorem Catalog.PathStep.reworded_back (hcatalog : catalog.WellFormed)
    (h : node.Reworded Json.pathLeeway other)
    (step : catalog.PathStep schema other segment rest schema' other' path') :
    ∃ node', catalog.PathStep schema node segment rest schema' node' path' ∧
      node'.Reworded Json.pathLeeway other' := by
  cases step with
  | target refers parsed resolved =>
      rw [← h.get?_ref] at refers
      exact ⟨_, .target refers parsed resolved, h.target (hcatalog.resolve resolved)⟩
  | property plain present =>
      rw [← h.get?_ref] at plain
      obtain ⟨property, hfound, hrelated⟩ := exists_of_rel_right (h.rel_property segment) present
      exact ⟨property, .property plain hfound, hrelated⟩
  | branch plain combinator listed member =>
      rw [← h.get?_ref] at plain
      obtain ⟨branches, hfound, heach⟩ := exists_of_rel_right (h.rel_branches combinator) listed
      obtain ⟨branch, hbranch, hrelated⟩ := exists_mem_of_forall₂ heach member
      exact ⟨branch, .branch plain combinator hfound hbranch, hrelated⟩

/-- A path leads to a property from both of two wordings or from neither. -/
theorem Catalog.reaches_of_reworded (hcatalog : catalog.WellFormed)
    (h : node.Reworded Json.pathLeeway other) (depth : Nat) :
    catalog.reaches depth schema node path = catalog.reaches depth schema other path := by
  induction depth generalizing schema node other path with
  | zero => cases path <;> rfl
  | succ depth ih =>
      cases path with
      | nil => rfl
      | cons segment rest =>
          rw [Bool.eq_iff_iff, reaches_succ_iff, reaches_succ_iff]
          constructor
          · rintro ⟨schema', node', path', step, hreaches⟩
            obtain ⟨other', step', hrelated⟩ := step.reworded hcatalog h
            exact ⟨schema', other', path', step', ih hrelated ▸ hreaches⟩
          · rintro ⟨schema', other', path', step, hreaches⟩
            obtain ⟨node', step', hrelated⟩ := step.reworded_back hcatalog h
            exact ⟨schema', node', path', step', (ih hrelated).symm ▸ hreaches⟩

/-- Whether a path names a property does not depend on the wording of the root, as long as both
wordings or neither have the shape of an array. -/
theorem Catalog.hasPath_of_reworded (hcatalog : catalog.WellFormed)
    (h : node.Reworded Json.pathLeeway other)
    (hroot : RootShape.ofSchema node = .array ↔ RootShape.ofSchema other = .array) (path : Path) :
    catalog.hasPath schema node path = catalog.hasPath schema other path := by
  have hreach {node other : Json} (h : node.Reworded Json.pathLeeway other) :
      catalog.reaches (maxPathDepth + 1) schema node path =
        catalog.reaches (maxPathDepth + 1) schema other path :=
    reaches_of_reworded hcatalog h (maxPathDepth + 1)
  by_cases hnode : RootShape.ofSchema node = .array
  · have hother := hroot.mp hnode
    rcases rel_cases (h.rel_get? (show Keyword.items.text ∈ Json.pathKeys by decide)) with
      ⟨hnone, hnone'⟩ | ⟨value, value', hvalue, hvalue', halike⟩
    · rw [hasPath_of_bare hnode hnone, hasPath_of_bare hother hnone']
    · cases halike.itemsAlike with
      | places each =>
          rw [hasPath_of_places hnode hvalue, hasPath_of_places hother hvalue']
          exact Json.any_eq_of_forall₂ each fun _ _ hplace => hreach hplace
      | element plain plain' related =>
          rw [hasPath_of_element hnode hvalue plain, hasPath_of_element hother hvalue' plain']
          exact hreach related
  · rw [hasPath_of_not_array hnode, hasPath_of_not_array (mt hroot.mpr hnode)]
    exact hreach h

end Paths

/-- A schema with types in the place of lists of one type compiles if and only if the schema does, and
then the two cannot be told apart, as long as no types come out differently where nodes are laid over
others. If the roots have one shape, overrides do the same to both; if both or neither have that of an
array, the same ones are unknown. -/
theorem indistinct_of_respelled {catalog : Catalog} {start : String} {root root' : Json}
    (hcatalog : catalog.WellFormed) (h : root.Respelled root')
    (hkept : ∀ current node node', ReachedTogether catalog start root root' current node node' →
      NothingClashes Json.respelling catalog current node node') :
    Outcome.Related AnyErrors (fun g g' => Generator.Indistinct catalog g g' ∧
        (RootShape.ofSchema root = RootShape.ofSchema root' → ∀ stores depth,
          Run.Agree (Halt.Related AnyErrors) Eq (materialize ⟨catalog, stores⟩ depth root g)
            (materialize ⟨catalog, stores⟩ depth root' g')))
      (Scope.compile ⟨start, catalog.library⟩ root)
      (Scope.compile ⟨start, catalog.library⟩ root') ∧
    ((RootShape.ofSchema root = .array ↔ RootShape.ofSchema root' = .array) → ∀ fixture : Fixture,
      { fixture with schema := root }.unknownPaths catalog =
        { fixture with schema := root' }.unknownPaths catalog) := by
  constructor
  · refine (h.indistinct (fun _ hkey => hkey) hcatalog hkept).imp (fun _ _ he => he) fun g g' hsame => ⟨hsame, fun hroot stores depth => ?_⟩
    have hshaped : materialize ⟨catalog, stores⟩ depth root g =
        materialize ⟨catalog, stores⟩ depth root' g := by
      rw [materialize, materialize, hroot]
    rw [hshaped]
    exact hsame.materialized stores depth root'
  · intro hroot fixture
    have hpaths : root.Reworded Json.pathLeeway root' :=
      h.weaken (by decide) False.elim (by decide)
    rw [Fixture.unknownPaths, Fixture.unknownPaths]
    simp only [Catalog.hasPath_of_reworded hcatalog hpaths hroot]

namespace Sample

/-- The type null as a list. -/
def listedNull : Json :=
  .obj [("type", .arr [.str "null"])]

/-- Two types with one of them laid over both by the only branch. -/
def twoTypesUnder (branch : Json) : Json :=
  .obj [("type", .arr [.str "null", .str "boolean"]), ("allOf", .arr [branch])]

theorem respelled_listedNull : listedNull.Respelled leafNode :=
  Json.reworded_of_forall₂ (by simp [Assoc.keys]) (by simp [Assoc.keys])
    (.cons ⟨rfl, .named trivial⟩ .nil)

theorem respelled_either : (either [listedNull]).Respelled (either [leafNode]) :=
  Json.reworded_of_forall₂ (by simp [Assoc.keys]) (by simp [Assoc.keys])
    (.cons ⟨rfl, .present (.other (by decide)) Iff.rfl⟩
      (.cons ⟨rfl, .present (.branches (show Keyword.anyOf ∈ _ by simp)
        (.each (.cons respelled_listedNull .nil))) (by simp)⟩ .nil))

theorem respelled_twoTypesUnder : (twoTypesUnder listedNull).Respelled (twoTypesUnder leafNode) :=
  Json.reworded_of_forall₂ (by simp [Assoc.keys]) (by simp [Assoc.keys])
    (.cons ⟨rfl, .present (.other (by decide)) Iff.rfl⟩
      (.cons ⟨rfl, .present (.branches (show Keyword.allOf ∈ _ by simp)
        (.each (.cons respelled_listedNull .nil))) (by simp)⟩ .nil))

theorem settled_null : Settled fun node => classify node = .ok (.single .null) where
  part hnull isPart := absurd isPart
    (Json.not_part hnull rfl (by simp) (by simp [Kind.type?]) (by simp [Kind.type?]))
  kind hnull classified := .inr ⟨_, (Except.ok.inj (hnull.symm.trans classified)).symm⟩

theorem null_listedNull : ∀ branch ∈ [listedNull],
    branch.IsObject ∧ classify (objectNode.merge branch) = .ok (.single .null) := by
  simp only [List.forall_mem_cons]
  exact ⟨⟨⟨_, rfl, by simp [Assoc.keys]⟩, rfl⟩, by simp⟩

theorem compile_twoTypesUnder_listed : scope.compile (twoTypesUnder listedNull) =
    .ok (.allOf (.choice .type [.leaf Leaf.null, .leaf Leaf.boolean] ⟨2, Nat.two_pos⟩)) := by
  have hboolean : scope.compile (.obj [("type", .str "boolean")]) = .ok (.leaf Leaf.boolean) := by
    rw [Scope.compile_eq_compileKind]
    change scope.compileType _ .boolean = _
    rw [Scope.compileType]
    rfl
  have hmerged : scope.compile (.obj [("type", .arr [.str "null", .str "boolean"])]) =
      .ok (.choice .type [.leaf Leaf.null, .leaf Leaf.boolean] ⟨2, Nat.two_pos⟩) := by
    rw [Scope.compile_of_classify (show classify _ = .ok (.union [.null, .boolean]) from rfl),
      Scope.compileKind_of_candidates? rfl]
    change scope.compileAll [leafNode, .obj [("type", .str "boolean")]] >>= _ = _
    rw [Scope.compileAll, Scope.compileAll, Scope.compileAll, compile_leafNode, hboolean]
    rfl
  rw [Scope.compile_of_classify
      (show classify (twoTypesUnder listedNull) = .ok (.allOf [listedNull]) from rfl),
    Scope.compileKind, Scope.compileAllOf_eq]
  change Generator.allOf <$> scope.compile (.obj [("type", .arr [.str "null", .str "boolean"])]) = _
  rw [hmerged]
  rfl

theorem compile_twoTypesUnder_named :
    scope.compile (twoTypesUnder leafNode) = .ok (.allOf (.leaf Leaf.null)) := by
  rw [Scope.compile_of_classify
      (show classify (twoTypesUnder leafNode) = .ok (.allOf [leafNode]) from rfl),
    Scope.compileKind, Scope.compileAllOf_eq]
  change Generator.allOf <$> scope.compile leafNode = _
  rw [compile_leafNode]
  rfl

end Sample

theorem indistinct_of_respelled_either :
    Sample.leafCatalog.WellFormed ∧
      (Sample.either [Sample.listedNull]).Respelled (Sample.either [Sample.leafNode]) ∧
      (∀ current node node', ReachedTogether Sample.leafCatalog "sample"
        (Sample.either [Sample.listedNull]) (Sample.either [Sample.leafNode]) current node node' →
          NothingClashes Json.respelling Sample.leafCatalog current node node') ∧
      Outcome.Related AnyErrors (Generator.Indistinct Sample.leafCatalog)
        (Scope.compile ⟨"sample", Sample.leafCatalog.library⟩ (Sample.either [Sample.listedNull]))
        (Scope.compile ⟨"sample", Sample.leafCatalog.library⟩ (Sample.either [Sample.leafNode])) ∧
      ∀ fixture : Fixture,
        { fixture with schema := Sample.either [Sample.listedNull] }.unknownPaths
            Sample.leafCatalog =
          { fixture with schema := Sample.either [Sample.leafNode] }.unknownPaths
            Sample.leafCatalog := by
  have hkept (current : String) (node node' : Json) (h : ReachedTogether Sample.leafCatalog "sample"
      (Sample.either [Sample.listedNull]) (Sample.either [Sample.leafNode]) current node node') :
      NothingClashes Json.respelling Sample.leafCatalog current node node' :=
    Sample.nothingClashes_either Sample.settled_null Sample.null_listedNull h
  obtain ⟨hcompiled, hunknown⟩ :=
    indistinct_of_respelled Sample.wellFormed_leafCatalog Sample.respelled_either hkept
  exact ⟨Sample.wellFormed_leafCatalog, Sample.respelled_either, hkept,
    hcompiled.imp (fun _ _ he => he) fun _ _ hsame => hsame.1, hunknown Iff.rfl⟩

/-- Over two types, a list of one replaces the first and its name replaces both: what was a choice
allows every value, and a single type does not. -/
theorem clashes_twoTypesUnder :
    ¬ ∀ (catalog : Catalog) (start : String) (root root' : Json), catalog.WellFormed →
      root.WellFormed → root.Respelled root' → Outcome.Related AnyErrors
        (fun g g' => ∀ value, g.validate value = g'.validate value)
        (Scope.compile ⟨start, catalog.library⟩ root)
        (Scope.compile ⟨start, catalog.library⟩ root') := by
  intro hclaim
  have hroot : (Sample.twoTypesUnder Sample.listedNull).WellFormed := by
    simp [Sample.twoTypesUnder, Sample.listedNull, Json.WellFormed, Json.WellFormedMembers,
      Json.WellFormedItems, Assoc.keys]
  have hrelated := hclaim Sample.leafCatalog "sample" _ _ Sample.wellFormed_leafCatalog hroot
    Sample.respelled_twoTypesUnder
  have hleft : Scope.compile ⟨"sample", Sample.leafCatalog.library⟩ _ = _ :=
    Sample.compile_twoTypesUnder_listed
  have hright : Scope.compile ⟨"sample", Sample.leafCatalog.library⟩ _ = _ :=
    Sample.compile_twoTypesUnder_named
  rw [hleft, hright] at hrelated
  cases hrelated.of_ok (.bool true)

end Specimen
