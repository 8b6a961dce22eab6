import Specimen.Proofs.Rewording

/-!
# Values in the place of schemas

Where a schema is expected, a value that is no object counts as the empty schema when it is compiled
by itself. Laid over another schema the two differ: the empty schema lets everything through, and any
other value replaces what is there. So a value that is no object can be exchanged for the empty schema
where it is laid over nothing that is read.
-/

namespace Specimen

/-- Wordings in which values that are no objects may become objects without keywords. -/
def Json.blanking : Leeway where
  keys := readKeys
  blanks := True
  names := False

/-- The second schema is the first with empty schemas in the place of values that are no objects. -/
abbrev Json.Blanked : Json → Json → Prop :=
  Reworded Json.blanking

/-- A schema with the empty schema in the place of values that are no objects compiles if and only if
the schema does, and then the two cannot be told apart, as long as no such value covers anything that
is read when it is laid over a node. -/
theorem indistinct_of_blanked {catalog : Catalog} {start : String} {root root' : Json}
    (hcatalog : catalog.WellFormed) (h : root.Blanked root')
    (hkept : ∀ current node node', ReachedTogether catalog start root root' current node node' →
      NothingClashes Json.blanking catalog current node node') :
    Outcome.Related AnyErrors (Generator.Indistinct catalog)
      (Scope.compile ⟨start, catalog.library⟩ root)
      (Scope.compile ⟨start, catalog.library⟩ root') :=
  h.indistinct (fun _ hkey => hkey) hcatalog hkept

namespace Sample

/-- A type with one branch laid over it. -/
def nullUnder (branch : Json) : Json :=
  .obj [("type", .str "null"), ("allOf", .arr [branch])]

/-- A node with a single property. -/
def withMember (property : Json) : Json :=
  .obj [("properties", .obj [("n", property)])]

theorem blanked_true : (Json.bool true).Blanked (.obj []) :=
  .blank trivial (by simp) ⟨_, rfl, List.nodup_nil⟩ fun _ _ => rfl

theorem blanked_leafNode : leafNode.Blanked leafNode := by
  apply Json.reworded_self
  simp [leafNode, Json.WellFormed, Json.WellFormedMembers, Assoc.keys]

theorem blanked_withMember : (withMember (.bool true)).Blanked (withMember (.obj [])) :=
  Json.reworded_of_forall₂ (by simp [Assoc.keys]) (by simp [Assoc.keys])
    (.cons ⟨rfl, .present (.properties (.each (by decide) (.cons (.related blanked_true) .nil)))
      (by simp)⟩ .nil)

theorem blanked_either :
    (either [leafNode, withMember (.bool true)]).Blanked (either [leafNode, withMember (.obj [])]) :=
  Json.reworded_of_forall₂ (by simp [Assoc.keys]) (by simp [Assoc.keys])
    (.cons ⟨rfl, .present (.other (by decide)) Iff.rfl⟩
      (.cons ⟨rfl, .present (.branches (show Keyword.anyOf ∈ _ by simp)
        (.each (.cons blanked_leafNode (.cons blanked_withMember .nil)))) (by simp)⟩ .nil))

theorem blanked_nullUnder : (nullUnder (.bool true)).Blanked (nullUnder (.obj [])) :=
  Json.reworded_of_forall₂ (by simp [Assoc.keys]) (by simp [Assoc.keys])
    (.cons ⟨rfl, .present (.other (by decide)) Iff.rfl⟩
      (.cons ⟨rfl, .present (.branches (show Keyword.allOf ∈ _ by simp)
        (.each (.cons blanked_true .nil))) (by simp)⟩ .nil))

/-- The branches as they are laid over the type object, and what is below them. -/
def NullOrMember (node : Json) : Prop :=
  node = objectNode.merge (withMember (.bool true)) ∨ classify node = .ok .empty ∨
    classify node = .ok (.single .null)

theorem settled_nullOrMember : Settled NullOrMember where
  part {node part} hnode isPart := by
    rcases hnode with rfl | hempty | hnull
    · obtain ⟨properties, hpresent, property, hproperty, rfl⟩ := isPart.exists_property rfl rfl
      cases hpresent
      obtain rfl := List.mem_singleton.mp hproperty
      exact .inr (.inl rfl)
    · exact absurd isPart (Json.not_part hempty rfl (by simp) (by simp [Kind.type?])
        (by simp [Kind.type?]))
    · exact absurd isPart (Json.not_part hnull rfl (by simp) (by simp [Kind.type?])
        (by simp [Kind.type?]))
  kind hnode classified := by
    rcases hnode with rfl | hempty | hnull
    · cases classified
      exact .inr ⟨_, rfl⟩
    · cases Except.ok.inj (hempty.symm.trans classified)
      exact .inl rfl
    · cases Except.ok.inj (hnull.symm.trans classified)
      exact .inr ⟨_, rfl⟩

theorem nullOrMember_branches : ∀ branch ∈ [leafNode, withMember (.bool true)],
    branch.IsObject ∧ NullOrMember (objectNode.merge branch) := by
  simp only [List.forall_mem_cons]
  exact ⟨⟨⟨_, rfl, by simp [Assoc.keys]⟩, .inr (.inr rfl)⟩, ⟨⟨_, rfl, by simp [Assoc.keys]⟩, .inl rfl⟩,
    by simp⟩

theorem compile_nullUnder_true : scope.compile (nullUnder (.bool true)) = .ok (.allOf .empty) := by
  have hmerged : scope.compile (.bool true) = .ok .empty := Scope.compile_eq_compileKind scope _
  exact Scope.compile_allOf rfl hmerged

theorem compile_nullUnder_empty :
    scope.compile (nullUnder (.obj [])) = .ok (.allOf (.leaf Leaf.null)) :=
  Scope.compile_allOf rfl compile_leafNode

end Sample

theorem indistinct_of_blanked_either :
    Sample.leafCatalog.WellFormed ∧
      (Sample.either [Sample.leafNode, Sample.withMember (.bool true)]).Blanked
        (Sample.either [Sample.leafNode, Sample.withMember (.obj [])]) ∧
      (∀ current node node', ReachedTogether Sample.leafCatalog "sample"
        (Sample.either [Sample.leafNode, Sample.withMember (.bool true)])
        (Sample.either [Sample.leafNode, Sample.withMember (.obj [])]) current node node' →
          NothingClashes Json.blanking Sample.leafCatalog current node node') ∧
      Outcome.Related AnyErrors (Generator.Indistinct Sample.leafCatalog)
        (Scope.compile ⟨"sample", Sample.leafCatalog.library⟩
          (Sample.either [Sample.leafNode, Sample.withMember (.bool true)]))
        (Scope.compile ⟨"sample", Sample.leafCatalog.library⟩
          (Sample.either [Sample.leafNode, Sample.withMember (.obj [])])) := by
  have hkept (current : String) (node node' : Json) (h : ReachedTogether Sample.leafCatalog "sample"
      (Sample.either [Sample.leafNode, Sample.withMember (.bool true)])
      (Sample.either [Sample.leafNode, Sample.withMember (.obj [])]) current node node') :
      NothingClashes Json.blanking Sample.leafCatalog current node node' :=
    Sample.nothingClashes_either Sample.settled_nullOrMember Sample.nullOrMember_branches h
  exact ⟨Sample.wellFormed_leafCatalog, Sample.blanked_either, hkept,
    indistinct_of_blanked Sample.wellFormed_leafCatalog Sample.blanked_either hkept⟩

/-- A branch that is no object covers the type that stands beside the branches: the value is an empty
object, and with an empty branch it is one of the type. -/
theorem covers_nullUnder :
    ¬ ∀ (catalog : Catalog) (start : String) (root root' : Json), catalog.WellFormed →
      root.WellFormed → root.Blanked root' → Outcome.Related AnyErrors
        (fun g g' => ∀ depth, Run.Agree (Halt.Related AnyErrors) Eq (g.produce catalog depth)
          (g'.produce catalog depth))
        (Scope.compile ⟨start, catalog.library⟩ root)
        (Scope.compile ⟨start, catalog.library⟩ root') := by
  intro hclaim
  have hroot : (Sample.nullUnder (.bool true)).WellFormed := by
    simp [Sample.nullUnder, Json.WellFormed, Json.WellFormedMembers, Json.WellFormedItems,
      Assoc.keys]
  have hrelated := hclaim Sample.leafCatalog "sample" _ _ Sample.wellFormed_leafCatalog hroot
    Sample.blanked_nullUnder
  have hleft : Scope.compile ⟨"sample", Sample.leafCatalog.library⟩ _ = _ :=
    Sample.compile_nullUnder_true
  have hright : Scope.compile ⟨"sample", Sample.leafCatalog.library⟩ _ = _ :=
    Sample.compile_nullUnder_empty
  rw [hleft, hright] at hrelated
  obtain ⟨-, hvalues⟩ := hrelated.of_ok 2 default
  cases hvalues.of_ok

end Specimen
