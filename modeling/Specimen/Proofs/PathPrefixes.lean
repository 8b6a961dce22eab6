import Specimen.Proofs.UnknownPaths

/-!
# Prefixes of paths

A walk along a path can be cut short wherever the path is: each step of it is a step along the
shorter path too, and an ended path takes no more steps. So the paths that name properties are closed
under prefixes, and the search reports with a path all that go on from it.
-/

namespace Specimen

namespace Catalog

variable {catalog : Catalog} {schema : String} {node : Json} {path more : Path}

/-- What a step leaves of a path ends like the path, and without that ending the step is there too. -/
theorem PathStep.cut {schema' : String} {node' : Json} {segment : String} {rest left : Path}
    (h : catalog.PathStep schema node segment (rest ++ more) schema' node' left) :
    ∃ shorter, left = shorter ++ more ∧
      catalog.PathStep schema node segment rest schema' node' shorter := by
  cases h with
  | target refers parsed resolved => exact ⟨segment :: rest, rfl, .target refers parsed resolved⟩
  | property plain present => exact ⟨rest, rfl, .property plain present⟩
  | branch plain combinator listed member =>
      exact ⟨segment :: rest, rfl, .branch plain combinator listed member⟩

/-- The shorter path takes the same steps as the longer one, so the limit that is enough for that is
enough for it. -/
theorem reaches_of_append {depth : Nat} (h : catalog.reaches depth schema node (path ++ more) = true) :
    catalog.reaches depth schema node path = true := by
  induction depth generalizing schema node path with
  | zero =>
      cases path with
      | nil => rfl
      | cons segment rest => cases h
  | succ depth ih =>
      cases path with
      | nil => exact reaches_nil _
      | cons segment rest =>
          rw [List.cons_append, reaches_succ_iff] at h
          obtain ⟨schema', node', left, hstep, hleft⟩ := h
          obtain ⟨shorter, rfl, hshort⟩ := hstep.cut
          exact (reaches_succ_iff depth).mpr ⟨_, _, _, hshort, ih hleft⟩

theorem hasPath_of_append (h : catalog.hasPath schema node (path ++ more) = true) :
    catalog.hasPath schema node path = true := by
  by_cases hshape : RootShape.ofSchema node = .array
  · cases hitems : node.get? Keyword.items.text with
    | none =>
        rw [hasPath_of_bare hshape hitems] at h
        cases h
    | some item =>
        by_cases hplaces : ∃ places, item = .arr places
        · obtain ⟨places, rfl⟩ := hplaces
          rw [hasPath_of_places hshape hitems, List.any_eq_true] at h ⊢
          obtain ⟨place, hplace, hreaches⟩ := h
          exact ⟨place, hplace, reaches_of_append hreaches⟩
        · have hplain : ∀ places, item ≠ .arr places := fun places heq => hplaces ⟨places, heq⟩
          rw [hasPath_of_element hshape hitems hplain] at h ⊢
          exact reaches_of_append h
  · rw [hasPath_of_not_array hshape] at h ⊢
    exact reaches_of_append h

end Catalog

theorem Overrides.mem_paths {overrides : Overrides} {text : String} :
    text ∈ overrides.paths ↔ ∃ path ∈ overrides.segments, path.text = text := by
  simp only [paths, sorted, List.mem_mergeSort, List.mem_map]

theorem Overrides.Dotted.eq_ofText {overrides : Overrides} (h : overrides.Dotted) {path : Path}
    (hpath : path ∈ overrides.segments) : path = Path.ofText path.text := by
  obtain ⟨text, rfl⟩ := h path hpath
  rw [Path.text_ofText]

/-- With a path that names no property, the search reports all registered paths that go on from it. -/
theorem Fixture.mem_unknownPaths_of_prefix {fixture : Fixture} {catalog : Catalog}
    (hdotted : fixture.overrides.Dotted) {text longer : String}
    (hreported : text ∈ fixture.unknownPaths catalog) (hregistered : longer ∈ fixture.overrides.paths)
    (hbegins : Path.ofText text <+: Path.ofText longer) :
    longer ∈ fixture.unknownPaths catalog := by
  obtain ⟨path, hpath, hmissed, rfl⟩ := mem_unknownPaths.mp hreported
  obtain ⟨extended, hextended, rfl⟩ := Overrides.mem_paths.mp hregistered
  rw [← hdotted.eq_ofText hpath, ← hdotted.eq_ofText hextended] at hbegins
  obtain ⟨more, rfl⟩ := hbegins
  refine mem_unknownPaths.mpr ⟨_, hextended, ?_, rfl⟩
  rw [Bool.eq_false_iff] at hmissed ⊢
  exact fun hfound => hmissed (Catalog.hasPath_of_append hfound)

/-- Known paths are closed under prefixes: where a path names a property so does every beginning of
it, also in catalogs whose references go round. So a path is reported together with every registered
path that goes on from it. -/
theorem Catalog.knows_prefixes (catalog : Catalog) :
    (∀ schema node path more, catalog.hasPath schema node (path ++ more) = true →
      catalog.hasPath schema node path = true) ∧
    ∀ fixture : Fixture, fixture.overrides.Dotted →
      ∀ text ∈ fixture.unknownPaths catalog, ∀ longer ∈ fixture.overrides.paths,
        Path.ofText text <+: Path.ofText longer → longer ∈ fixture.unknownPaths catalog :=
  ⟨fun _ _ _ _ => hasPath_of_append,
    fun _ hdotted _ hreported _ => Fixture.mem_unknownPaths_of_prefix hdotted hreported⟩

namespace Sample

/-- A node whose one property is a node like itself. -/
def endless : Json :=
  .obj [("properties", .obj [("child", .obj [("$ref", .str "#")])])]

def endlessCatalog : Catalog :=
  ⟨[("sample", endless)], library⟩

/-- A fixture with an override at a path that is not there and one below that. -/
def astray : Fixture :=
  fixtureOf endless (.object [("child", .reference "sample" ⟨none, []⟩ (.obj []))])
    ⟨[(["child", "name"], .value .null), (["child", "name", "first"], .value .null)]⟩

theorem dotted_astray : astray.overrides.Dotted := by
  intro path hpath
  have hcases : path = ["child", "name"] ∨ path = ["child", "name", "first"] := by
    simpa [Overrides.segments, astray, fixtureOf, Assoc.keys] using hpath
  rcases hcases with rfl | rfl
  · exact ⟨"child.name", by decide⟩
  · exact ⟨"child.name.first", by decide⟩

end Sample

theorem knows_prefixes_endless :
    Sample.endlessCatalog.hasPath "sample" Sample.endless (["child"] ++ ["child"]) = true ∧
      Sample.endlessCatalog.hasPath "sample" Sample.endless ["child"] = true ∧
        Sample.astray.overrides.Dotted ∧
          "child.name" ∈ Sample.astray.unknownPaths Sample.endlessCatalog ∧
            "child.name.first" ∈ Sample.astray.overrides.paths ∧
              Path.ofText "child.name" <+: Path.ofText "child.name.first" ∧
                "child.name.first" ∈ Sample.astray.unknownPaths Sample.endlessCatalog := by
  have htwice : Sample.endlessCatalog.hasPath "sample" Sample.endless (["child"] ++ ["child"]) =
      true := rfl
  have hreported : "child.name" ∈ Sample.astray.unknownPaths Sample.endlessCatalog :=
    Fixture.mem_unknownPaths.mpr ⟨["child", "name"], by decide, rfl, by decide⟩
  have hregistered : "child.name.first" ∈ Sample.astray.overrides.paths :=
    Overrides.mem_paths.mpr ⟨["child", "name", "first"], by decide, by decide⟩
  have hbegins : Path.ofText "child.name" <+: Path.ofText "child.name.first" :=
    ⟨["first"], by decide⟩
  obtain ⟨hcut, hreport⟩ := Catalog.knows_prefixes Sample.endlessCatalog
  exact ⟨htwice, hcut _ _ _ _ htwice, Sample.dotted_astray, hreported, hregistered, hbegins,
    hreport _ Sample.dotted_astray _ hreported _ hregistered hbegins⟩

end Specimen
