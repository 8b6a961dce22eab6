import Specimen.Proofs.Overriding

/-!
# Overrides that a run does not meet

Materializing looks overrides up at the positions of its value and nowhere else. A plain run, which
generates a draft and resolves it, passes overrides by when it ends in a value with none of them at
its positions; it passes the empty overrides by however it ends. Materializing then does what the
plain run does, up to the same error and the same source.
-/

namespace Specimen

namespace Materialization

variable {α β : Type}

theorem ofGeneration_pure (value : α) : ofGeneration (pure value) = pure value := by
  funext progress
  rw [ofGeneration_apply]
  rfl

theorem ofGeneration_bind (x : Generation α) (f : α → Generation β) :
    ofGeneration (x >>= f) = ofGeneration x >>= fun value => ofGeneration (f value) := by
  funext progress
  rw [ofGeneration_apply, Run.bind_apply, Run.bind_apply, ofGeneration_apply]
  rcases x progress.source with ⟨halt | value, source⟩
  · rfl
  · dsimp only
    rw [ofGeneration_apply]

end Materialization

/-- A run passes overrides by if there are none, and otherwise if it ends in a value with no
override at its positions. -/
def Overrides.PassedBy {α : Type} (overrides : Overrides) (run : Except Halt α × Source)
    (positions : α → List (Path × Json)) : Prop :=
  ∀ path, overrides.contains path = true →
    ∃ value after, run = (.ok value, after) ∧ ∀ position ∈ positions value, position.1 ≠ path

namespace Overrides.PassedBy

variable {α β : Type} {overrides : Overrides} {run : Except Halt α × Source}
  {positions : α → List (Path × Json)}

theorem empty : Overrides.empty.PassedBy run positions := by
  intro path h
  cases h

theorem of_ok {value : α} {after : Source}
    (h : ∀ position ∈ positions value, overrides.get? position.1 = none) :
    overrides.PassedBy (.ok value, after) positions := by
  intro path hcontains
  refine ⟨value, after, rfl, ?_⟩
  rintro position hposition rfl
  obtain ⟨entry, hentry⟩ := contains_iff.mp hcontains
  rw [h position hposition] at hentry
  cases hentry

/-- A part of a run passes overrides by if its positions are among those of the whole run. -/
theorem part {other : Except Halt β × Source} {others : β → List (Path × Json)}
    (h : overrides.PassedBy run positions)
    (hpart : ∀ value after, run = (.ok value, after) →
      ∃ found left, other = (.ok found, left) ∧ others found ⊆ positions value) :
    overrides.PassedBy other others := by
  intro path hcontains
  obtain ⟨value, after, hrun, hfree⟩ := h path hcontains
  obtain ⟨found, left, hother, hsubset⟩ := hpart value after hrun
  exact ⟨found, left, hother, fun position hposition => hfree position (hsubset hposition)⟩

theorem get?_eq_none {path : Path} (h : overrides.PassedBy run positions)
    (hmem : ∀ value after, run = (.ok value, after) → ∃ shown, (path, shown) ∈ positions value) :
    overrides.get? path = none := by
  by_contra hsome
  obtain ⟨entry, hentry⟩ := Option.ne_none_iff_exists'.mp hsome
  obtain ⟨value, after, hrun, hfree⟩ := h path (contains_of_get? hentry)
  obtain ⟨shown, hshown⟩ := hmem value after hrun
  exact hfree (path, shown) hshown rfl

end Overrides.PassedBy

section Plain

variable {setting : Setting} {depth : Nat} {path : Path} {overrides : Overrides}

theorem overridden?_of_get?_eq_none {progress : Progress}
    (h : progress.overrides.get? path = none) :
    overridden? setting depth path progress = (.ok none, progress) := by
  have hget : (get : Materialization Progress) progress = (.ok progress, progress) := rfl
  rw [overridden?, Run.bind_apply, hget]
  dsimp only
  rw [h]
  rfl

mutual

/-- A walk that finds nothing to replace changes nothing. -/
theorem substitute_eq_self {visit : Path → Materialization (Option Json)} {path : Path}
    {value : Json} {progress : Progress}
    (h : ∀ position ∈ value.positions path, visit position.1 progress = (.ok none, progress)) :
    substitute visit path value progress = (.ok value, progress) := by
  match value with
  | .obj members =>
      rw [substitute, Run.bind_apply, substituteMembers_eq_self h]
      rfl
  | .null | .bool _ | .int _ | .float _ | .str _ | .arr _ => rfl
termination_by structural value

theorem substituteMembers_eq_self {visit : Path → Materialization (Option Json)} {path : Path}
    {members : List (String × Json)} {progress : Progress}
    (h : ∀ position ∈ Json.positionsMembers path members,
      visit position.1 progress = (.ok none, progress)) :
    substituteMembers visit path members progress = (.ok members, progress) := by
  match members with
  | [] => rfl
  | (name, value) :: rest =>
      simp only [Json.positionsMembers, List.forall_mem_cons, List.forall_mem_append] at h
      obtain ⟨hfirst, hbelow, hrest⟩ := h
      rw [substituteMembers, Run.bind_apply, hfirst]
      dsimp only
      rw [Run.bind_apply, substitute_eq_self hbelow]
      dsimp only
      rw [Run.bind_apply, substituteMembers_eq_self hrest]
      rfl
termination_by structural members

end

/-- The positions at a member and below it. -/
def Json.positionsAt (path : Path) (member : String × Json) : List (Path × Json) :=
  (path ++ [member.1], member.2) :: member.2.positions (path ++ [member.1])

theorem Json.positionsMembers_eq_flatMap (path : Path) (members : List (String × Json)) :
    positionsMembers path members = members.flatMap (positionsAt path) := by
  induction members with
  | nil => rfl
  | cons member rest ih => rw [positionsMembers, ih, List.flatMap_cons]; rfl

/-- If every member of a list is materialized as in a plain run that passes the overrides by, so is
the list. -/
theorem mapM_eq_ofGeneration {α β : Type} {plain : α → Generation β} {full : α → Materialization β}
    {positions : β → List (Path × Json)}
    (heach : ∀ a source, overrides.PassedBy (plain a source) positions →
      full a ⟨source, overrides⟩ = Materialization.ofGeneration (plain a) ⟨source, overrides⟩)
    {members : List α} {source : Source}
    (h : overrides.PassedBy (members.mapM plain source) (List.flatMap positions)) :
    members.mapM full ⟨source, overrides⟩ =
      Materialization.ofGeneration (members.mapM plain) ⟨source, overrides⟩ := by
  induction members generalizing source with
  | nil => rw [List.mapM_nil, List.mapM_nil, Materialization.ofGeneration_pure]
  | cons first rest ih =>
      rw [List.mapM_cons] at h
      have hfirst : overrides.PassedBy (plain first source) positions := by
        apply h.part
        intro values after hrun
        obtain ⟨value, between, hvalue, hnext⟩ := Run.bind_eq_ok.mp hrun
        obtain ⟨others, left, -, hpure⟩ := Run.bind_eq_ok.mp hnext
        obtain ⟨rfl, -⟩ := Run.pure_eq_ok.mp hpure
        refine ⟨value, between, hvalue, ?_⟩
        rw [List.flatMap_cons]
        exact List.subset_append_left _ _
      rw [List.mapM_cons, List.mapM_cons, Materialization.ofGeneration_bind,
        Run.bind_congr_left (heach first source hfirst)]
      apply Run.bind_congr_of_ok
      intro value progress hvalue
      obtain ⟨hplain, hkeeps⟩ := Materialization.ofGeneration_eq_ok hvalue
      obtain ⟨between, kept⟩ := progress
      cases hkeeps
      have hrest : overrides.PassedBy (rest.mapM plain between) (List.flatMap positions) := by
        apply h.part
        intro values after hrun
        obtain ⟨found, middle, hfound, hnext⟩ := Run.bind_eq_ok.mp hrun
        rw [hplain] at hfound
        cases hfound
        obtain ⟨others, left, hothers, hpure⟩ := Run.bind_eq_ok.mp hnext
        obtain ⟨rfl, -⟩ := Run.pure_eq_ok.mp hpure
        refine ⟨others, left, hothers, ?_⟩
        rw [List.flatMap_cons]
        exact List.subset_append_right _ _
      rw [Materialization.ofGeneration_bind, Run.bind_congr_left (ih hrest)]
      simp only [Materialization.ofGeneration_pure]

/-- Flattening at a depth does what resolving does when the overrides are passed by. -/
def FlattensPlainly (setting : Setting) (overrides : Overrides) (depth : Nat) : Prop :=
  ∀ {path : Path} {draft : Draft} {source : Source},
    overrides.PassedBy (draft.resolve setting.catalog depth source) (Json.positions path) →
      flatten setting depth path draft ⟨source, overrides⟩ =
        Materialization.ofGeneration (draft.resolve setting.catalog depth) ⟨source, overrides⟩

theorem flattenField_eq_ofGeneration (hflatten : FlattensPlainly setting overrides depth)
    {field : String × Generator} {source : Source}
    (h : overrides.PassedBy (resolveField setting.catalog depth field source)
      (Json.positionsAt path)) :
    flattenField setting depth path field ⟨source, overrides⟩ =
      Materialization.ofGeneration (resolveField setting.catalog depth field)
        ⟨source, overrides⟩ := by
  have habsent : overrides.get? (path ++ [field.1]) = none := by
    apply h.get?_eq_none
    intro member after hrun
    obtain ⟨draft, between, -, hnext⟩ := Run.bind_eq_ok.mp hrun
    obtain ⟨value, left, -, hpure⟩ := Run.bind_eq_ok.mp hnext
    obtain ⟨rfl, -⟩ := Run.pure_eq_ok.mp hpure
    exact ⟨value, List.mem_cons_self⟩
  rw [flattenField, Run.bind_apply, overridden?_of_get?_eq_none habsent]
  dsimp only
  rw [resolveField, Materialization.ofGeneration_bind]
  apply Run.bind_congr_of_ok
  intro draft progress hdraft
  obtain ⟨hplain, hkeeps⟩ := Materialization.ofGeneration_eq_ok hdraft
  obtain ⟨between, kept⟩ := progress
  cases hkeeps
  have hbelow : overrides.PassedBy (draft.resolve setting.catalog depth between)
      (Json.positions (path ++ [field.1])) := by
    apply h.part
    intro member after hrun
    obtain ⟨found, middle, hfound, hnext⟩ := Run.bind_eq_ok.mp hrun
    rw [hplain] at hfound
    cases hfound
    obtain ⟨value, left, hvalue, hpure⟩ := Run.bind_eq_ok.mp hnext
    obtain ⟨rfl, -⟩ := Run.pure_eq_ok.mp hpure
    exact ⟨value, left, hvalue, List.subset_cons_self _ _⟩
  rw [Materialization.ofGeneration_bind, Run.bind_congr_left (hflatten hbelow)]
  simp only [Materialization.ofGeneration_pure]

theorem flatten_value_eq_self {value : Json} {source : Source}
    (h : overrides.PassedBy (.ok value, source) (Json.positions path)) :
    flatten setting (depth + 1) path (.value value) ⟨source, overrides⟩ =
      (.ok value, ⟨source, overrides⟩) := by
  rw [flatten]
  apply substitute_eq_self
  rintro ⟨visited, shown⟩ hvisited
  have habsent : overrides.get? visited = none := by
    apply h.get?_eq_none
    rintro found after hrun
    cases hrun
    exact ⟨shown, hvisited⟩
  rw [Run.bind_apply, overridden?_of_get?_eq_none habsent]
  rfl

theorem flattensPlainly (setting : Setting) (overrides : Overrides) (depth : Nat) :
    FlattensPlainly setting overrides depth := by
  induction depth with
  | zero =>
      intro path draft source _
      rw [Materialization.ofGeneration_apply]
      rfl
  | succ depth ih =>
      intro path draft source h
      cases draft with
      | value value =>
          rw [Materialization.ofGeneration_apply]
          exact flatten_value_eq_self h
      | fields fields =>
          have hmembers : overrides.PassedBy
              (fields.mapM (resolveField setting.catalog depth) source)
              (List.flatMap (Json.positionsAt path)) := by
            apply h.part
            intro value after hrun
            obtain ⟨members, between, hmembers, hpure⟩ := Run.bind_eq_ok.mp hrun
            obtain ⟨rfl, -⟩ := Run.pure_eq_ok.mp hpure
            refine ⟨members, between, hmembers, ?_⟩
            rw [← Json.positionsMembers_eq_flatMap]
            exact List.Subset.refl _
          have heach : fields.mapM (flattenField setting depth path) ⟨source, overrides⟩ =
              Materialization.ofGeneration (fields.mapM (resolveField setting.catalog depth))
                ⟨source, overrides⟩ := by
            apply mapM_eq_ofGeneration ?_ hmembers
            intro field source hfield
            exact flattenField_eq_ofGeneration ih hfield
          rw [flatten_fields, Draft.resolve_fields, Materialization.ofGeneration_bind,
            Run.bind_congr_left heach]
          simp only [Materialization.ofGeneration_pure]
      | items drafts => rw [flatten_items]

/-- The elements of a root array are flattened each on its own, which makes the array that is
resolved as a whole. -/
theorem flattenElements_eq_ofGeneration {lower : Nat} {drafts : List Draft} {source : Source}
    (h : overrides.PassedBy (drafts.mapM (Draft.resolve setting.catalog lower) source)
      (List.flatMap (Json.positions []))) :
    (do return .arr (← drafts.mapM (flatten setting lower [])) : Materialization Json)
        ⟨source, overrides⟩ =
      Materialization.ofGeneration
        (do return .arr (← drafts.mapM (Draft.resolve setting.catalog lower)))
        ⟨source, overrides⟩ := by
  have heach : drafts.mapM (flatten setting lower []) ⟨source, overrides⟩ =
      Materialization.ofGeneration (drafts.mapM (Draft.resolve setting.catalog lower))
        ⟨source, overrides⟩ := by
    apply mapM_eq_ofGeneration ?_ h
    intro draft source hdraft
    exact flattensPlainly setting overrides lower hdraft
  rw [Materialization.ofGeneration_bind, Run.bind_congr_left heach]
  simp only [Materialization.ofGeneration_pure]

/-- The values of a root array stay as they are. -/
theorem flattenValues_eq {lower : Nat} {values : List Json} {source : Source}
    (h : overrides.PassedBy (.ok values, source) (List.flatMap (Json.positions []))) :
    (do return .arr (← values.mapM fun v => flatten setting (lower + 1) [] (.value v)) :
        Materialization Json) ⟨source, overrides⟩ = (.ok (.arr values), ⟨source, overrides⟩) := by
  have hmap : values.mapM (fun v => flatten setting (lower + 1) [] (.value v)) =
      (values.map Draft.value).mapM (flatten setting (lower + 1) []) := by
    rw [List.mapM_map]
    rfl
  have hplain : (values.map Draft.value).mapM (Draft.resolve setting.catalog (lower + 1)) =
      pure values := by
    rw [List.mapM_map]
    exact List.mapM_pure.trans (by rw [List.map_id'])
  have hpassed : overrides.PassedBy
      ((values.map Draft.value).mapM (Draft.resolve setting.catalog (lower + 1)) source)
      (List.flatMap (Json.positions [])) := by
    rw [hplain]
    exact h
  rw [hmap, flattenElements_eq_ofGeneration hpassed, hplain]
  rfl

/-- A root is materialized as its draft is resolved. -/
theorem materialize_eq_ofGeneration {schema : Json} {generator : Generator} {source : Source}
    (h : overrides.PassedBy (generator.produce setting.catalog depth source)
      (RootShape.ofSchema schema).positions) :
    materialize setting depth schema generator ⟨source, overrides⟩ =
      Materialization.ofGeneration (generator.produce setting.catalog depth)
        ⟨source, overrides⟩ := by
  rw [Generator.produce, Materialization.ofGeneration_bind, materialize]
  apply Run.bind_congr_of_ok
  intro draft progress hdraft
  obtain ⟨hgenerate, hkeeps⟩ := Materialization.ofGeneration_eq_ok hdraft
  obtain ⟨between, kept⟩ := progress
  cases hkeeps
  have hresolve : overrides.PassedBy (draft.resolve setting.catalog depth between)
      (RootShape.ofSchema schema).positions := by
    apply h.part
    intro value after hrun
    obtain ⟨found, middle, hfound, hresolve⟩ := Run.bind_eq_ok.mp hrun
    rw [hgenerate] at hfound
    cases hfound
    exact ⟨value, after, hresolve, List.Subset.refl _⟩
  cases hshape : RootShape.ofSchema schema with
  | other => rfl
  | object =>
      rw [hshape] at hresolve
      exact flattensPlainly setting overrides depth hresolve
  | array =>
      rw [hshape] at hresolve
      -- the depth is not used up, since the draft was generated within it
      obtain ⟨lower, rfl⟩ := Generator.exists_depth_of_drafts ⟨source, between, hgenerate⟩
      cases draft with
      | fields fields => rfl
      | items drafts =>
          apply flattenElements_eq_ofGeneration
          apply hresolve.part
          intro value after hrun
          obtain ⟨values, left, hvalues, hpure⟩ := Run.bind_eq_ok.mp hrun
          obtain ⟨rfl, -⟩ := Run.pure_eq_ok.mp hpure
          exact ⟨values, left, hvalues, List.Subset.refl _⟩
      | value v =>
          cases v with
          | arr values =>
              apply flattenValues_eq
              apply hresolve.part
              intro value after hrun
              cases hrun
              exact ⟨values, between, rfl, List.Subset.refl _⟩
          | null | bool | int | float | str | obj => rfl

end Plain

/-- Materializing without overrides is generating and resolving: the result or the error is the
same, and so is the source that is left. The same holds of overrides none of which is at a position
of the value that the plain run ends in, and these are left as they were, with no call behind
them. -/
theorem materialize_eq_produce {setting : Setting} {depth : Nat} {schema : Json}
    {generator : Generator} {source : Source} :
    materialize setting depth schema generator ⟨source, .empty⟩ =
        ((generator.produce setting.catalog depth source).1,
          ⟨(generator.produce setting.catalog depth source).2, .empty⟩) ∧
      ∀ {overrides : Overrides} {value : Json} {after : Source},
        generator.produce setting.catalog depth source = (.ok value, after) →
          (∀ position ∈ (RootShape.ofSchema schema).positions value,
            overrides.get? position.1 = none) →
            materialize setting depth schema generator ⟨source, overrides⟩ =
              (.ok value, ⟨after, overrides⟩) := by
  constructor
  · rw [materialize_eq_ofGeneration .empty, Materialization.ofGeneration_apply]
  · intro overrides value after hplain hfree
    have hpassed : overrides.PassedBy (generator.produce setting.catalog depth source)
        (RootShape.ofSchema schema).positions := by
      rw [hplain]
      exact .of_ok hfree
    rw [materialize_eq_ofGeneration hpassed, Materialization.ofGeneration_apply, hplain]

namespace Sample

/-- Functions below a member that is an array and at a member that does not exist. -/
def unmet : Overrides :=
  ⟨[(["pair", "left"], .function (fun call => .int call) 0),
    (["other"], .function (fun call => .int call) 3)]⟩

theorem produce_document :
    (Generator.object fields).produce catalog 4 (.mixed [0] 0) = (.ok value, .mixed [] 0) := by
  change (Draft.fields fields).resolve catalog 4 (.mixed [0] 0) = _
  exact resolve_fields

end Sample

theorem materialize_eq_produce_document :
    (Generator.object Sample.fields).produce Sample.catalog 4 (.mixed [0] 0) =
        (.ok Sample.value, .mixed [] 0) ∧
      (∀ position ∈ (RootShape.ofSchema Sample.document).positions Sample.value,
        Sample.unmet.get? position.1 = none) ∧
      materialize Sample.setting 4 Sample.document (.object Sample.fields)
          ⟨.mixed [0] 0, Sample.unmet⟩ = (.ok Sample.value, ⟨.mixed [] 0, Sample.unmet⟩) := by
  have hfree : ∀ position ∈ (RootShape.ofSchema Sample.document).positions Sample.value,
      Sample.unmet.get? position.1 = none := by
    change ∀ position ∈ [(["id"], Json.null), (["next"], Json.null), (["pair"], _)], _
    simp only [List.forall_mem_cons]
    exact ⟨rfl, rfl, rfl, by simp⟩
  exact ⟨Sample.produce_document, hfree, materialize_eq_produce.2 Sample.produce_document hfree⟩

end Specimen
