import Specimen.Proofs.Removing
import Specimen.Proofs.Searching

/-!
# Where the search goes far enough

The search for a path goes over the raw schema. Runs go by what the schema is compiled to instead:
branches are laid over the node they stand in, types of a union are written into it, and a target has
what stands beside the reference laid over it. What a search of enough steps misses is missed in all
of these nodes, as long as nothing is hidden from it in the branches. Nothing is where references stand
alone.
-/

namespace Specimen

/-! ### Where the search starts -/

/-- The nodes at which the paths of a root start: a root that is an array has them start at its
elements. -/
def Json.pathStarts (root : Json) : List Json :=
  match RootShape.ofSchema root with
  | .array =>
    match root.get? Keyword.items.text with
    | some (.arr places) => places
    | some item => [item]
    | none => []
  | _ => [root]

theorem Catalog.hasPath_eq_any (catalog : Catalog) (schema : String) (root : Json) (path : Path) :
    catalog.hasPath schema root path =
      root.pathStarts.any fun start => catalog.reaches (maxPathDepth + 1) schema start path := by
  rw [Json.pathStarts]
  by_cases harray : RootShape.ofSchema root = .array
  · rw [harray]
    dsimp only
    cases hitems : root.get? Keyword.items.text with
    | none => exact hasPath_of_bare harray hitems
    | some item =>
        cases item with
        | arr places => exact hasPath_of_places harray hitems
        | null | bool | int | float | str | obj =>
            rw [hasPath_of_element harray hitems (by simp)]
            simp
  · rw [hasPath_of_not_array harray]
    cases hshape : RootShape.ofSchema root with
    | array => exact absurd hshape harray
    | object | other => simp

/-! ### Nodes with branches laid over them -/

def Kind.combines : Kind → Bool
  | .anyOf _ | .allOf _ | .oneOf _ => true
  | _ => false

/-- Branches of a node go into what it is compiled to. -/
def Json.Combines (node : Json) : Prop :=
  ∃ kind, classify node = .ok kind ∧ kind.combines = true

theorem Json.not_combines {node : Json} {kind : Kind} (hkind : classify node = .ok kind)
    (hcombines : kind.combines = false) : ¬ node.Combines := by
  rintro ⟨other, hother, htrue⟩
  rw [hkind] at hother
  cases hother
  rw [hcombines] at htrue
  cases htrue

section Blending

variable (catalog : Catalog) (schema : String) (root : Json)

/-- The nodes that are compiled before any branch is laid over a node. -/
inductive Unblended : String → Json → Prop where
  | root : Unblended schema root
  | part {current : String} {node part : Json} (whole : Unblended current node)
      (plain : ¬ node.Combines) (isPart : node.Part part) : Unblended current part
  | target {current : String} {node target : Json} {pointer : String} {reference : Reference}
      (referrer : Unblended current node) (classified : classify node = .ok (.reference pointer))
      (parsed : Reference.parse pointer = .ok reference)
      (found : catalog.target current node reference = .ok target) :
      Unblended (reference.schemaOr current) target

/-- The nodes that are compiled for a node with branches laid over it. -/
inductive Blended (current : String) (node : Json) : Prop where
  | below {origin : String} {whole part : Json} (unblended : Unblended catalog schema root origin whole)
      (combines : whole.Combines) (isPart : whole.Part part)
      (reached : Reached catalog origin part current node) : Blended current node

end Blending

section

variable {catalog : Catalog} {schema current : String} {root node part : Json}

theorem Unblended.reached (h : Unblended catalog schema root current node) :
    Reached catalog schema root current node := by
  induction h with
  | root => exact .root
  | part _ _ isPart ih => exact ih.part isPart
  | target _ classified parsed found ih => exact ih.target classified parsed found

theorem Reached.trans {other : String} {below : Json} (h : Reached catalog schema root current node)
    (hbelow : Reached catalog current node other below) :
    Reached catalog schema root other below := by
  induction hbelow with
  | root => exact h
  | part _ isPart ih => exact ih.part isPart
  | target _ classified parsed found ih => exact ih.target classified parsed found

theorem Blended.reached (h : Blended catalog schema root current node) :
    Reached catalog schema root current node := by
  obtain ⟨unblended, -, isPart, reached⟩ := h
  exact (unblended.reached.part isPart).trans reached

theorem Json.Part.wellFormed (h : node.Part part) (hnode : node.WellFormed) : part.WellFormed := by
  have hbranch {keyword : Keyword} {branches : List Json} {branch : Json}
      (hget : node.get? keyword.text = some (.arr branches)) (hmember : branch ∈ branches) :
      branch.WellFormed :=
    wellFormed_arr_iff.mp (hnode.get? hget) branch hmember
  cases h with
  | @candidate kind keyword nodes _ classified candidates member =>
      have hget := Kind.get?_of_classify classified
      cases kind with
      | anyOf branches | oneOf branches =>
          cases candidates
          obtain ⟨branch, hmember, rfl⟩ := List.mem_map.mp member
          exact wellFormed_merge (hnode.without _) (hbranch hget hmember)
      | union types =>
          cases candidates
          obtain ⟨type, -, rfl⟩ := List.mem_map.mp member
          exact hnode.put _ trivial
      | reference | allOf | enumeration | single | format | properties | items | empty =>
          cases candidates
  | merged classified =>
      exact wellFormed_foldl_merge (hnode.without _) fun branch =>
        hbranch (Kind.get?_of_classify classified)
  | property classified object present member =>
      exact (wellFormed_obj_iff.mp (hnode.get? (get?_of_present? present))).2 _ member
  | place classified array present member =>
      exact wellFormed_arr_iff.mp (hnode.get? (get?_of_present? present)) _ member
  | element classified array plain =>
      rw [itemSchema]
      cases hitems : node.present? .items with
      | none => exact wellFormed_obj_iff.mpr ⟨List.nodup_nil, by simp⟩
      | some schema => exact hnode.get? (get?_of_present? hitems)

theorem Catalog.wellFormed_target {target : Json} {reference : Reference}
    (hcatalog : catalog.WellFormed) (hnode : node.WellFormed)
    (h : catalog.target current node reference = .ok target) : target.WellFormed := by
  obtain ⟨found, hfound, rfl⟩ := Outcome.map_eq_ok.mp h
  exact Json.wellFormed_merge (hcatalog.resolve hfound) (hnode.without _)

theorem Reached.wellFormed (hcatalog : catalog.WellFormed) (hroot : root.WellFormed)
    (h : Reached catalog schema root current node) : node.WellFormed := by
  induction h with
  | root => exact hroot
  | part _ isPart ih => exact isPart.wellFormed ih
  | target _ _ _ found ih => exact catalog.wellFormed_target hcatalog ih found

theorem Json.pointer?_of_classify {pointer : String}
    (hkind : classify node = .ok (.reference pointer)) : node.pointer? = some pointer := by
  have hdecides : Decides node .ref (.str pointer) := describes_of_classify hkind
  exact pointer?_eq_some.mpr (get?_of_present? hdecides.present)

theorem Json.pointer?_eq_none_of_classify {kind : Kind} (hkind : classify node = .ok kind)
    (hplain : ∀ pointer, kind ≠ .reference pointer) : node.pointer? = none := by
  by_contra hpointer
  obtain ⟨pointer, hpointer⟩ := Option.ne_none_iff_exists'.mp hpointer
  have hpresent : node.present? .ref = some (.str pointer) := by
    rw [present?, pointer?_eq_some.mp hpointer]
  rw [classify_of_ref hpresent] at hkind
  exact hplain pointer (Except.ok.inj hkind).symm

end

/-! ### The search goes far enough -/

namespace Catalog

/-- What it takes that a search misses nothing on a path. -/
structure Thorough (catalog : Catalog) (schema : String) (root : Json) (path : Path) : Prop where
  /-- The limit of steps cuts nothing off. -/
  unlimited : ∀ start ∈ root.pathStarts, catalog.LeadsTo schema start path →
    catalog.reaches (maxPathDepth + 1) schema start path = true
  /-- An array is one by its type, and neither a reference nor a combinator nor an enumeration. -/
  array : RootShape.ofSchema root = .array → classify root = .ok (.single .array)
  /-- No enumerated value leads along the end of the path. -/
  literals : ∀ (current : String) (node value target : Json) (values : List Json) (rest : Path),
    Reached catalog schema root current node → classify node = .ok (.enumeration values) →
      value ∈ values → rest ≠ [] → rest <:+ path → ¬ value.Leads rest target
  /-- Of what is written in the branches of a node nothing is hidden by laying what stands beside a
  reference over its target. -/
  branches : ∀ (current : String) (node : Json) (rest : Path),
    Unblended catalog schema root current node → node.Combines → rest <:+ path →
      catalog.Written current node rest → catalog.LeadsTo current node rest
  /-- Where branches are laid over a node, no local pointer comes to stand beside a reference to another
  schema. -/
  pointers : ∀ (current : String) (node part : Json), Unblended catalog schema root current node →
    node.Combines → node.Part part → NoPointersBeside catalog current part

/-- A search does not find what is left of a path: not by its steps, and where branches are laid over
a node not in any part that is written. -/
inductive Missed (catalog : Catalog) (schema : String) (root : Json) (path : Path)
    (current : String) (node : Json) (rest : Path) : Prop where
  | unblended (unblended : Unblended catalog schema root current node) (suffix : rest <:+ path)
      (missed : ¬ catalog.LeadsTo current node rest)
  | blended (blended : Blended catalog schema root current node) (suffix : rest <:+ path)
      (missed : ¬ catalog.Written current node rest)

section Missing

variable {catalog : Catalog} {schema current : String} {root node : Json} {path rest : Path}

theorem Missed.reached (h : catalog.Missed schema root path current node rest) :
    Reached catalog schema root current node := by
  cases h with
  | unblended unblended => exact unblended.reached
  | blended blended => exact blended.reached

theorem Missed.suffix (h : catalog.Missed schema root path current node rest) : rest <:+ path := by
  cases h with
  | unblended _ suffix | blended _ suffix => exact suffix

theorem Missed.ne_nil (h : catalog.Missed schema root path current node rest) : rest ≠ [] := by
  rintro rfl
  cases h with
  | unblended _ _ missed => exact missed leadsTo_nil
  | blended _ _ missed => exact missed .here

/-- What is written in the branches laid over a node is written in the node. -/
theorem Missed.blend {part : Json} (hthorough : catalog.Thorough schema root path)
    (h : catalog.Missed schema root path current node rest) (hcombines : node.Combines)
    (hpart : node.Part part)
    (hwritten : catalog.Written current part rest → catalog.Written current node rest) :
    catalog.Missed schema root path current part rest := by
  cases h with
  | unblended unblended suffix missed =>
      refine .blended (.below unblended hcombines hpart .root) suffix fun h => missed ?_
      exact hthorough.branches current node rest unblended hcombines suffix (hwritten h)
  | blended blended suffix missed =>
      obtain ⟨unblended, combines, isPart, reached⟩ := blended
      exact .blended (.below unblended combines isPart (reached.part hpart)) suffix fun h =>
        missed (hwritten h)

/-- What is written in a target, or beside a reference to it, is written in the reference. -/
theorem Written.of_target {pointer : String} {reference : Reference} {target : Json}
    (hcatalog : catalog.WellFormed) (hnode : node.WellFormed)
    (hbeside : reference.schemaOr current ≠ current →
      ¬ (node.without Keyword.ref.text).WritesLocal)
    (hkind : classify node = .ok (.reference pointer))
    (hparse : Reference.parse pointer = .ok reference)
    (htarget : catalog.target current node reference = .ok target)
    (h : catalog.Written (reference.schemaOr current) target rest) :
    catalog.Written current node rest := by
  obtain ⟨found, hfound, rfl⟩ := Outcome.map_eq_ok.mp htarget
  rcases h.of_merge (hcatalog.resolve hfound) (hnode.without _) with hwritten | hwritten
  · exact .target (Json.pointer?_of_classify hkind) hparse hfound hwritten
  · by_cases howner : reference.schemaOr current = current
    · rw [howner] at hwritten
      exact hwritten.of_without hnode
    · exact (hwritten.of_not_writesLocal (hbeside howner)).of_without hnode

/-- A node leads where it leads with one of the types of its union in their place. -/
theorem LeadsTo.of_withType {types : List TypeName} {type : TypeName}
    (hkind : classify node = .ok (.union types))
    (h : catalog.LeadsTo current (Scope.withType node type) rest) :
    catalog.LeadsTo current node rest := by
  have hget (keyword : Keyword) (hkeyword : keyword ≠ .type) :
      (Scope.withType node type).get? keyword.text = node.get? keyword.text :=
    Json.get?_put_of_ne (Keyword.text_ne hkeyword) node _
  have hplain := Json.pointer?_eq_none_of_classify hkind (by simp)
  cases rest with
  | nil => exact leadsTo_nil
  | cons segment rest =>
      obtain ⟨_, _, _, hstep, hrest⟩ := h.exists_step
      cases hstep with
      | target refers =>
          rw [hget .ref (by decide)] at refers
          cases hplain.symm.trans refers
      | property plain present =>
          rw [hget .properties (by decide)] at present
          exact hrest.of_step (.property hplain present)
      | @branch keyword branches branch plain combinator listed member =>
          have hkeyword : keyword ≠ .type := by
            revert combinator
            cases keyword <;> decide
          rw [hget keyword hkeyword] at listed
          exact hrest.of_step (.branch hplain combinator listed member)

/-- What is written in a node with a branch laid over it is written in the node. -/
theorem Written.of_withBranch {keyword : Keyword} {branches : List Json} {branch : Json}
    (hnode : node.WellFormed) (hcombinator : keyword ∈ [Keyword.anyOf, .allOf, .oneOf])
    (hget : node.get? keyword.text = some (.arr branches)) (hbranch : branch ∈ branches)
    (h : catalog.Written current (Scope.withBranch node keyword branch) rest) :
    catalog.Written current node rest := by
  have hlisted := Json.branches?_eq_some.mpr hget
  rcases h.of_merge (hnode.without _) (hnode.branch hlisted hbranch) with hwritten | hwritten
  · exact hwritten.of_without hnode
  · exact .branch hcombinator hlisted hbranch hwritten

theorem Written.of_withAllBranches {branches : List Json} (hnode : node.WellFormed)
    (hget : node.get? Keyword.allOf.text = some (.arr branches))
    (h : catalog.Written current (Scope.withAllBranches node branches) rest) :
    catalog.Written current node rest := by
  have hlisted := Json.branches?_eq_some.mpr hget
  rcases h.of_foldl_merge (hnode.without _) (fun branch => hnode.branch hlisted) with
    hwritten | ⟨branch, hbranch, hwritten⟩
  · exact hwritten.of_without hnode
  · exact .branch (by decide) hlisted hbranch hwritten

theorem Missed.candidate {kind : Kind} {keyword : Keyword} {nodes : List Json} {candidate : Json}
    (hthorough : catalog.Thorough schema root path) (hnode : node.WellFormed)
    (h : catalog.Missed schema root path current node rest) (hkind : classify node = .ok kind)
    (hcandidates : kind.candidates? node = some (keyword, nodes)) (hmember : candidate ∈ nodes) :
    catalog.Missed schema root path current candidate rest := by
  have hpart : node.Part candidate := .candidate hkind hcandidates hmember
  have hget := Kind.get?_of_classify hkind
  cases kind with
  | anyOf branches | oneOf branches =>
      cases hcandidates
      obtain ⟨branch, hbranch, rfl⟩ := List.mem_map.mp hmember
      apply h.blend hthorough ⟨_, hkind, rfl⟩ hpart
      exact Written.of_withBranch hnode (by decide) hget hbranch
  | union types =>
      cases hcandidates
      obtain ⟨type, -, rfl⟩ := List.mem_map.mp hmember
      cases h with
      | unblended unblended suffix missed =>
          exact .unblended (unblended.part (Json.not_combines hkind rfl) hpart) suffix fun h =>
            missed (h.of_withType hkind)
      | blended blended suffix missed =>
          obtain ⟨unblended, combines, isPart, reached⟩ := blended
          refine .blended (.below unblended combines isPart (reached.part hpart)) suffix fun h =>
            missed (h.of_lookups ?_)
          intro keyword hkeyword value hvalue
          have hne : keyword ≠ .type := by
            revert hkeyword
            cases keyword <;> decide
          rwa [Scope.withType, Json.get?_put_of_ne (Keyword.text_ne hne)] at hvalue
  | reference | allOf | enumeration | single | format | properties | items | empty =>
      cases hcandidates

theorem Missed.property {kind : Kind} {properties : List (String × Json)} {name : String}
    {property : Json} (hnode : node.WellFormed)
    (h : catalog.Missed schema root path current node (name :: rest))
    (hkind : classify node = .ok kind) (htype : kind.type? = some .object)
    (hpresent : node.present? .properties = some (.obj properties))
    (hmember : (name, property) ∈ properties) :
    catalog.Missed schema root path current property rest := by
  have hpart : node.Part property := .property hkind htype hpresent hmember
  have hproperty : node.property? name = some property := by
    have hget := Json.get?_of_present? hpresent
    have hdistinct := (Json.wellFormed_obj_iff.mp (hnode.get? hget)).1
    rw [Json.property?, hget]
    exact Assoc.get?_of_mem hdistinct hmember
  cases h with
  | unblended unblended suffix missed =>
      have hcombines : kind.combines = false := by cases kind <;> first | rfl | cases htype
      have hplain : node.pointer? = none := by
        apply Json.pointer?_eq_none_of_classify hkind
        rintro pointer rfl
        cases htype
      refine .unblended (unblended.part (Json.not_combines hkind hcombines) hpart)
        ((List.suffix_cons name rest).trans suffix) fun h => missed ?_
      exact h.of_step (.property hplain hproperty)
  | blended blended suffix missed =>
      obtain ⟨unblended, combines, isPart, reached⟩ := blended
      exact .blended (.below unblended combines isPart (reached.part hpart))
        ((List.suffix_cons name rest).trans suffix) fun h => missed (.property hproperty h)

/-- What a thorough search misses is missed wherever compiling and generating go on from there. -/
theorem detour_missed (hcatalog : catalog.WellFormed) (hroot : root.WellFormed)
    (hthorough : catalog.Thorough schema root path) :
    catalog.Detour (catalog.Missed schema root path) where
  goesOn := Missed.ne_nil
  target h hkind hparse htarget := by
    have hnode := h.reached.wellFormed hcatalog hroot
    have hne := h.ne_nil
    cases h with
    | unblended unblended suffix missed =>
        refine .unblended (unblended.target hkind hparse htarget) suffix fun h => missed ?_
        obtain ⟨found, hfound, rfl⟩ := Outcome.map_eq_ok.mp htarget
        obtain ⟨segment, below, rfl⟩ := List.exists_cons_of_ne_nil hne
        exact h.of_step (.target (Json.pointer?_of_classify hkind) hparse hfound)
    | blended blended suffix missed =>
        obtain ⟨unblended, combines, isPart, reached⟩ := blended
        refine .blended (.below unblended combines isPart (reached.target hkind hparse htarget))
          suffix fun h => missed ?_
        exact h.of_target hcatalog hnode (hthorough.pointers _ _ _ unblended combines isPart _ _ _ _
          reached hkind hparse) hkind hparse htarget
  candidate h := h.candidate hthorough (h.reached.wellFormed hcatalog hroot)
  merged h hkind := by
    apply h.blend hthorough ⟨_, hkind, rfl⟩ (.merged hkind)
    exact Written.of_withAllBranches (h.reached.wellFormed hcatalog hroot)
      (Kind.get?_of_classify hkind)
  property h := h.property (h.reached.wellFormed hcatalog hroot)
  values h hkind hmember hleads :=
    hthorough.literals _ _ _ _ _ _ h.reached hkind hmember h.ne_nil h.suffix hleads

theorem not_leadsTo_empty (hpath : path ≠ []) : ¬ catalog.LeadsTo current (.obj []) path := by
  obtain ⟨segment, rest, rfl⟩ := List.exists_cons_of_ne_nil hpath
  intro h
  obtain ⟨property, hproperty, -⟩ := h.exists_property rfl fun _ _ => rfl
  cases hproperty

/-- The drafts of a root keep off a path that a thorough search does not find. -/
theorem avoids_of_thorough {generator : Generator} {depth : Nat} {draft : Draft}
    (hcatalog : catalog.WellFormed) (hroot : root.WellFormed)
    (hleaves : catalog.library.DrawsNoObjects) (hpath : path ≠ [])
    (hthorough : catalog.Thorough schema root path)
    (hmissed : catalog.hasPath schema root path = false)
    (hcompile : Scope.compile ⟨schema, catalog.library⟩ root = .ok generator)
    (hdrafts : generator.Drafts catalog depth draft) :
    (RootShape.ofSchema root).Avoids catalog path draft := by
  have hdetour := detour_missed hcatalog hroot hthorough
  have hstart : ∀ start ∈ root.pathStarts, ¬ catalog.LeadsTo schema start path := by
    intro start hstart hleads
    rw [hasPath_eq_any, List.any_eq_false] at hmissed
    exact hmissed start hstart (hthorough.unlimited start hstart hleads)
  rw [Json.pathStarts] at hstart
  cases hshape : RootShape.ofSchema root with
  | other => trivial
  | object =>
      rw [hshape] at hstart
      exact hdetour.avoids hleaves
        (.unblended .root List.suffix_rfl (hstart root List.mem_cons_self)) hcompile hdrafts
  | array =>
      rw [hshape] at hstart
      have hkind := hthorough.array hshape
      have helement {part : Json} {item : Generator} {element : Draft} {depth : Nat}
          (hpart : root.Part part) (hleads : ¬ catalog.LeadsTo schema part path)
          (hcompile : Scope.compile ⟨schema, catalog.library⟩ part = .ok item)
          (hdrafts : item.Drafts catalog depth element) : element.Avoids catalog path :=
        hdetour.avoids hleaves (.unblended (Unblended.root.part (Json.not_combines hkind rfl) hpart)
          List.suffix_rfl hleads) hcompile hdrafts
      obtain ⟨lower, rfl⟩ := Generator.exists_depth_of_drafts hdrafts
      rw [Scope.compile_of_classify hkind, Scope.compileKind] at hcompile
      cases Scope.compileType_eq_ok hcompile with
      | leaf read builds => cases builds
      | @tuple places items present each =>
          obtain ⟨drafts, rfl, hitems⟩ := Generator.drafts_tuple hdrafts
          rw [Json.get?_of_present? present] at hstart
          rintro _ ⟨⟩ element hmember
          obtain ⟨item, hitem, hdrafts⟩ := exists_mem_of_forall₂ hitems hmember
          obtain ⟨place, hplace, hcompile⟩ := exists_mem_of_forall₂ each hitem
          exact helement (.place hkind rfl present hplace) (hstart place hplace) hcompile hdrafts
      | list plain read compiled built =>
          obtain ⟨drafts, rfl, -, hitems⟩ := Generator.drafts_list hdrafts
          rintro _ ⟨⟩ element hmember
          refine helement (.element hkind rfl plain) ?_ compiled (hitems element hmember)
          rw [Json.itemSchema]
          rw [Json.itemSchema] at plain
          cases hpresent : root.present? .items with
          | none => exact not_leadsTo_empty hpath
          | some item =>
              rw [hpresent] at plain
              rw [Json.get?_of_present? hpresent] at hstart
              cases item with
              | arr places => exact absurd rfl (plain places)
              | null | bool | int | float | str | obj => exact hstart _ List.mem_cons_self

end Missing

end Catalog

/-! ### Where references stand alone -/

section Alone

variable {catalog : Catalog} {schema current : String} {root node part : Json} {path : Path}

theorem Json.Part.pointersAlone (h : node.Part part) (hnode : node.PointersAlone)
    (hplain : ¬ node.Combines) : part.PointersAlone := by
  cases h with
  | @candidate kind keyword nodes _ classified candidates member =>
      cases kind with
      | anyOf | oneOf => exact absurd ⟨_, classified, rfl⟩ hplain
      | union types =>
          cases candidates
          obtain ⟨type, -, rfl⟩ := List.mem_map.mp member
          exact hnode.put (pointer?_eq_none_of_classify classified (by simp)) (by decide)
      | reference | allOf | enumeration | single | format | properties | items | empty =>
          cases candidates
  | merged classified => exact absurd ⟨_, classified, rfl⟩ hplain
  | property classified object present member =>
      exact (hnode.get? (get?_of_present? present)).member member
  | place classified array present member =>
      exact (hnode.get? (get?_of_present? present)).item member
  | element classified array plain =>
      rw [itemSchema]
      cases hitems : node.present? .items with
      | none => exact .empty
      | some schema => exact hnode.get? (get?_of_present? hitems)

theorem Unblended.pointersAlone
    (hcatalog : ∀ name document, catalog.get? name = some document → document.PointersAlone)
    (hroot : root.PointersAlone) (h : Unblended catalog schema root current node) :
    node.PointersAlone := by
  induction h with
  | root => exact hroot
  | part _ plain isPart ih => exact isPart.pointersAlone ih plain
  | target _ classified _ found ih =>
      obtain ⟨target, htarget, rfl⟩ := Outcome.map_eq_ok.mp found
      obtain rfl := ih.eq_of_pointer? (Json.pointer?_of_classify classified)
      exact (Catalog.of_resolve hcatalog (fun _ _ _ hnode => hnode.child) htarget).merge_empty

/-- Where all references stand alone, nothing that is written in the branches of a node is hidden. -/
theorem Catalog.leadsTo_of_unblended
    (hcatalog : ∀ name document, catalog.get? name = some document → document.PointersAlone)
    (hroot : root.PointersAlone) (h : Unblended catalog schema root current node)
    (hwritten : catalog.Written current node path) : catalog.LeadsTo current node path :=
  leadsTo_of_written hcatalog (h.pointersAlone hcatalog hroot) hwritten

end Alone

end Specimen
