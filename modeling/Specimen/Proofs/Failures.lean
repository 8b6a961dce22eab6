import Specimen.Proofs.LeafValues
import Specimen.Proofs.Progress
import Specimen.Proofs.ReferenceFree

/-!
# Where runs fail

Compiling checks everything a run could stumble over except the targets of references, which are
looked up and compiled when a value is generated, and the room that a length takes up, which is not
known before it is drawn. So every error of a run stems from a reference that the run comes to, and a
schema without references always has a value, unless one of its lengths is beyond all buffers.
-/

namespace Specimen

/-! ### The parts of a compiled generator -/

section Compiled

variable {scope : Scope} {node : Json} {g p : Generator}

/-- What a node compiles to is a reference, or is built of what the parts of the node compile to. -/
theorem Scope.alike_of_compile (h : scope.compile node = .ok g) :
    (∃ pointer, classify node = .ok (.reference pointer)) ∨
      Generator.Alike scope.library
        (fun p _ => ∃ part, node.Part part ∧ scope.compile part = .ok p) g g := by
  obtain ⟨schema, library⟩ := scope
  rcases corresponds_self (E := fun _ _ => True) (P := fun part other => part = other)
      (fun _ => trivial) (fun _ => rfl) node with hcorresponds | hreference
  · right
    have hparts : PartsCompile (fun _ _ => True) (fun part other => part = other ∧ node.Part part)
        library schema schema node := by
      rintro part _ - ⟨rfl, -⟩
      exact (Outcome.related_self (fun _ => trivial) _).imp (fun _ _ he => he) fun _ _ _ => trivial
    have halike := related_of_corresponds (fun _ => trivial) hparts
      (hcorresponds.imp fun part other hpart _ heq => ⟨heq, hpart⟩)
    rw [h] at halike
    apply halike.of_ok.imp
    rintro p other ⟨part, _, ⟨rfl, hpart⟩, hp, -⟩
    exact ⟨part, hpart, hp⟩
  · exact .inl hreference

theorem Generator.Alike.of_part {library : Library} {R : Generator → Generator → Prop}
    (h : Generator.Alike library R g g) (hpart : g.Part p) : R p p := by
  cases hpart with
  | candidate member =>
      cases h with
      | choice each => exact List.forall₂_same.mp each _ member
  | merged =>
      cases h with
      | allOf merges => exact merges
  | field member =>
      cases h with
      | object each => exact (List.forall₂_same.mp each _ member).2
  | place member =>
      cases h with
      | tuple each => exact List.forall₂_same.mp each _ member
  | element =>
      cases h with
      | list element => exact element

/-- The picker of a generator is the one that a library gives for as much as there is to pick. -/
def Generator.PickerGivenBy (library : Library) : Generator → Prop
  | .choice _ candidates picker => library.index candidates.length = .ok picker
  | .enumeration values picker => library.index values.length = .ok picker
  | _ => True

theorem Generator.Alike.pickerGivenBy {library : Library} {R : Generator → Generator → Prop}
    (h : Generator.Alike library R g g) : g.PickerGivenBy library := by
  cases h with
  | choice each picks => exact picks
  | enumeration picks => exact picks
  | allOf | leaf | empty | object | tuple | list => trivial

theorem Generator.PickerGivenBy.picksInRange {library : Library} (h : g.PickerGivenBy library)
    (hlibrary : library.PicksInRange) : g.PicksInRange := by
  cases g with
  | choice => exact hlibrary _ _ h
  | enumeration => exact hlibrary _ _ h
  | reference | allOf | leaf | empty | object | tuple | list => trivial

theorem Scope.exists_reference {pointer : String} (hkind : classify node = .ok (.reference pointer))
    (h : scope.compile node = .ok g) :
    ∃ schema target overlay, g = .reference schema target overlay := by
  rw [compile_of_classify hkind, compileKind] at h
  obtain ⟨target, -, rfl⟩ := exists_parsed_of_reference h
  exact ⟨_, _, _, rfl⟩

/-- A part of what a node compiles to is what some part of the node compiles to. -/
theorem Scope.exists_part_of_compile (h : scope.compile node = .ok g) (hpart : g.Part p) :
    ∃ part, node.Part part ∧ scope.compile part = .ok p := by
  rcases alike_of_compile h with ⟨pointer, hkind⟩ | halike
  · obtain ⟨schema, target, overlay, rfl⟩ := exists_reference hkind h
    cases hpart
  · exact halike.of_part hpart

theorem Scope.pickerGivenBy_of_compile (h : scope.compile node = .ok g) :
    g.PickerGivenBy scope.library := by
  rcases alike_of_compile h with ⟨pointer, hkind⟩ | halike
  · obtain ⟨schema, target, overlay, rfl⟩ := exists_reference hkind h
    trivial
  · exact halike.pickerGivenBy

end Compiled

/-- A generator compiled with a library of one kind. -/
def Generator.CompiledWith (L : Library → Prop) (g : Generator) : Prop :=
  ∃ (scope : Scope) (node : Json), L scope.library ∧ scope.compile node = .ok g

/-- A generator compiled from a node of one kind, with the picker that picks among as many as there
are. -/
def Generator.Compiled (C : Json → Prop) (g : Generator) : Prop :=
  ∃ (scope : Scope) (node : Json), scope.library.index = Picker.ofLength ∧ C node ∧
    scope.compile node = .ok g

/-- All overrides that generate are compiled from nodes of one kind. -/
def Overrides.Compiled (C : Json → Prop) (overrides : Overrides) : Prop :=
  ∀ path g, overrides.get? path = some (.generator g) → g.Compiled C

theorem Generator.CompiledWith.picksInRange {g : Generator}
    (h : g.CompiledWith Library.PicksInRange) : g.PicksInRange := by
  obtain ⟨scope, node, hlibrary, hcompile⟩ := h
  exact (Scope.pickerGivenBy_of_compile hcompile).picksInRange hlibrary

theorem Generator.Compiled.compiledWith {C : Json → Prop} {g : Generator} (h : g.Compiled C) :
    g.CompiledWith Library.PicksInRange := by
  obtain ⟨scope, node, hindex, -, hcompile⟩ := h
  exact ⟨scope, node, Library.picksInRange_of_index hindex, hcompile⟩

/-! ### Schemas without references -/

/-- A generator compiled from a schema without references that has at most a number of nodes. -/
def Generator.Within (bound : Nat) (g : Generator) : Prop :=
  g.Compiled fun node => node.ReferenceFree ∧ node.size ≤ bound

/-- A draft whose generators are compiled from such schemas, fewer nodes the further down. -/
inductive Draft.Within : Nat → Draft → Prop where
  | value {bound : Nat} (value : Json) : Within (bound + 1) (.value value)
  | fields {bound : Nat} {fields : List (String × Generator)}
      (each : ∀ field ∈ fields, Generator.Within bound field.2) :
      Within (bound + 1) (.fields fields)
  | items {bound : Nat} {drafts : List Draft} (each : ∀ draft ∈ drafts, Within bound draft) :
      Within (bound + 1) (.items drafts)

section Within

variable {bound : Nat} {g p : Generator} {draft : Draft}

theorem Generator.Within.mono {higher : Nat} (h : g.Within bound) (hle : bound ≤ higher) :
    g.Within higher := by
  obtain ⟨scope, node, hindex, ⟨hfree, hsize⟩, hcompile⟩ := h
  exact ⟨scope, node, hindex, ⟨hfree, Nat.le_trans hsize hle⟩, hcompile⟩

theorem Generator.Within.exists_succ (h : g.Within bound) : ∃ lower, bound = lower + 1 := by
  obtain ⟨scope, node, -, ⟨-, hsize⟩, -⟩ := h
  have hpos := node.size_pos
  exact Nat.exists_eq_succ_of_ne_zero (by omega)

theorem Generator.Within.part (h : g.Within (bound + 1)) (hpart : g.Part p) : p.Within bound := by
  obtain ⟨scope, node, hindex, ⟨hfree, hsize⟩, hcompile⟩ := h
  obtain ⟨part, hnode, hp⟩ := Scope.exists_part_of_compile hcompile hpart
  have hlt := hnode.size_lt
  exact ⟨scope, part, hindex, ⟨hfree.part hnode, by omega⟩, hp⟩

theorem Generator.Within.picksInRange (h : g.Within bound) : g.PicksInRange :=
  (Compiled.compiledWith h).picksInRange

theorem Generator.Within.ne_reference (h : g.Within bound) (schema : String) (target : Reference)
    (overlay : Json) : g ≠ .reference schema target overlay := by
  rintro rfl
  obtain ⟨scope, node, hindex, ⟨hfree, -⟩, hcompile⟩ := h
  rcases Scope.alike_of_compile hcompile with ⟨pointer, hkind⟩ | halike
  · exact hfree.not_reference pointer hkind
  · cases halike

theorem Draft.Within.mono {higher : Nat} (h : draft.Within bound) (hle : bound ≤ higher) :
    draft.Within higher := by
  induction h generalizing higher with
  | value v =>
      obtain ⟨lower, rfl⟩ := Nat.exists_eq_succ_of_ne_zero (show higher ≠ 0 by omega)
      exact .value v
  | fields each =>
      obtain ⟨lower, rfl⟩ := Nat.exists_eq_succ_of_ne_zero (show higher ≠ 0 by omega)
      exact .fields fun field hfield => (each field hfield).mono (by omega)
  | items each ih =>
      obtain ⟨lower, rfl⟩ := Nat.exists_eq_succ_of_ne_zero (show higher ≠ 0 by omega)
      exact .items fun draft hdraft => ih draft hdraft (by omega)

theorem Draft.Within.exists_layer (h : draft.Within bound) : ∃ lower, bound = lower + 1 ∧
    draft.Layer (Generator.Within lower) (Draft.Within lower) := by
  cases h with
  | value v => exact ⟨_, rfl, .value v⟩
  | fields each => exact ⟨_, rfl, .fields each⟩
  | items each => exact ⟨_, rfl, .items each⟩

end Within

/-- A run ended for want of room. -/
def Halt.IsOverflow (halt : Halt) : Prop :=
  ∃ cause, halt = .overflow cause

section Progress

variable {catalog : Catalog}

/-- Every step goes to a smaller schema, so as many calls may be open as the schema has nodes. -/
theorem Generator.Within.ends_generate {depth bound : Nat} {g : Generator} (h : g.Within bound)
    (hdepth : bound ≤ depth) :
    Generation.Ends Halt.IsOverflow (Draft.Within bound) (g.generate catalog depth) := by
  induction depth generalizing bound g with
  | zero =>
      obtain ⟨lower, rfl⟩ := h.exists_succ
      omega
  | succ depth ih =>
      obtain ⟨lower, rfl⟩ := h.exists_succ
      apply Generator.ends_generate h.ne_reference h.picksInRange
        (fun _ cause => ⟨cause, rfl⟩)
        (D := Draft.Within lower) (fun draft hdraft => hdraft.mono (Nat.le_succ lower))
      · intro draft hlayer
        cases hlayer with
        | value v => exact .value v
        | fields each => exact .fields fun field hfield => h.part (each field hfield)
        | items each => exact .items each
      · exact fun part hpart => ih (h.part hpart) (by omega)

theorem Draft.Within.ends_resolve {depth bound : Nat} {draft : Draft} (h : draft.Within bound)
    (hdepth : bound ≤ depth) :
    Generation.Ends Halt.IsOverflow (fun _ => True) (draft.resolve catalog depth) := by
  induction depth generalizing bound draft with
  | zero =>
      obtain ⟨lower, rfl, -⟩ := h.exists_layer
      omega
  | succ depth ih =>
      obtain ⟨lower, rfl, hlayer⟩ := h.exists_layer
      exact Draft.ends_resolve hlayer (fun g hg => hg.ends_generate (by omega))
        fun draft hdraft => ih hdraft (by omega)

/-- Overrides on paths of at most a length, whose generators are compiled from schemas without
references of at most a number of nodes. -/
def Overrides.Within (length bound : Nat) (overrides : Overrides) : Prop :=
  ∀ path entry, overrides.get? path = some entry →
    path.length ≤ length ∧ ∀ g, entry = .generator g → g.Within bound

theorem Overrides.keptByCalls_within (setting : Setting) (length bound : Nat) :
    KeptByCalls setting (Within length bound) := by
  apply keptByCalls_of_entries (C := fun path entry =>
    path.length ≤ length ∧ ∀ g, entry = .generator g → g.Within bound)
  rintro path entry ⟨hpath, hgenerator⟩
  refine ⟨hpath, ?_⟩
  cases entry with
  | generator g => exact hgenerator
  | function | relation | value => exact fun g hg => nomatch hg

variable {setting : Setting} {length size : Nat}

/-- An override starts over with a schema of its own, but only at a longer path than the one before;
every path counts for as many calls as the largest of these schemas has nodes, and one. -/
theorem Draft.Within.ends_flatten {depth bound : Nat} {path : Path} {draft : Draft}
    (hsize : 1 ≤ size) (h : draft.Within bound)
    (hdepth : bound + (length - path.length) * (size + 1) ≤ depth) :
    Materialization.Ends (Overrides.Within length size) Halt.IsOverflow (fun _ => True)
      (flatten setting depth path draft) := by
  induction depth generalizing bound path draft with
  | zero =>
      obtain ⟨lower, rfl, -⟩ := h.exists_layer
      omega
  | succ depth ih =>
      have hresolve : Generation.Ends Halt.IsOverflow (fun _ => True)
          (draft.resolve setting.catalog (depth + 1)) := h.ends_resolve (by omega)
      obtain ⟨lower, rfl, hlayer⟩ := h.exists_layer
      -- What is left of the paths below, for a draft of an override and for one of a field.
      have hbelow {below : Path} (hlonger : path.length < below.length) :
          lower + (length - below.length) * (size + 1) ≤ depth := by
        have hmul := Nat.mul_le_mul_right (size + 1)
          (show length - below.length ≤ length - path.length by omega)
        omega
      have hoverride {below : Path} (hlonger : path.length < below.length)
          (hlength : below.length ≤ length) :
          size + (length - below.length) * (size + 1) ≤ depth := by
        have hmul := Nat.mul_le_mul_right (size + 1)
          (show length - below.length + 1 ≤ length - path.length by omega)
        rw [Nat.add_mul, Nat.one_mul] at hmul
        omega
      apply Specimen.ends_flatten (B := fun below draft => ∃ bound, draft.Within bound ∧
        bound + (length - below.length) * (size + 1) ≤ depth) hlayer
      · intro below hlonger
        apply ends_overridden? (Overrides.keptByCalls_within setting length size)
        · intro overrides g hoverrides hentry
          obtain ⟨hlength, hgenerator⟩ := hoverrides below _ hentry
          have henough := hoverride hlonger hlength
          exact ((hgenerator g rfl).ends_generate (by omega)).imp fun draft hdraft =>
            ⟨size, hdraft, henough⟩
        · intro overrides entry value hoverrides hentry
          obtain ⟨lowest, rfl⟩ := Nat.exists_eq_succ_of_ne_zero (show size ≠ 0 by omega)
          exact ⟨_, .value value, hoverride hlonger (hoverrides below entry hentry).1⟩
      · intro below g hlonger hg
        exact (hg.ends_generate (by omega)).imp fun draft hdraft => ⟨lower, hdraft, hbelow hlonger⟩
      · rintro below draft ⟨bound, hdraft, henough⟩
        exact ih hdraft henough
      · exact hresolve

theorem Override.exists_within (entry : Override) : ∃ size, ∀ g, entry = .generator g →
    g.Compiled Json.ReferenceFree → g.Within size := by
  by_cases hgenerator : ∃ g, entry = .generator g ∧ g.Compiled Json.ReferenceFree
  · obtain ⟨g, rfl, scope, node, hindex, hfree, hcompile⟩ := hgenerator
    refine ⟨node.size, ?_⟩
    rintro _ ⟨⟩ -
    exact ⟨scope, node, hindex, ⟨hfree, Nat.le_refl _⟩, hcompile⟩
  · exact ⟨0, fun g hg hcompiled => absurd ⟨g, hg, hcompiled⟩ hgenerator⟩

theorem Overrides.exists_within_entries (entries : List (Path × Override)) :
    ∃ length size, 1 ≤ size ∧ ∀ path entry, (path, entry) ∈ entries → path.length ≤ length ∧
      ∀ g, entry = .generator g → g.Compiled Json.ReferenceFree → g.Within size := by
  induction entries with
  | nil => exact ⟨0, 1, Nat.le_refl 1, fun _ _ hmember => nomatch hmember⟩
  | cons first rest ih =>
      obtain ⟨length, size, hpos, hrest⟩ := ih
      obtain ⟨own, hown⟩ := first.2.exists_within
      refine ⟨max length first.1.length, max size own, by omega, ?_⟩
      intro path entry hmember
      rcases List.mem_cons.mp hmember with rfl | hmember
      · exact ⟨Nat.le_max_right _ _, fun g hg hcompiled =>
          (hown g hg hcompiled).mono (Nat.le_max_right _ _)⟩
      · obtain ⟨hlength, hgenerators⟩ := hrest path entry hmember
        exact ⟨Nat.le_trans hlength (Nat.le_max_left _ _), fun g hg hcompiled =>
          (hgenerators g hg hcompiled).mono (Nat.le_max_left _ _)⟩

/-- Any overrides are on paths of some length, with schemas of some size. -/
theorem Overrides.exists_within {overrides : Overrides}
    (h : overrides.Compiled Json.ReferenceFree) :
    ∃ length size, 1 ≤ size ∧ overrides.Within length size := by
  obtain ⟨length, size, hpos, hentries⟩ := exists_within_entries overrides.entries
  refine ⟨length, size, hpos, fun path entry hentry => ?_⟩
  obtain ⟨hlength, hgenerators⟩ := hentries path entry (Assoc.mem_of_get? hentry)
  exact ⟨hlength, fun g hg => hgenerators g hg (h path g (hg ▸ hentry))⟩

end Progress

/-! ### References that a run comes to -/

/-- A generator that a run of some generators may come to: a part of another, or what the target of a
reference compiles to. -/
inductive Generator.Used (catalog : Catalog) (roots : Generator → Prop) : Generator → Prop where
  | root {g : Generator} (isRoot : roots g) : Used catalog roots g
  | part {g p : Generator} (whole : Used catalog roots g) (isPart : g.Part p) :
      Used catalog roots p
  | target {schema : String} {target : Reference} {overlay : Json} {g : Generator}
      (referrer : Used catalog roots (.reference schema target overlay))
      (found : dereference catalog schema target overlay = .ok g) : Used catalog roots g

/-- The error with which the target of a reference is not found or does not compile. -/
inductive Halt.AtReference (catalog : Catalog) (roots : Generator → Prop) : Halt → Prop where
  | error {schema : String} {target : Reference} {overlay : Json} {e : Error}
      (used : Generator.Used catalog roots (.reference schema target overlay))
      (fails : Generator.dereference catalog schema target overlay = .error e) :
      AtReference catalog roots (.error e)

/-- A run ended where some part has no room for what it gives. -/
def Halt.OutOfRoom (catalog : Catalog) (roots : Generator → Prop) (halt : Halt) : Prop :=
  ∃ part cause, Generator.Used catalog roots part ∧ ¬ part.HasRoom ∧ halt = .overflow cause

/-- A draft whose generators are all of one kind. -/
inductive Draft.MadeOf (G : Generator → Prop) : Draft → Prop where
  | make {draft : Draft} (layer : draft.Layer G (MadeOf G)) : MadeOf G draft

section Used

variable {catalog : Catalog} {roots : Generator → Prop}

/-- Nothing but schemas without references is come to from such schemas. -/
theorem Generator.Used.compiled {g : Generator} (h : g.Used catalog roots)
    (hroots : ∀ root, roots root → root.Compiled Json.ReferenceFree) :
    g.Compiled Json.ReferenceFree := by
  induction h with
  | root isRoot => exact hroots _ isRoot
  | part _ isPart ih =>
      obtain ⟨scope, node, hindex, hfree, hcompile⟩ := ih
      obtain ⟨part, hnode, hp⟩ := Scope.exists_part_of_compile hcompile isPart
      exact ⟨scope, part, hindex, hfree.part hnode, hp⟩
  | target _ _ ih =>
      obtain ⟨scope, node, hindex, hfree, hcompile⟩ := ih
      have hwithin : Generator.Within node.size _ :=
        ⟨scope, node, hindex, ⟨hfree, Nat.le_refl _⟩, hcompile⟩
      exact absurd rfl (hwithin.ne_reference _ _ _)

/-- Whatever a run comes to is compiled, be it with the library of a root or with that of the
catalog. -/
theorem Generator.Used.compiledWith {L : Library → Prop} {g : Generator}
    (h : g.Used catalog roots) (hlibrary : L catalog.library)
    (hroots : ∀ root, roots root → root.CompiledWith L) : g.CompiledWith L := by
  induction h with
  | root isRoot => exact hroots _ isRoot
  | part _ isPart ih =>
      obtain ⟨scope, node, hscope, hcompile⟩ := ih
      obtain ⟨part, -, hp⟩ := Scope.exists_part_of_compile hcompile isPart
      exact ⟨scope, part, hscope, hp⟩
  | @target schema target overlay g _ found =>
      rw [dereference] at found
      cases hresolve : catalog.resolve schema target with
      | error e =>
          rw [hresolve] at found
          cases found
      | ok node =>
          rw [hresolve] at found
          exact ⟨⟨schema, catalog.library⟩, _, hlibrary, found⟩

/-- How a run may fail: it is cut off at its depth, or stops at a reference it has come to, or has no
room. -/
def Halt.CutOff (catalog : Catalog) (roots : Generator → Prop) (halt : Halt) : Prop :=
  halt = .tooDeep ∨ halt.AtReference catalog roots ∨ halt.OutOfRoom catalog roots

theorem Halt.CutOff.outOfRoom {halt : Halt} (h : halt.CutOff catalog roots)
    (hoverflow : halt.IsOverflow) : halt.OutOfRoom catalog roots := by
  obtain ⟨cause, rfl⟩ := hoverflow
  rcases h with h | h | h
  · cases h
  · cases h
  · exact h

variable (hpicks : ∀ g : Generator, g.Used catalog roots → g.PicksInRange)

include hpicks

theorem Generator.Used.ends_generate {g : Generator} (h : g.Used catalog roots) (depth : Nat) :
    Generation.Ends (Halt.CutOff catalog roots) (Draft.MadeOf (Used catalog roots))
      (g.generate catalog depth) := by
  induction depth generalizing g with
  | zero => exact Run.ends_throw (.inl rfl)
  | succ depth ih =>
      by_cases hreference : ∃ schema target overlay, g = .reference schema target overlay
      · obtain ⟨schema, target, overlay, rfl⟩ := hreference
        have hfound : Outcome.Meets (fun e => Halt.CutOff catalog roots (.error e))
            (Used catalog roots) (dereference catalog schema target overlay) := by
          cases hderef : dereference catalog schema target overlay with
          | ok found => exact .target h hderef
          | error e => exact .inr (.inl (.error h hderef))
        exact Run.ends_bind (Generation.ends_ofExcept hfound) fun found hused => ih hused
      · have hnotReference : ∀ schema target overlay, g ≠ .reference schema target overlay :=
          fun schema target overlay hg => hreference ⟨schema, target, overlay, hg⟩
        have hroom (hcrowded : ¬ g.HasRoom) (cause : Overflow) :
            Halt.CutOff catalog roots (.overflow cause) :=
          .inr (.inr ⟨g, cause, h, hcrowded, rfl⟩)
        apply Generator.ends_generate hnotReference (hpicks g h) hroom (fun draft hdraft => hdraft)
        · intro draft hlayer
          cases hlayer with
          | value v => exact .make (.value v)
          | fields each => exact .make (.fields fun field hfield => h.part (each field hfield))
          | items each => exact .make (.items each)
        · exact fun part hpart => ih (h.part hpart)

theorem Draft.MadeOf.ends_resolve {draft : Draft}
    (h : draft.MadeOf (Generator.Used catalog roots)) (depth : Nat) :
    Generation.Ends (Halt.CutOff catalog roots) (fun _ => True) (draft.resolve catalog depth) := by
  induction depth generalizing draft with
  | zero => exact Run.ends_throw (.inl rfl)
  | succ depth ih =>
      obtain ⟨hlayer⟩ := h
      exact Draft.ends_resolve hlayer (fun g hg => hg.ends_generate hpicks depth)
        fun draft hdraft => ih hdraft

/-- Overrides whose generators are among the roots of a run. -/
def Overrides.Rooted (roots : Generator → Prop) (overrides : Overrides) : Prop :=
  ∀ path entry, overrides.get? path = some entry → ∀ g, entry = .generator g → roots g

omit hpicks in
theorem Overrides.keptByCalls_rooted (setting : Setting) : KeptByCalls setting (Rooted roots) := by
  apply keptByCalls_of_entries (C := fun _ entry => ∀ g, entry = .generator g → roots g)
  intro path entry hgenerator
  cases entry with
  | generator g => exact hgenerator
  | function | relation | value => exact fun g hg => nomatch hg

theorem Draft.MadeOf.ends_flatten {stores : Stores} {path : Path} {draft : Draft}
    (h : draft.MadeOf (Generator.Used catalog roots)) (depth : Nat) :
    Materialization.Ends (Overrides.Rooted roots) (Halt.CutOff catalog roots) (fun _ => True)
      (flatten ⟨catalog, stores⟩ depth path draft) := by
  induction depth generalizing path draft with
  | zero => exact Run.ends_throw (.inl rfl)
  | succ depth ih =>
      have hresolve := h.ends_resolve hpicks (depth + 1)
      obtain ⟨hlayer⟩ := h
      apply Specimen.ends_flatten (B := fun _ => MadeOf (Generator.Used catalog roots)) hlayer
      · intro below _
        apply ends_overridden? (Overrides.keptByCalls_rooted _)
        · exact fun overrides g hoverrides hentry =>
            Generator.Used.ends_generate hpicks (.root (hoverrides below _ hentry g rfl)) depth
        · exact fun _ _ value _ _ => .make (.value value)
      · exact fun below g _ hg => hg.ends_generate hpicks depth
      · exact fun below draft hdraft => ih hdraft
      · exact hresolve

end Used

/-! ### Whole runs -/

section Materializing

variable {P : Overrides → Prop} {F : Halt → Prop} {D : Draft → Prop} {setting : Setting}
  {depth : Nat} {g : Generator}

theorem ends_materialize (schema : Json)
    (hgenerate : Generation.Ends F D (g.generate setting.catalog depth))
    (hresolve : ∀ draft, D draft →
      Generation.Ends F (fun _ => True) (draft.resolve setting.catalog depth))
    (hflatten : ∀ draft, D draft ∨ (∃ value, draft = .value value) →
      Materialization.Ends P F (fun _ => True) (flatten setting depth [] draft))
    (hitems : ∀ drafts, D (.items drafts) → ∀ draft ∈ drafts,
      Materialization.Ends P F (fun _ => True) (flatten setting (depth - 1) [] draft)) :
    Materialization.Ends P F (fun _ => True) (materialize setting depth schema g) := by
  apply Run.ends_bind (Materialization.ends_ofGeneration hgenerate)
  intro draft hdraft
  have hplain := Materialization.ends_ofGeneration (P := P) (hresolve draft hdraft)
  cases RootShape.ofSchema schema with
  | object => exact hflatten draft (.inl hdraft)
  | other => exact hplain
  | array =>
      cases draft with
      | fields => exact hplain
      | items drafts =>
          apply Run.ends_bind (Run.ends_mapM (hitems drafts hdraft))
          exact fun _ _ => Run.ends_pure trivial
      | value v =>
          cases v with
          | arr values =>
              apply Run.ends_bind (Run.ends_mapM fun value _ => hflatten _ (.inr ⟨value, rfl⟩))
              exact fun _ _ => Run.ends_pure trivial
          | null | bool | int | float | str | obj => exact hplain

theorem Generator.Used.ends_materialize {catalog : Catalog} {roots : Generator → Prop}
    (hpicks : ∀ p : Generator, p.Used catalog roots → p.PicksInRange) (hroot : roots g)
    (stores : Stores) (schema : Json) (depth : Nat) :
    Materialization.Ends (Overrides.Rooted roots) (Halt.CutOff catalog roots) (fun _ => True)
      (materialize ⟨catalog, stores⟩ depth schema g) := by
  apply Specimen.ends_materialize schema (ends_generate hpicks (.root hroot) depth)
  · exact fun draft hdraft => hdraft.ends_resolve hpicks depth
  · rintro draft (hdraft | ⟨value, rfl⟩)
    · exact hdraft.ends_flatten hpicks depth
    · exact Draft.MadeOf.ends_flatten hpicks (.make (.value value)) depth
  · rintro drafts ⟨hlayer⟩ draft hdraft
    cases hlayer with
    | items each => exact (each draft hdraft).ends_flatten hpicks (depth - 1)

end Materializing

/-- The generators that a run with overrides starts from: its own and those of the overrides. -/
def Overrides.Roots (overrides : Overrides) (g root : Generator) : Prop :=
  root = g ∨ ∃ path, overrides.get? path = some (.generator root)

theorem Overrides.rooted_roots (overrides : Overrides) (g : Generator) :
    Rooted (overrides.Roots g) overrides := by
  rintro path entry hentry root rfl
  exact .inr ⟨path, hentry⟩

/-- Generating and resolving have a value once a number of calls may be open, unless some part has no
room, and so does materializing with overrides that need no references either, once enough calls may
be. -/
structure Generator.FailsForRoomOnly (catalog : Catalog) (enough : Nat) (g : Generator) : Prop where
  generated (depth : Nat) (hdepth : enough ≤ depth) (source : Source) :
    Outcome.Meets (Halt.OutOfRoom catalog fun root => root = g)
      (fun draft => ∀ source, Outcome.Meets (Halt.OutOfRoom catalog fun root => root = g)
        (fun _ => True) (draft.resolve catalog depth source).1)
      (g.generate catalog depth source).1
  materialized (stores : Stores) (schema : Json) (overrides : Overrides)
    (hoverrides : overrides.Compiled Json.ReferenceFree) :
    ∃ enough, ∀ depth, enough ≤ depth → ∀ source,
      Outcome.Meets (Halt.OutOfRoom catalog (overrides.Roots g)) (fun _ => True)
        (materialize ⟨catalog, stores⟩ depth schema g ⟨source, overrides⟩).1

/-- A run that fails is cut off at its depth, or has come to a reference whose target is not found or
does not compile, or to a part that has no room. -/
structure Generator.FailsCutOff (catalog : Catalog) (g : Generator) : Prop where
  produced (depth : Nat) (source later : Source) (halt : Halt)
    (hrun : g.produce catalog depth source = (.error halt, later)) :
    halt.CutOff catalog fun root => root = g
  materialized (stores : Stores) (schema : Json) (overrides : Overrides)
    (hoverrides : overrides.Compiled fun _ => True) (depth : Nat) (source : Source)
    (after : Progress) (halt : Halt)
    (hrun : materialize ⟨catalog, stores⟩ depth schema g ⟨source, overrides⟩ =
      (.error halt, after)) :
    halt.CutOff catalog (overrides.Roots g)

section Whole

variable {scope : Scope} {node : Json} {g : Generator}

/-- With enough calls open, materializing a schema without references fails for want of room only. -/
theorem Generator.Within.ends_materialize {bound length size depth : Nat} (h : g.Within bound)
    (hsize : 1 ≤ size) (hdepth : bound + length * (size + 1) ≤ depth) (catalog : Catalog)
    (stores : Stores) (schema : Json) :
    Materialization.Ends (Overrides.Within length size) Halt.IsOverflow (fun _ => True)
      (materialize ⟨catalog, stores⟩ depth schema g) := by
  obtain ⟨lowest, rfl⟩ := h.exists_succ
  apply Specimen.ends_materialize schema (h.ends_generate (by omega))
  · exact fun draft hdraft => hdraft.ends_resolve (by omega)
  · rintro draft (hdraft | ⟨value, rfl⟩)
    · exact hdraft.ends_flatten hsize (by simpa using hdepth)
    · have hvalue : Draft.Within 1 (.value value) := .value value
      exact hvalue.ends_flatten hsize (by simp; omega)
  · intro drafts hdrafts draft hdraft
    obtain ⟨lower, hlower, hlayer⟩ := hdrafts.exists_layer
    cases hlayer with
    | items each => exact (each draft hdraft).ends_flatten hsize (by simp; omega)

theorem failsForRoomOnly_of_compile (hindex : scope.library.index = Picker.ofLength)
    (hfree : node.ReferenceFree) (hcompile : scope.compile node = .ok g) (catalog : Catalog) :
    g.FailsForRoomOnly catalog node.size := by
  -- A run over such schemas fails for want of room only, if enough calls may be open; and a run that
  -- fails is cut off somewhere. So there is a part without room.
  have hcompiled : g.Compiled Json.ReferenceFree := ⟨scope, node, hindex, hfree, hcompile⟩
  have hwithin : g.Within node.size :=
    ⟨scope, node, hindex, ⟨hfree, Nat.le_refl _⟩, hcompile⟩
  have hcutOff {roots : Generator → Prop} (halt : Halt)
      (h : halt.IsOverflow ∧ halt.CutOff catalog roots) : halt.OutOfRoom catalog roots :=
    h.2.outOfRoom h.1
  constructor
  · intro depth hdepth source
    have hpicks (p : Generator) (hp : p.Used catalog fun root => root = g) : p.PicksInRange :=
      (hp.compiled fun _ heq => heq ▸ hcompiled).compiledWith.picksInRange
    have hgenerate := (hwithin.ends_generate hdepth source trivial).2.and
      (Generator.Used.ends_generate hpicks (.root rfl) depth source trivial).2
    refine hgenerate.imp hcutOff fun draft ⟨hdraft, hmade⟩ source => ?_
    have hresolve := (hdraft.ends_resolve hdepth source trivial).2.and
      (hmade.ends_resolve hpicks depth source trivial).2
    exact hresolve.imp hcutOff fun _ _ => trivial
  · intro stores schema overrides hoverrides
    obtain ⟨length, size, hsize, hbounded⟩ := overrides.exists_within hoverrides
    refine ⟨node.size + length * (size + 1), fun depth hdepth source => ?_⟩
    have hroots : ∀ root, overrides.Roots g root → root.Compiled Json.ReferenceFree := by
      rintro root (rfl | ⟨path, hpath⟩)
      · exact hcompiled
      · exact hoverrides path root hpath
    have hpicks (p : Generator) (hp : p.Used catalog (overrides.Roots g)) : p.PicksInRange :=
      (hp.compiled hroots).compiledWith.picksInRange
    have hroom := hwithin.ends_materialize hsize hdepth catalog stores schema
      ⟨source, overrides⟩ hbounded
    have hends := Generator.Used.ends_materialize hpicks (.inl rfl) stores schema depth
      ⟨source, overrides⟩ (overrides.rooted_roots g)
    exact (hroom.2.and hends.2).imp hcutOff fun _ _ => trivial

theorem failsCutOff_of_compile (hindex : scope.library.index = Picker.ofLength)
    (hcompile : scope.compile node = .ok g) {catalog : Catalog}
    (hcatalog : catalog.library.index = Picker.ofLength) : g.FailsCutOff catalog := by
  have hroot : g.CompiledWith Library.PicksInRange :=
    ⟨scope, node, Library.picksInRange_of_index hindex, hcompile⟩
  have hlibrary := Library.picksInRange_of_index hcatalog
  constructor
  · intro depth source later halt hrun
    have hpicks (p : Generator) (hp : p.Used catalog fun root => root = g) : p.PicksInRange :=
      (hp.compiledWith hlibrary fun _ heq => heq ▸ hroot).picksInRange
    have hends := Run.ends_bind (Generator.Used.ends_generate hpicks (.root rfl) depth)
      fun draft hdraft => hdraft.ends_resolve hpicks depth
    exact hends.error trivial hrun
  · intro stores schema overrides hoverrides depth source after halt hrun
    have hroots : ∀ root, overrides.Roots g root → root.CompiledWith Library.PicksInRange := by
      rintro root (rfl | ⟨path, hpath⟩)
      · exact hroot
      · exact (hoverrides path root hpath).compiledWith
    have hpicks (p : Generator) (hp : p.Used catalog (overrides.Roots g)) : p.PicksInRange :=
      (hp.compiledWith hlibrary hroots).picksInRange
    exact (Generator.Used.ends_materialize hpicks (.inl rfl) stores schema depth).error
      (overrides.rooted_roots g) hrun

/-- What is compiled from a schema without references never fails but for want of room, whatever the
catalog; and whatever else is compiled fails at references besides. -/
theorem progress_of_compile (hindex : scope.library.index = Picker.ofLength)
    (hcompile : scope.compile node = .ok g) (catalog : Catalog) :
    (node.ReferenceFree → g.FailsForRoomOnly catalog node.size) ∧
      (catalog.library.index = Picker.ofLength → g.FailsCutOff catalog) :=
  ⟨fun hfree => failsForRoomOnly_of_compile hindex hfree hcompile catalog,
    failsCutOff_of_compile hindex hcompile⟩

end Whole

namespace Sample

/-- A document with a leaf and an enumeration. -/
def unlinkedNode : Json :=
  .obj [("properties", .obj [("id", leafNode), ("kind", enumerationNode)])]

def unlinkedGenerator : Generator :=
  .object [("id", .leaf Leaf.null), ("kind", .enumeration [.str "x", .str "y"] ⟨2, Nat.two_pos⟩)]

def regenerated : Overrides :=
  ⟨[(["id"], .generator (.leaf Leaf.null)), (["kind"], .value (.obj []))]⟩

theorem compile_unlinkedNode : scope.compile unlinkedNode = .ok unlinkedGenerator := by
  have hfields : scope.compileFields [("id", leafNode), ("kind", enumerationNode)] =
      .ok [("id", .leaf Leaf.null), ("kind", .enumeration [.str "x", .str "y"] ⟨2, Nat.two_pos⟩)] := by
    rw [Scope.compileFields, Scope.compileFields, Scope.compileFields, compile_leafNode,
      compile_enumerationNode]
    rfl
  rw [Scope.compile_eq_compileKind]
  change scope.compileType unlinkedNode .object = _
  rw [Scope.compileType]
  exact Scope.compileObject_of_fields rfl hfields

theorem referenceFree_leafNode : leafNode.ReferenceFree :=
  Json.referenceFree_of_keys (by decide)

theorem referenceFree_enumerationNode : enumerationNode.ReferenceFree :=
  Json.referenceFree_of_keys (by decide)

theorem referenceFree_unlinkedNode : unlinkedNode.ReferenceFree := by
  apply Json.referenceFree_obj_iff.mpr
  intro key value hmember
  obtain ⟨rfl, rfl⟩ := Prod.mk.inj (List.mem_singleton.mp hmember)
  refine ⟨fun hkey => absurd hkey (by decide), ?_⟩
  intro child hchild
  obtain ⟨name, hproperty⟩ := hchild.exists_property
  simp only [List.mem_cons, Prod.mk.injEq, List.not_mem_nil, or_false] at hproperty
  rcases hproperty with ⟨-, rfl⟩ | ⟨-, rfl⟩
  · exact referenceFree_leafNode
  · exact referenceFree_enumerationNode

theorem eq_of_regenerated {path : Path} {g : Generator}
    (h : regenerated.get? path = some (.generator g)) : g = .leaf Leaf.null := by
  have hmember := Assoc.mem_of_get? h
  simp only [regenerated, List.mem_cons, Prod.mk.injEq, Override.generator.injEq,
    List.not_mem_nil, or_false, reduceCtorEq, and_false] at hmember
  exact hmember.2

theorem compiled_regenerated : regenerated.Compiled Json.ReferenceFree := by
  intro path g hentry
  obtain rfl := eq_of_regenerated hentry
  exact ⟨scope, leafNode, rfl, referenceFree_leafNode, compile_leafNode⟩

theorem hasRoom_of_used {roots : Generator → Prop} {part : Generator}
    (hroots : ∀ root, roots root → root = unlinkedGenerator ∨ root = .leaf Leaf.null)
    (h : part.Used catalog roots) : part.HasRoom := by
  have hnull : (Generator.leaf Leaf.null).HasRoom := fun s => ⟨.null, s, rfl⟩
  have hcases : part = unlinkedGenerator ∨ part = .leaf Leaf.null ∨
      part = .enumeration [.str "x", .str "y"] ⟨2, Nat.two_pos⟩ := by
    induction h with
    | root isRoot => exact (hroots _ isRoot).imp_right .inl
    | part _ isPart ih =>
        rcases ih with rfl | rfl | rfl
        · cases isPart with
          | field member =>
              rcases List.mem_cons.mp member with rfl | member
              · exact .inr (.inl rfl)
              · obtain rfl := List.mem_singleton.mp member
                exact .inr (.inr rfl)
        · cases isPart
        · cases isPart
    | target _ _ ih => rcases ih with h | h | h <;> cases h
  rcases hcases with rfl | rfl | rfl
  · trivial
  · exact hnull
  · trivial

end Sample

theorem progress_of_compile_unlinked :
    Sample.scope.library.index = Picker.ofLength ∧
      Sample.scope.compile Sample.unlinkedNode = .ok Sample.unlinkedGenerator ∧
      Sample.unlinkedNode.ReferenceFree ∧ Sample.catalog.library.index = Picker.ofLength ∧
      (∀ source, ∃ draft,
        (Sample.unlinkedGenerator.generate Sample.catalog Sample.unlinkedNode.size source).1 =
          .ok draft) ∧
      Sample.regenerated.Compiled Json.ReferenceFree ∧
      (∃ depth, ∀ source, ∃ value, (materialize ⟨Sample.catalog, fun _ => .empty⟩ depth
        Sample.unlinkedNode Sample.unlinkedGenerator ⟨source, Sample.regenerated⟩).1 =
          .ok value) ∧
      Sample.unlinkedGenerator.FailsCutOff Sample.catalog := by
  have hprogress := progress_of_compile rfl Sample.compile_unlinkedNode Sample.catalog
  have honly := hprogress.1 Sample.referenceFree_unlinkedNode
  have hroom {roots : Generator → Prop}
      (hroots : ∀ root, roots root → root = Sample.unlinkedGenerator ∨ root = .leaf Leaf.null)
      (halt : Halt) : ¬ halt.OutOfRoom Sample.catalog roots := by
    rintro ⟨part, cause, hused, hcrowded, -⟩
    exact hcrowded (Sample.hasRoom_of_used hroots hused)
  refine ⟨rfl, Sample.compile_unlinkedNode, Sample.referenceFree_unlinkedNode, rfl, ?_,
    Sample.compiled_regenerated, ?_, hprogress.2 rfl⟩
  · intro source
    obtain ⟨draft, hrun, -⟩ := (honly.generated _ (Nat.le_refl _) source).exists_ok
      (hroom fun root hroot => .inl hroot)
    exact ⟨draft, hrun⟩
  · obtain ⟨enough, hrun⟩ := honly.materialized (fun _ => .empty) Sample.unlinkedNode
      Sample.regenerated Sample.compiled_regenerated
    have hroots : ∀ root, Sample.regenerated.Roots Sample.unlinkedGenerator root →
        root = Sample.unlinkedGenerator ∨ root = .leaf Leaf.null := by
      rintro root (rfl | ⟨path, hpath⟩)
      · exact .inl rfl
      · exact .inr (Sample.eq_of_regenerated hpath)
    refine ⟨enough, fun source => ?_⟩
    obtain ⟨value, hvalue, -⟩ :=
      (hrun enough (Nat.le_refl _) source).exists_ok (hroom hroots)
    exact ⟨value, hvalue⟩

/-- A schema without references may have no value all the same: a text may be asked for that no buffer
has room for. -/
theorem overflows_boundlessText : ∃ generator,
    Scope.compile ⟨"Test", .standard⟩ Sample.boundlessText = .ok generator ∧
      Sample.boundlessText.ReferenceFree ∧ ∀ catalog depth source draft later,
        generator.generate catalog depth source ≠ (.ok draft, later) :=
  ⟨_, Sample.compile_boundlessText, Json.referenceFree_of_keys (by decide),
    fun _ _ _ _ _ hrun => Sample.not_drafts_boundlessText ⟨_, _, hrun⟩⟩

end Specimen
