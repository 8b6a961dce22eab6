import Specimen.Proofs.Lockstep
import Specimen.Proofs.Overriding

/-!
# Schemas under two names

The name a document is compiled under goes into every local pointer, and from there into what is
compiled while values are generated. Under two names that hold the same document this makes no
difference: what a local pointer leads to is the same in both. Runs of the two generators then go in
lockstep, plain ones and ones with overrides, however often they are repeated.
-/

namespace Specimen

/-- Errors that are the same, up to the schema in which a segment is missing. -/
inductive Error.AlikeInSchemas : Error → Error → Prop where
  | same (e : Error) : AlikeInSchemas e e
  | missing (schema other pointer segment : String) :
      AlikeInSchemas (.schema (.missingSegment schema pointer segment))
        (.schema (.missingSegment other pointer segment))

/-! ### Materializing side by side -/

section Materializing

variable {E : Halt → Halt → Prop}

theorem Materialization.agree_ofGeneration {α β : Type} {R : α → β → Prop} {x : Generation α}
    {y : Generation β} (h : Run.Agree E R x y) :
    Run.Agree E R (ofGeneration x) (ofGeneration y) := by
  intro progress
  obtain ⟨hsource, hrelated⟩ := h progress.source
  rw [ofGeneration_apply, ofGeneration_apply, hsource]
  exact ⟨rfl, hrelated⟩

variable {R : Generator → Generator → Prop} {setting : Setting} {depth : Nat}

/-- Drafts that are built alike are flattened alike. Overrides are the same on both sides, so what
one of them supplies is not only alike. -/
theorem Draft.Built.flatten (hrefl : ∀ halt, E halt halt)
    (hgenerate : ∀ depth g h, R g h → Run.Agree E (Draft.Built R)
      (g.generate setting.catalog depth) (h.generate setting.catalog depth))
    (hresolve : ∀ depth a b, Draft.Built R a b →
      Run.Agree E Eq (a.resolve setting.catalog depth) (b.resolve setting.catalog depth))
    (depth : Nat) : ∀ (path : Path) (a b : Draft), Draft.Built R a b →
      Run.Agree E Eq (flatten setting depth path a) (flatten setting depth path b) := by
  induction depth with
  | zero =>
      intro path a b _
      exact Run.agree_throw (hrefl _)
  | succ depth ih =>
      intro path a b hbuilt
      cases hbuilt with
      | build halike =>
          cases halike with
          | value value => exact Run.agree_self hrefl _
          | items each =>
              rw [flatten_items, flatten_items]
              exact Materialization.agree_ofGeneration
                (hresolve (depth + 1) _ _ (.build (.items each)))
          | fields each =>
              have hfield : ∀ field other : String × Generator,
                  field.1 = other.1 ∧ R field.2 other.2 → Run.Agree E Eq
                    (flattenField setting depth path field)
                    (flattenField setting depth path other) := by
                rintro ⟨name, g⟩ ⟨_, h⟩ ⟨rfl, hrelated⟩
                apply Run.agree_bind (Run.agree_self hrefl (overridden? setting depth _))
                rintro found _ rfl
                cases found with
                | some draft => exact Run.agree_self hrefl _
                | none =>
                    apply Run.agree_bind
                      (Materialization.agree_ofGeneration (hgenerate depth g h hrelated))
                    intro draft other hdrafts
                    apply Run.agree_bind (ih (path ++ [name]) draft other hdrafts)
                    rintro value _ rfl
                    exact Run.agree_pure rfl
              rw [flatten_fields, flatten_fields]
              apply Run.agree_bind (Run.agree_mapM hfield each)
              intro members others hmembers
              rw [List.forall₂_eq_eq_eq] at hmembers
              exact Run.agree_pure (congrArg Json.obj hmembers)

theorem Draft.Built.materialize (hrefl : ∀ halt, E halt halt)
    (hgenerate : ∀ depth g h, R g h → Run.Agree E (Draft.Built R)
      (g.generate setting.catalog depth) (h.generate setting.catalog depth))
    (hresolve : ∀ depth a b, Draft.Built R a b →
      Run.Agree E Eq (a.resolve setting.catalog depth) (b.resolve setting.catalog depth))
    (depth : Nat) (schema : Json) {g h : Generator} (hrelated : R g h) :
    Run.Agree E Eq (materialize setting depth schema g) (materialize setting depth schema h) := by
  have hflatten := Draft.Built.flatten hrefl hgenerate hresolve
  apply Run.agree_bind (Materialization.agree_ofGeneration (hgenerate depth g h hrelated))
  intro a b hbuilt
  have hplain : Run.Agree E Eq
      (Materialization.ofGeneration (a.resolve setting.catalog depth))
      (Materialization.ofGeneration (b.resolve setting.catalog depth)) :=
    Materialization.agree_ofGeneration (hresolve depth a b hbuilt)
  dsimp only
  cases RootShape.ofSchema schema with
  | object => exact hflatten depth [] a b hbuilt
  | other => exact hplain
  | array =>
      cases hbuilt with
      | build halike =>
          cases halike with
          | value value => exact Run.agree_self hrefl _
          | fields each => exact hplain
          | items each =>
              apply Run.agree_bind (Run.agree_mapM (hflatten (depth - 1) []) each)
              intro values others hvalues
              rw [List.forall₂_eq_eq_eq] at hvalues
              exact Run.agree_pure (congrArg Json.arr hvalues)

end Materializing

/-! ### Repeated runs -/

namespace Run

variable {ε σ α β : Type}

/-- The outcomes of a computation that is run again and again, each time from where the run before
it ended, also if that one failed. -/
def attempts (x : ExceptT ε (StateM σ) α) : Nat → σ → List (Except ε α) × σ
  | 0, s => ([], s)
  | count + 1, s => ((x s).1 :: (attempts x count (x s).2).1, (attempts x count (x s).2).2)

/-- However often they are repeated, two computations end in the same state, and each attempt of the
one ends like that of the other. -/
def AgreeRepeatedly (E : ε → ε → Prop) (R : α → β → Prop) (x : ExceptT ε (StateM σ) α)
    (y : ExceptT ε (StateM σ) β) : Prop :=
  ∀ count s, (attempts x count s).2 = (attempts y count s).2 ∧
    List.Forall₂ (Outcome.Related E R) (attempts x count s).1 (attempts y count s).1

theorem Agree.repeatedly {E : ε → ε → Prop} {R : α → β → Prop} {x : ExceptT ε (StateM σ) α}
    {y : ExceptT ε (StateM σ) β} (h : Agree E R x y) : AgreeRepeatedly E R x y := by
  intro count
  induction count with
  | zero =>
      intro s
      exact ⟨rfl, .nil⟩
  | succ count ih =>
      intro s
      obtain ⟨hstate, hfirst⟩ := h s
      obtain ⟨hlast, hrest⟩ := ih (x s).2
      rw [attempts, attempts, ← hstate]
      exact ⟨hlast, .cons hfirst hrest⟩

end Run

/-! ### Two names for one document -/

/-- Two names are the same or hold the same document. -/
def Catalog.Namesakes (catalog : Catalog) (schema other : String) : Prop :=
  schema = other ∨
    ∃ document, catalog.get? schema = some document ∧ catalog.get? other = some document

section Namesakes

variable {catalog : Catalog} {schema other : String}

theorem Reference.namesakes_schemaOr (h : catalog.Namesakes schema other) (reference : Reference) :
    catalog.Namesakes (reference.schemaOr schema) (reference.schemaOr other) := by
  rw [schemaOr, schemaOr]
  cases reference.schema with
  | none => exact h
  | some name => exact .inl rfl

/-- A pointer leads to the same node under two names for one document. -/
theorem Catalog.Namesakes.resolve (h : catalog.Namesakes schema other) (reference : Reference) :
    Outcome.Related Error.AlikeInSchemas Eq (catalog.resolve schema reference)
      (catalog.resolve other reference) := by
  rcases h with rfl | ⟨document, hschema, hother⟩
  · exact Outcome.related_self .same _
  · rw [Catalog.resolve, Catalog.resolve, require, require, hschema, hother]
    dsimp only
    rw [Reference.lookup, Reference.lookup]
    cases Reference.follow document reference.segments with
    | ok node => exact .ok rfl
    | error segment => exact .error (.missing ..)

theorem Catalog.Namesakes.target (h : catalog.Namesakes schema other) (node : Json)
    (reference : Reference) :
    Outcome.Related Error.AlikeInSchemas Eq (catalog.target schema node reference)
      (catalog.target other node reference) := by
  rw [Catalog.target, Catalog.target]
  rcases ((Reference.namesakes_schemaOr h reference).resolve reference).cases with
    ⟨found, _, hfound, hfound', rfl⟩ | ⟨e, f, he, hf, herrors⟩
  · rw [hfound, hfound']
    exact .ok rfl
  · rw [he, hf]
    exact .error herrors

/-- The same node under two names for one document. -/
def SharedNode (catalog : Catalog) (schema : String) (node : Json) (schema' : String)
    (node' : Json) : Prop :=
  catalog.Namesakes schema schema' ∧ node = node'

theorem lockstep_sharedNode (catalog : Catalog) :
    Lockstep catalog catalog Error.AlikeInSchemas (SharedNode catalog) := by
  rintro schema node schema' _ ⟨hnames, rfl⟩
  rcases corresponds_self (P := (SharedNode catalog schema · schema' ·)) Error.AlikeInSchemas.same
      (fun part => ⟨hnames, rfl⟩) node with hcorresponds | ⟨pointer, hkind⟩
  · exact .inl hcorresponds
  · right
    cases hparse : Reference.parse pointer with
    | error e => exact .misread hkind hkind hparse hparse (.same _)
    | ok reference =>
        apply RefersAlike.read hkind hkind hparse hparse
        exact (hnames.target node reference).imp (fun _ _ he => he) fun _ _ htarget =>
          ⟨Reference.namesakes_schemaOr hnames reference, htarget⟩

/-- Runs of two generators cannot be told apart, whether they are plain or have overrides. -/
structure Generator.RunAlike (catalog : Catalog) (schema : Json) (g h : Generator) : Prop where
  produced (depth : Nat) :
    Run.AgreeRepeatedly (Halt.Related Error.AlikeInSchemas) Eq (g.produce catalog depth)
      (h.produce catalog depth)
  materialized (stores : Stores) (depth : Nat) :
    Run.AgreeRepeatedly (Halt.Related Error.AlikeInSchemas) Eq
      (materialize ⟨catalog, stores⟩ depth schema g) (materialize ⟨catalog, stores⟩ depth schema h)

/-- A document compiles under one of its names if and only if it does under any other, and then runs
of the two generators give the same values from the same source. -/
theorem compile_namesake {first second : String} {document : Json}
    (hfirst : catalog.get? first = some document) (hsecond : catalog.get? second = some document) :
    Outcome.Related Error.AlikeInSchemas (Generator.RunAlike catalog document)
      (Scope.compile ⟨first, catalog.library⟩ document)
      (Scope.compile ⟨second, catalog.library⟩ document) := by
  have hlock : Lockstep catalog catalog Error.AlikeInSchemas (SharedNode catalog) :=
    lockstep_sharedNode catalog
  have hrefl : ∀ halt, Halt.Related Error.AlikeInSchemas halt halt := Halt.related_self .same
  have hshared : SharedNode catalog first document second document :=
    ⟨.inr ⟨document, hfirst, hsecond⟩, rfl⟩
  have hgenerate := hlock.generate .same rfl
  have hresolve := hlock.resolve .same rfl
  refine (hlock.compile .same catalog.library hshared).imp (fun _ _ he => he) ?_
  intro g h hlocked
  constructor
  · intro depth
    apply Run.Agree.repeatedly
    exact Run.agree_bind (hgenerate depth g h hlocked) (hresolve depth)
  · intro stores depth
    apply Run.Agree.repeatedly
    exact Draft.Built.materialize hrefl hgenerate hresolve depth document hlocked

end Namesakes

namespace Sample

/-- A document that refers to itself as a local one and under two names. -/
def twofold : Json :=
  .obj [("properties", .obj [("id", leafNode), ("next", referTo "#/properties/id"),
    ("own", referTo "first#/properties/next"), ("far", referTo "second#/properties/next")])]

def twofoldCatalog : Catalog :=
  ⟨[("first", twofold), ("second", twofold)], library⟩

end Sample

theorem compile_namesake_twofold :
    Sample.twofoldCatalog.get? "first" = some Sample.twofold ∧
      Sample.twofoldCatalog.get? "second" = some Sample.twofold ∧
      Outcome.Related Error.AlikeInSchemas
        (Generator.RunAlike Sample.twofoldCatalog Sample.twofold)
        (Scope.compile ⟨"first", Sample.library⟩ Sample.twofold)
        (Scope.compile ⟨"second", Sample.library⟩ Sample.twofold) :=
  ⟨rfl, rfl, compile_namesake rfl rfl⟩

end Specimen
