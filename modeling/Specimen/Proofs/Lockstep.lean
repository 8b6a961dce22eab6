import Specimen.Proofs.Correspondence

/-!
# Nodes in lockstep

A relation of nodes, each in a schema of its own catalog, is in lockstep when related nodes correspond
or are references whose targets are related again, with what stands beside the references laid over
them. Compiling related nodes and running what they compile to then goes the same way on both sides,
up to the same value and the same source.
-/

namespace Specimen

/-- A value of a node of a schema: the node is compiled, and what it compiles to is run. -/
def Catalog.sample (catalog : Catalog) (depth : Nat) (schema : String) (node : Json) :
    Generation Json := do
  let generator ← Generation.ofExcept (Scope.compile ⟨schema, catalog.library⟩ node)
  generator.produce catalog depth

/-- Two ways of having no value are of one kind; errors are related. -/
inductive Halt.Related (E : Error → Error → Prop) : Halt → Halt → Prop where
  | error {e f : Error} (errors : E e f) : Related E (.error e) (.error f)
  | tooDeep : Related E .tooDeep .tooDeep
  | outOfRange : Related E .outOfRange .outOfRange
  | overflow (cause : Overflow) : Related E (.overflow cause) (.overflow cause)

theorem Halt.related_self {E : Error → Error → Prop} (hrefl : ∀ e, E e e) (halt : Halt) :
    Halt.Related E halt halt := by
  cases halt with
  | error e => exact .error (hrefl e)
  | tooDeep => exact .tooDeep
  | outOfRange => exact .outOfRange
  | overflow cause => exact .overflow cause

/-- The node that a reference in a schema stands for: its target with the rest of the node laid over
it, in the schema the target is found in. -/
def Catalog.target (catalog : Catalog) (schema : String) (node : Json) (reference : Reference) :
    Except Error Json :=
  (fun found => found.merge (node.without Keyword.ref.text)) <$>
    catalog.resolve (reference.schemaOr schema) reference

/-- The nodes that are compiled when a schema is sampled, each with the schema it is compiled in. -/
inductive Reached (catalog : Catalog) (schema : String) (root : Json) : String → Json → Prop where
  | root : Reached catalog schema root schema root
  | part {current : String} {node part : Json} (whole : Reached catalog schema root current node)
      (isPart : node.Part part) : Reached catalog schema root current part
  | target {current : String} {node target : Json} {pointer : String} {reference : Reference}
      (referrer : Reached catalog schema root current node)
      (classified : classify node = .ok (.reference pointer))
      (parsed : Reference.parse pointer = .ok reference)
      (found : catalog.target current node reference = .ok target) :
      Reached catalog schema root (reference.schemaOr current) target

section Lockstep

variable (catalog other : Catalog) (E : Error → Error → Prop)
  (N : String → Json → String → Json → Prop)

/-- Two nodes are references; if they can be read, their targets are related or missing both. -/
inductive RefersAlike (schema : String) (node : Json) (schema' : String) (node' : Json) : Prop where
  | misread {pointer pointer' : String} {e f : SchemaError}
      (left : classify node = .ok (.reference pointer))
      (right : classify node' = .ok (.reference pointer'))
      (unread : Reference.parse pointer = .error e) (unread' : Reference.parse pointer' = .error f)
      (errors : E (.schema e) (.schema f))
  | read {pointer pointer' : String} {reference reference' : Reference}
      (left : classify node = .ok (.reference pointer))
      (right : classify node' = .ok (.reference pointer'))
      (parsed : Reference.parse pointer = .ok reference)
      (parsed' : Reference.parse pointer' = .ok reference')
      (targets : Outcome.Related E
        (N (reference.schemaOr schema) · (reference'.schemaOr schema') ·)
        (catalog.target schema node reference) (other.target schema' node' reference'))

def Lockstep : Prop :=
  ∀ {schema : String} {node : Json} {schema' : String} {node' : Json},
    N schema node schema' node' →
      Corresponds E (N schema · schema' ·) node node' ∨
        RefersAlike catalog other E N schema node schema' node'

/-- Generators that related nodes compile to. -/
def LockedFrom (library : Library) (g h : Generator) : Prop :=
  ∃ schema schema', CompiledFrom library schema schema' (N schema · schema' ·) g h

/-- Drafts that are built alike all the way down to related generators. -/
inductive Draft.Built (R : Generator → Generator → Prop) : Draft → Draft → Prop where
  | build {a b : Draft} (alike : Draft.Alike R (Built R) a b) : Built R a b

end Lockstep

section Runs

variable {catalog other : Catalog} {E : Error → Error → Prop}
  {N : String → Json → String → Json → Prop} {schema schema' : String} {node node' : Json}

theorem Lockstep.compileAlike (hlock : Lockstep catalog other E N) (hrefl : ∀ e, E e e)
    (library : Library) (h : N schema node schema' node') :
    CompileAlike E library schema schema' node node' := by
  induction hsize : node.size using Nat.strongRecOn generalizing node node' with
  | ind size ih =>
      subst hsize
      rcases hlock h with hcorresponds | hrefers
      · have hparts : PartsCompile E (N schema · schema' ·) library schema schema' node :=
          fun part other hpart hrelated => ih part.size hpart.size_lt hrelated rfl
        exact (related_of_corresponds hrefl hparts hcorresponds).imp (fun _ _ he => he)
          fun _ _ _ => trivial
      · cases hrefers with
        | misread left right unread unread' errors =>
            rw [CompileAlike, Scope.compile_of_classify left, Scope.compile_of_classify right,
              Scope.compileKind, Scope.compileKind, Scope.reference, Scope.reference, unread,
              unread']
            exact .error errors
        | read left right parsed parsed' targets =>
            rw [CompileAlike, Scope.compile_of_classify left, Scope.compile_of_classify right,
              Scope.compileKind, Scope.compileKind, Scope.reference, Scope.reference, parsed,
              parsed']
            exact .ok trivial

theorem Lockstep.compile (hlock : Lockstep catalog other E N) (hrefl : ∀ e, E e e)
    (library : Library) (h : N schema node schema' node') :
    Outcome.Related E (LockedFrom N library) (Scope.compile ⟨schema, library⟩ node)
      (Scope.compile ⟨schema', library⟩ node') := by
  have hcompile := (hlock.compileAlike hrefl library h).compiledFrom
    (P := fun node node' => N schema node schema' node') h
  exact hcompile.imp (fun _ _ he => he) fun g g' hgenerators => ⟨schema, schema', hgenerators⟩

/-- Two generators are references whose targets, looked up and compiled, are related. -/
def DereferenceAlike (catalog other : Catalog) (E : Error → Error → Prop)
    (R : Generator → Generator → Prop) (g h : Generator) : Prop :=
  ∃ schema target overlay schema' target' overlay',
    g = .reference schema target overlay ∧ h = .reference schema' target' overlay' ∧
      Outcome.Related E R (Generator.dereference catalog schema target overlay)
        (Generator.dereference other schema' target' overlay')

theorem Catalog.dereference_eq_target (catalog : Catalog) (schema : String) (node : Json)
    (reference : Reference) :
    Generator.dereference catalog (reference.schemaOr schema) reference
        (node.without Keyword.ref.text) =
      catalog.target schema node reference >>=
        Scope.compile ⟨reference.schemaOr schema, catalog.library⟩ := by
  rw [Generator.dereference, target]
  cases catalog.resolve (reference.schemaOr schema) reference with
  | error e => rfl
  | ok found => rfl

/-- What related nodes compile to is built alike of such generators, unless it is two references to
related targets. -/
theorem Lockstep.step (hlock : Lockstep catalog other E N) (hrefl : ∀ e, E e e)
    (hlibrary : other.library = catalog.library) {g h : Generator}
    (hlocked : LockedFrom N catalog.library g h) :
    Generator.Alike catalog.library (LockedFrom N catalog.library) g h ∨
      DereferenceAlike catalog other E (LockedFrom N catalog.library) g h := by
  obtain ⟨schema, schema', node, node', hrelated, hg, hh⟩ := hlocked
  rcases hlock hrelated with hcorresponds | hrefers
  · left
    have hparts : PartsCompile E (N schema · schema' ·) catalog.library schema schema' node :=
      fun part other _ hpart => hlock.compileAlike hrefl catalog.library hpart
    have halike := related_of_corresponds hrefl hparts hcorresponds
    rw [hg, hh] at halike
    exact halike.of_ok.imp fun g h hgh => ⟨schema, schema', hgh⟩
  · right
    cases hrefers with
    | misread left right unread unread' errors =>
        rw [Scope.compile_of_classify left, Scope.compileKind, Scope.reference, unread] at hg
        cases hg
    | @read pointer pointer' reference reference' left right parsed parsed' targets =>
        rw [Scope.compile_of_classify left, Scope.compileKind, Scope.reference, parsed] at hg
        rw [Scope.compile_of_classify right, Scope.compileKind, Scope.reference, parsed'] at hh
        cases hg
        cases hh
        refine ⟨_, _, _, _, _, _, rfl, rfl, ?_⟩
        rw [Catalog.dereference_eq_target, Catalog.dereference_eq_target, hlibrary]
        apply targets.bind
        intro found found' hfound
        exact hlock.compile hrefl catalog.library hfound

theorem Lockstep.generate (hlock : Lockstep catalog other E N) (hrefl : ∀ e, E e e)
    (hlibrary : other.library = catalog.library) (depth : Nat) :
    ∀ g h, LockedFrom N catalog.library g h →
      Run.Agree (Halt.Related E) (Draft.Built (LockedFrom N catalog.library))
        (g.generate catalog depth) (h.generate other depth) := by
  induction depth with
  | zero =>
      intro g h _
      exact Run.agree_throw .tooDeep
  | succ depth ih =>
      intro g h hlocked
      rcases hlock.step hrefl hlibrary hlocked with halike | hrefers
      · exact halike.generate (fun _ => .outOfRange) .overflow (fun a b hab => hab)
          (fun a b hab => .build hab) ih
      · obtain ⟨schema, target, overlay, schema', target', overlay', rfl, rfl, htargets⟩ := hrefers
        apply Run.agree_bind (Generation.agree_ofExcept (htargets.imp
          (fun e f he => Halt.Related.error he) fun _ _ hgh => hgh))
        exact ih

theorem Lockstep.resolve (hlock : Lockstep catalog other E N) (hrefl : ∀ e, E e e)
    (hlibrary : other.library = catalog.library) (depth : Nat) :
    ∀ a b, Draft.Built (LockedFrom N catalog.library) a b →
      Run.Agree (Halt.Related E) Eq (a.resolve catalog depth) (b.resolve other depth) := by
  induction depth with
  | zero =>
      intro a b _
      exact Run.agree_throw .tooDeep
  | succ depth ih =>
      rintro a b ⟨halike⟩
      exact halike.resolve (hlock.generate hrefl hlibrary depth) ih

/-- Related nodes give the same value from the same source, or none both. -/
theorem Lockstep.sample (hlock : Lockstep catalog other E N) (hrefl : ∀ e, E e e)
    (hlibrary : other.library = catalog.library) (depth : Nat)
    (h : N schema node schema' node') :
    Run.Agree (Halt.Related E) Eq (catalog.sample depth schema node)
      (other.sample depth schema' node') := by
  rw [Catalog.sample, Catalog.sample, hlibrary]
  apply Run.agree_bind (Generation.agree_ofExcept ((hlock.compile hrefl catalog.library h).imp
    (fun e f he => Halt.Related.error he) fun _ _ hgenerators => hgenerators))
  intro g g' hgenerators
  apply Run.agree_bind (hlock.generate hrefl hlibrary depth g g' hgenerators)
  exact hlock.resolve hrefl hlibrary depth

/-- What related nodes compile to has the same opinion on every value. -/
theorem Lockstep.validate (hlock : Lockstep catalog other E N) (hrefl : ∀ e, E e e)
    (hlibrary : other.library = catalog.library) {g h : Generator}
    (hlocked : LockedFrom N catalog.library g h) (value : Json) :
    g.validate value = h.validate value := by
  induction hsize : sizeOf g using Nat.strongRecOn generalizing g h value with
  | ind size ih =>
      subst hsize
      rcases hlock.step hrefl hlibrary hlocked with halike | hrefers
      · exact halike.validate (fun part other hlt hrelated value => ih _ hlt hrelated value rfl) value
      · obtain ⟨_, _, _, _, _, _, rfl, rfl, -⟩ := hrefers
        rfl

end Runs

namespace Sample

def referTo (pointer : String) : Json :=
  .obj [("$ref", .str pointer)]

/-- A document that refers to itself and to another one. -/
def linked (pointer : String) : Json :=
  .obj [("properties",
    .obj [("id", leafNode), ("next", referTo pointer), ("far", referTo "other#")])]

def linkedCatalog (pointer : String) : Catalog :=
  ⟨[("sample", linked pointer), ("other", leafNode)], library⟩

theorem reached_linked {schema : String} {node : Json}
    (h : Reached (linkedCatalog "#/properties/id") "sample" (linked "#/properties/id") schema
      node) :
    (schema = "sample" ∧ (node = linked "#/properties/id" ∨ node = referTo "#/properties/id" ∨
      node = referTo "other#")) ∨ node = leafNode := by
  have hleaf {part : Json} : ¬ leafNode.Part part :=
    Json.not_part rfl rfl (by simp) (by simp [Kind.type?]) (by simp [Kind.type?])
  have hreferTo {pointer : String} {part : Json} : ¬ (referTo pointer).Part part :=
    Json.not_part rfl rfl (by simp) (by simp [Kind.type?]) (by simp [Kind.type?])
  induction h with
  | root => exact .inl ⟨rfl, .inl rfl⟩
  | part _ hpart ih =>
      rcases ih with ⟨hschema, rfl | rfl | rfl⟩ | rfl
      · obtain ⟨properties, hpresent, property, hproperty, rfl⟩ := hpart.exists_property rfl rfl
        cases hpresent
        simp only [List.mem_cons, List.not_mem_nil, or_false] at hproperty
        rcases hproperty with rfl | rfl | rfl
        · exact .inr rfl
        · exact .inl ⟨hschema, .inr (.inl rfl)⟩
        · exact .inl ⟨hschema, .inr (.inr rfl)⟩
      · exact absurd hpart hreferTo
      · exact absurd hpart hreferTo
      · exact absurd hpart hleaf
  | target _ classified parsed found ih =>
      rcases ih with ⟨rfl, rfl | rfl | rfl⟩ | rfl
      · cases classified
      · cases classified
        cases parsed
        cases found
        exact .inr rfl
      · cases classified
        cases parsed
        cases found
        exact .inr rfl
      · cases classified

end Sample

end Specimen
