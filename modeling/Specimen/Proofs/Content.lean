import Specimen.Proofs.Request

/-!
# Content of registries

A catalog is read by name only, so the order in which schemas were recorded does not show.
Registries that hold the same under every name open the same fixtures, and sessions over them go
on alike.
-/

namespace Specimen

/-- The same schema stands under every name, and leaves come from the same library. -/
structure Catalog.Same (catalog other : Catalog) : Prop where
  library : catalog.library = other.library
  schemas : ∀ name, catalog.get? name = other.get? name

/-- The same schema and the same generator stand under every name, and fixtures are opened alike. -/
structure Registry.Same (registry other : Registry) : Prop where
  catalog : registry.catalog.Same other.catalog
  generators : ∀ name, registry.generator? name = other.generator? name
  seed : registry.seed = other.seed
  storeSizes : registry.storeSizes = other.storeSizes
  opened : registry.opened = other.opened

/-! ### Generating -/

section Generating

variable {catalog other : Catalog}

theorem Catalog.Same.resolve_eq (h : catalog.Same other) (name : String) (reference : Reference) :
    catalog.resolve name reference = other.resolve name reference := by
  rw [resolve, resolve, require, require, h.schemas]

theorem Catalog.Same.dereference_eq (h : catalog.Same other) (schema : String)
    (target : Reference) (overlay : Json) : Generator.dereference catalog schema target overlay =
      Generator.dereference other schema target overlay := by
  rw [Generator.dereference, Generator.dereference, h.resolve_eq, h.library]

theorem Catalog.Same.generate_eq (h : catalog.Same other) (depth : Nat) :
    Generator.generate catalog depth = Generator.generate other depth := by
  induction depth with
  | zero =>
      funext generator
      rw [Generator.generate, Generator.generate]
  | succ depth ih =>
      funext generator
      cases generator with
      | reference schema target overlay =>
          rw [Generator.generate, Generator.generate, ih, h.dereference_eq]
      | choice keyword candidates picker => rw [Generator.generate, Generator.generate, ih]
      | allOf merged => rw [Generator.generate, Generator.generate, ih]
      | tuple items => rw [Generator.generate, Generator.generate, ih]
      | list item lengths => rw [Generator.generate, Generator.generate, ih]
      | leaf | enumeration | empty | object => rfl

theorem Catalog.Same.resolveDraft_eq (h : catalog.Same other) (depth : Nat) :
    Draft.resolve catalog depth = Draft.resolve other depth := by
  induction depth with
  | zero =>
      funext draft
      rw [Draft.resolve, Draft.resolve]
  | succ depth ih =>
      funext draft
      cases draft with
      | value => rfl
      | fields fields => rw [Draft.resolve, Draft.resolve, ih, h.generate_eq]
      | items drafts => rw [Draft.resolve, Draft.resolve, ih]

/-- Over catalogs of the same content runs that find the same stores do the same. -/
theorem Catalog.Same.alike (h : catalog.Same other) (stores : Stores) :
    Setting.Alike (fun _ => True) ⟨catalog, stores⟩ ⟨other, stores⟩ where
  library := h.library
  generate generator depth := congrFun (h.generate_eq depth) generator
  resolve draft depth := congrFun (h.resolveDraft_eq depth) draft
  found _ _ := rfl

end Generating

/-! ### Opening -/

theorem Registry.Same.nextSource_eq {registry other : Registry} (h : registry.Same other)
    (unseeded : Source) (name : String) :
    registry.nextSource unseeded name = other.nextSource unseeded name := by
  rw [nextSource, nextSource, h.seed, h.opened]

theorem Registry.Same.openFixture {registry other : Registry} (h : registry.Same other)
    (stores : Stores) (depth : Nat) (unseeded : Source) (name : String) (count : Nat)
    (overrides : Overrides) :
    (registry.openFixture stores depth unseeded name count overrides).1 =
        (other.openFixture stores depth unseeded name count overrides).1 ∧
      (registry.openFixture stores depth unseeded name count overrides).2.Same
        (other.openFixture stores depth unseeded name count overrides).2 := by
  rw [Registry.openFixture, Registry.openFixture, h.generators, h.catalog.schemas,
    h.nextSource_eq]
  split
  case h_2 => exact ⟨rfl, h⟩
  case h_1 generator schema _ _ =>
      let fresh : Fixture :=
        ⟨name, generator, schema, overrides, other.nextSource unseeded name, Store.empty⟩
      have hfill : fresh.fill ⟨registry.catalog, stores⟩ depth count =
          fresh.fill ⟨other.catalog, stores⟩ depth count :=
        (Fixture.fill_same (h.catalog.alike stores) (fun _ _ => trivial) count trivial).1
      have hsame : Registry.Same { registry with opened := registry.opened + 1 }
          { other with opened := other.opened + 1 } :=
        ⟨h.catalog, h.generators, h.seed, h.storeSizes, by rw [h.opened]⟩
      dsimp only
      rw [hfill]
      rcases fresh.fill ⟨other.catalog, stores⟩ depth count with ⟨halt | _, filled⟩
      · exact ⟨rfl, hsame⟩
      · exact ⟨rfl, hsame⟩

/-! ### Sessions -/

namespace Session

variable {session : Session} {registry : Registry}

/-- The session over another registry. -/
def withRegistry (session : Session) (registry : Registry) : Session :=
  { session with registry := registry }

theorem act_withRegistry {α : Type} {number : Nat} {action other : Fixture → α × Fixture}
    (h : ∀ fixture, other fixture = action fixture) :
    (session.withRegistry registry).act number other =
      ((session.act number action).1, (session.act number action).2.withRegistry registry) := by
  have hsame : (session.withRegistry registry).fixture? number = session.fixture? number := rfl
  rw [funext h]
  cases hfixture : session.fixture? number with
  | none => rw [act_of_none hfixture, act_of_none (hsame.trans hfixture)]
  | some fixture =>
      rw [act_of_some hfixture, act_of_some (hsame.trans hfixture)]
      rfl

theorem generate_withRegistry (h : session.registry.Same registry) (number : Nat) :
    (session.withRegistry registry).generate number =
      ((session.generate number).1, (session.generate number).2.withRegistry registry) :=
  act_withRegistry fun _ =>
    (Fixture.generate_same (h.catalog.alike session.stores) (fun _ _ => trivial) trivial).1.symm

theorem fill_withRegistry (h : session.registry.Same registry) (number count : Nat) :
    (session.withRegistry registry).fill number count =
      ((session.fill number count).1, (session.fill number count).2.withRegistry registry) :=
  act_withRegistry fun _ =>
    (Fixture.fill_same (h.catalog.alike session.stores) (fun _ _ => trivial) count trivial).1.symm

theorem relate_withRegistry (session : Session) (registry : Registry) (number : Nat) :
    ((session.withRegistry registry).relate number).2 =
      (session.relate number).2.withRegistry registry := by
  rw [relate_snd, relate_snd, act_withRegistry fun _ => rfl]
  rfl

theorem pick_withRegistry (session : Session) (registry : Registry) (number count : Nat) :
    ((session.withRegistry registry).pick number count).2 =
      (session.pick number count).2.withRegistry registry := by
  have hsame : (session.withRegistry registry).relation? number = session.relation? number := rfl
  rw [pick, pick, hsame]
  cases session.relation? number with
  | none => rfl
  | some relation => rfl

theorem serve_withRegistry (h : session.registry.Same registry) (number : Nat) (fixture : Fixture)
    (request : Request) :
    fixture.serve session.setting session.depth number request =
      fixture.serve (session.withRegistry registry).setting (session.withRegistry registry).depth
        number request :=
  (Fixture.serve_same (h.catalog.alike session.stores) (fun _ _ => trivial) trivial request).1

theorem opened_withRegistry (h : session.registry.Same registry) (name : String) (count : Nat)
    (overrides : Overrides) :
    session.opened name count overrides =
      (session.withRegistry registry).opened name count overrides :=
  (h.openFixture session.stores session.depth session.unseeded name count overrides).1

theorem reply?_withRegistry (h : session.registry.Same registry) (number : Nat)
    (operation : Operation) :
    session.reply? number operation = (session.withRegistry registry).reply? number operation := by
  rw [reply?_eq, reply?_eq]
  congr 1
  funext request
  congr 1
  funext fixture
  rw [serve_withRegistry h]

/-- An operation does the same to a session over a registry of the same content. -/
theorem perform_withRegistry (h : session.registry.Same registry) (operation : Operation) :
    ∃ next, (session.withRegistry registry).perform operation =
        (session.perform operation).withRegistry next ∧
      (session.perform operation).registry.Same next := by
  have hkept (hperform : (session.withRegistry registry).perform operation =
        (session.perform operation).withRegistry registry)
      (hregistry : (session.perform operation).registry = session.registry) :
      ∃ next, (session.withRegistry registry).perform operation =
          (session.perform operation).withRegistry next ∧
        (session.perform operation).registry.Same next :=
    ⟨registry, hperform, hregistry.symm ▸ h⟩
  cases operation with
  | generate number =>
      exact hkept (congrArg Prod.snd (generate_withRegistry h number)) (registry_act ..)
  | fill number count =>
      exact hkept (congrArg Prod.snd (fill_withRegistry h number count)) (registry_act ..)
  | reseed number seed =>
      exact hkept (congrArg Prod.snd (act_withRegistry fun _ => rfl)) (registry_act ..)
  | relate number =>
      apply hkept (session.relate_withRegistry registry number)
      rw [perform, relate_snd]
      exact registry_act ..
  | pick number count =>
      obtain ⟨relations, hpick⟩ := session.pick_snd number count
      apply hkept (session.pick_withRegistry registry number count)
      rw [perform, hpick]
  | copy number => exact hkept rfl rfl
  | openFixture name count overrides =>
      obtain ⟨hopened, hnext⟩ :=
        h.openFixture session.stores session.depth session.unseeded name count overrides
      rw [perform, perform, openFixture_snd, openFixture_snd, hopened]
      exact ⟨_, rfl, hnext⟩

theorem foldl_withRegistry (h : session.registry.Same registry) (operations : List Operation) :
    ∃ next, operations.foldl perform (session.withRegistry registry) =
        (operations.foldl perform session).withRegistry next ∧
      (operations.foldl perform session).registry.Same next ∧
      ∀ number, (session.withRegistry registry).replies number operations =
        session.replies number operations := by
  induction operations generalizing session registry with
  | nil => exact ⟨registry, rfl, h, fun _ => rfl⟩
  | cons operation operations ih =>
      obtain ⟨between, hperform, hbetween⟩ := perform_withRegistry h operation
      obtain ⟨next, hlast, hnext, hreplies⟩ := ih hbetween
      refine ⟨next, by rw [List.foldl_cons, hperform, hlast, List.foldl_cons], hnext, ?_⟩
      intro number
      rw [replies, replies, hperform, hreplies, reply?_withRegistry h]

/-- Two sessions in which operations show the same: what fixtures answer, what they are, and what
opening another one would give. -/
structure Alike (session other : Session) (operations : List Operation) : Prop where
  replies : ∀ number, session.replies number operations = other.replies number operations
  fixtures : (operations.foldl perform session).fixtures =
    (operations.foldl perform other).fixtures
  relations : (operations.foldl perform session).relations =
    (operations.foldl perform other).relations
  opens : ∀ name count overrides, (operations.foldl perform session).opened name count overrides =
    (operations.foldl perform other).opened name count overrides

/-- Over registries of the same content nothing tells two sessions apart. -/
theorem alike_of_same {other : Registry} (h : registry.Same other) (unseeded : Source)
    (depth : Nat) (operations : List Operation) :
    Alike (start registry unseeded depth) (start other unseeded depth) operations := by
  have hstart : start other unseeded depth =
      (start registry unseeded depth).withRegistry other := rfl
  have hsame : (start registry unseeded depth).registry.Same other := h
  obtain ⟨next, hlast, hnext, hreplies⟩ := foldl_withRegistry hsame operations
  rw [hstart]
  refine ⟨fun number => (hreplies number).symm, by rw [hlast]; rfl, by rw [hlast]; rfl, ?_⟩
  intro name count overrides
  rw [hlast]
  exact opened_withRegistry hnext name count overrides

end Session

end Specimen
