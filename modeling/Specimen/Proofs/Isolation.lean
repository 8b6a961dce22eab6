import Specimen.Proofs.Stores

/-!
# Isolation

A fixture whose overrides hold no relation reads no store but its own, and its source is its own
from the start. What comes of it is therefore up to the seed, to the name and the overrides it is
opened with, to the number of fixtures opened before, and to what it is asked for itself, in that
order.
-/

namespace Specimen

/-- There is no relation among the overrides. -/
def Overrides.Standalone (overrides : Overrides) : Prop :=
  overrides.From fun _ => False

theorem Overrides.keptByCalls_standalone (setting : Setting) :
    KeptByCalls setting Standalone :=
  keptByCalls_from setting _

/-- A setting without stores. -/
def Setting.bare (catalog : Catalog) : Setting :=
  ⟨catalog, fun _ => .empty⟩

/-- Without relations the stores do not matter. -/
theorem Setting.alike_of_catalog {setting other : Setting} (h : setting.catalog = other.catalog) :
    setting.Alike Overrides.Standalone other where
  library := by rw [h]
  generate _ _ := by rw [h]
  resolve _ _ := by rw [h]
  found hstandalone hrelation := (hstandalone _ _ hrelation).elim

namespace Fixture

/-- Requests served one after the other. -/
def serveAll (setting : Setting) (depth number : Nat) (fixture : Fixture) :
    List Request → List Reply × Fixture
  | [] => ([], fixture)
  | request :: requests =>
    let served := fixture.serve setting depth number request
    let rest := served.2.serveAll setting depth number requests
    (served.1 :: rest.1, rest.2)

theorem serveAll_number (fixture : Fixture) (setting : Setting) (depth number other : Nat)
    (requests : List Request) : fixture.serveAll setting depth number requests =
      fixture.serveAll setting depth other requests := by
  induction requests generalizing fixture with
  | nil => rfl
  | cons request requests ih =>
      rw [serveAll, serveAll, fixture.serve_number setting depth number other, ih]

end Fixture

namespace Session

variable {session : Session} {number : Nat}

/-! ### Opening -/

theorem openFixture_fst (session : Session) (name : String) (count : Nat) (overrides : Overrides) :
    (session.openFixture name count overrides).1 =
      (session.opened name count overrides).map fun _ => session.fixtures.length := by
  rw [openFixture, opened]
  rcases session.registry.openFixture session.stores session.depth session.unseeded name count
    overrides with ⟨halt | fixture, registry⟩
  · rfl
  · rfl

end Session

/-- With a seed, a fixture without relations opens the same whatever else there is. -/
theorem Registry.openFixture_same {registry : Registry} {seed : UInt64}
    (hseed : registry.seed = some seed) {overrides : Overrides} (halone : overrides.Standalone)
    (stores others : Stores) (depth : Nat) (unseeded other : Source) (name : String) (count : Nat) :
    registry.openFixture stores depth unseeded name count overrides =
      registry.openFixture others depth other name count overrides := by
  rw [openFixture, openFixture]
  split
  case h_2 => rfl
  case h_1 generator schema _ _ =>
      have hsource : registry.nextSource unseeded name = registry.nextSource other name := by
        rw [nextSource, nextSource, hseed]
      let fresh : Fixture :=
        ⟨name, generator, schema, overrides, registry.nextSource other name, Store.empty⟩
      have halike : Setting.Alike Overrides.Standalone ⟨registry.catalog, stores⟩
          ⟨registry.catalog, others⟩ := Setting.alike_of_catalog rfl
      have hfill : fresh.fill ⟨registry.catalog, stores⟩ depth count =
          fresh.fill ⟨registry.catalog, others⟩ depth count :=
        (Fixture.fill_same halike (Overrides.keptByCalls_standalone _) count halone).1
      dsimp only
      rw [hsource, hfill]

namespace Session

variable {session last : Session} {number depth : Nat} {setting : Setting}
  {operations : List Operation}

theorem fixture?_foldl_of_none (hlt : number < session.fixtures.length)
    (h : session.fixture? number = none) (operations : List Operation) :
    session.replies number operations = [] ∧
      (operations.foldl perform session).fixture? number = none := by
  induction operations generalizing session with
  | nil => exact ⟨rfl, h⟩
  | cons operation operations ih =>
      have hnext := fixture?_perform_of_lt hlt operation
      rw [h, Option.map_none] at hnext
      have hreply : session.reply? number operation = none := by
        rw [reply?_eq, h]
        cases operation.request? number with
        | none => rfl
        | some request => rfl
      obtain ⟨hreplies, hlast⟩ :=
        ih (Nat.lt_of_lt_of_le hlt (session.length_le_perform operation)) hnext
      exact ⟨by rw [replies, hreply, hreplies]; rfl, hlast⟩

/-- Without relations a fixture answers what it is asked for itself, in the same way in every
session over the same catalog. -/
theorem serveAll_of_fixture? (hcatalog : session.registry.catalog = setting.catalog)
    {fixture : Fixture} (hfixture : session.fixture? number = some fixture)
    (halone : fixture.overrides.Standalone) (operations : List Operation) :
    session.replies number operations = (fixture.serveAll setting session.depth number
        (operations.filterMap (Operation.request? number))).1 ∧
      (operations.foldl perform session).fixture? number =
        some (fixture.serveAll setting session.depth number
          (operations.filterMap (Operation.request? number))).2 := by
  induction operations generalizing session fixture with
  | nil => exact ⟨rfl, hfixture⟩
  | cons operation operations ih =>
      -- the stores change from one operation to the next, so each is held against one setting
      have halike : session.setting.Alike Overrides.Standalone setting :=
        Setting.alike_of_catalog hcatalog
      have hkept : Overrides.KeptByCalls session.setting Overrides.Standalone :=
        Overrides.keptByCalls_standalone session.setting
      have hnext := fixture?_perform_of_lt (lt_length_of_fixture? hfixture) operation
      have hcatalog' : (session.perform operation).registry.catalog = setting.catalog := by
        rw [catalog_perform, hcatalog]
      rw [hfixture, Option.map_some] at hnext
      obtain ⟨-, halone'⟩ := Fixture.after_same halike hkept halone operation
      obtain ⟨hreplies, hlast⟩ := ih hcatalog' hnext halone'
      rw [replies, reply?_eq, hfixture, hreplies, List.foldl_cons, hlast, List.filterMap_cons,
        depth_perform, Fixture.after]
      cases hrequest : operation.request? number with
      | none => exact ⟨rfl, rfl⟩
      | some request =>
          have hserve : fixture.serve session.setting session.depth number request =
              fixture.serve setting session.depth number request :=
            (Fixture.serve_same halike hkept halone request).1
          dsimp only
          rw [Option.bind_some, Option.map_some, Fixture.serveAll, hserve]
          exact ⟨rfl, rfl⟩

/-! ### Two runs -/

/-- What comes of a fixture that is opened: whether it opens, what it answers to the operations that
follow, and what it is in the end. -/
def course (session : Session) (name : String) (count : Nat) (overrides : Overrides)
    (operations : List Operation) : Except Halt Unit × List Reply × Option Fixture :=
  let next := (session.openFixture name count overrides).2
  ((session.openFixture name count overrides).1.map fun _ => (),
    next.replies session.fixtures.length operations,
    (operations.foldl perform next).fixture? session.fixtures.length)

theorem Runs.registry_eq (hruns : session.Runs operations last) :
    last.registry = { session.registry with opened := last.registry.opened } := by
  induction hruns with
  | nil => rfl
  | cons _ _ ih => rw [ih, registry_perform]

theorem Runs.depth_eq (hruns : session.Runs operations last) : last.depth = session.depth := by
  induction hruns with
  | nil => rfl
  | cons _ _ ih => rw [ih, depth_perform]

theorem standalone_opened {name : String} {count : Nat} {overrides : Overrides} {fixture : Fixture}
    (halone : overrides.Standalone) (h : session.opened name count overrides = .ok fixture) :
    fixture.overrides.Standalone := by
  obtain ⟨fresh, -, rfl, rfl⟩ := opened_eq_ok h
  exact (Fixture.fill_same (session.setting.alike_self _) (Overrides.keptByCalls_standalone _)
    count halone).2

theorem course_of_error {name : String} {count : Nat} {overrides : Overrides} {halt : Halt}
    (h : session.opened name count overrides = .error halt) (operations : List Operation) :
    session.course name count overrides operations = (.error halt, [], none) := by
  have hthere := session.fixture?_openFixture name count overrides session.fixtures.length
  rw [if_pos rfl, h] at hthere
  have hlt : session.fixtures.length <
      (session.openFixture name count overrides).2.fixtures.length := by
    rw [length_openFixture]
    exact Nat.lt_succ_self _
  obtain ⟨hreplies, hlast⟩ := fixture?_foldl_of_none hlt hthere operations
  rw [course, hreplies, hlast, openFixture_fst, h]
  rfl

/-- The course of a fixture without relations is that of one which is alone and serves the requests
put to it. -/
theorem course_of_ok {name : String} {count : Nat} {overrides : Overrides} {fixture : Fixture}
    (halone : overrides.Standalone) (h : session.opened name count overrides = .ok fixture)
    (operations : List Operation) :
    session.course name count overrides operations =
      let served := fixture.serveAll (.bare session.registry.catalog) session.depth 0
        (operations.filterMap (Operation.request? session.fixtures.length))
      (.ok (), served.1, some served.2) := by
  have hthere := session.fixture?_openFixture name count overrides session.fixtures.length
  rw [if_pos rfl, h] at hthere
  have hcatalog : (session.openFixture name count overrides).2.registry.catalog =
      (Setting.bare session.registry.catalog).catalog :=
    session.catalog_perform (.openFixture name count overrides)
  have hdepth : (session.openFixture name count overrides).2.depth = session.depth :=
    session.depth_perform (.openFixture name count overrides)
  obtain ⟨hreplies, hlast⟩ :=
    serveAll_of_fixture? hcatalog hthere (standalone_opened halone h) operations
  rw [course, hreplies, hlast, openFixture_fst, h, hdepth,
    fixture.serveAll_number _ _ session.fixtures.length 0]
  rfl

/-- Fixtures do not interfere. Two fixtures without relations, opened from one seeded registry under
the same name, with the same overrides and after the same number of others, have the same course if
the same is asked of them, whatever else happens in the two sessions before and in between. -/
theorem course_eq_of_requests {registry : Registry} {seed : UInt64} {unseeded other : Source}
    {before earlier after later : List Operation} {left right : Session} {name : String}
    {count : Nat} {overrides : Overrides} (hseed : registry.seed = some seed)
    (hleft : (start registry unseeded depth).Runs before left)
    (hright : (start registry other depth).Runs earlier right)
    (hopened : left.registry.opened = right.registry.opened) (halone : overrides.Standalone)
    (hrequests : after.filterMap (Operation.request? left.fixtures.length) =
      later.filterMap (Operation.request? right.fixtures.length)) :
    left.course name count overrides after = right.course name count overrides later := by
  have hdepth : left.depth = right.depth := by rw [hleft.depth_eq, hright.depth_eq]; rfl
  have hregistry : left.registry = right.registry := by
    rw [hleft.registry_eq, hright.registry_eq, hopened]
    rfl
  have hseeded : right.registry.seed = some seed := by
    rw [hright.registry_eq]
    exact hseed
  have hsame : left.opened name count overrides = right.opened name count overrides := by
    rw [opened, opened, hregistry, hdepth,
      Registry.openFixture_same hseeded halone left.stores right.stores right.depth left.unseeded
        right.unseeded]
  cases hfixture : right.opened name count overrides with
  | error halt =>
      rw [course_of_error hfixture, course_of_error (hsame.trans hfixture)]
  | ok fixture =>
      rw [course_of_ok halone hfixture, course_of_ok halone (hsame.trans hfixture), hrequests,
        hregistry, hdepth]

end Session

namespace Sample

def seeded : Registry :=
  registry.withSeed 7

/-- A function at the path of the one property. -/
def counted : Overrides :=
  ⟨[(["id"], .function (fun call => .int call) 0)]⟩

theorem standalone_counted : counted.Standalone := by
  intro path relation h
  rw [Overrides.get?, counted, Assoc.get?] at h
  split at h
  · cases h
  · cases h

def quiet : Session :=
  .start seeded (.mixed [7] 0) 4

/-- A session in which opening a fixture has failed before. -/
def busy : Session :=
  (Session.start seeded (.mixed [8] 0) 4).perform (.openFixture "column" 1 .empty)

/-- Operations on a fixture alone. -/
def ownOperations : List Operation :=
  [.generate 0, .relate 0, .fill 0 3]

/-- The same in a session where it is the second, among operations on another one and picks. -/
def mixedOperations : List Operation :=
  [.openFixture "row" 2 .empty, .generate 1, .generate 2, .relate 1, .pick 0 5, .reseed 2 3,
    .fill 1 3, .copy 0]

end Sample

theorem course_eq_of_requests_counted :
    Sample.seeded.seed = some 7 ∧
      (Session.start Sample.seeded (.mixed [7] 0) 4).Runs [] Sample.quiet ∧
      (Session.start Sample.seeded (.mixed [8] 0) 4).Runs [.openFixture "column" 1 .empty]
        Sample.busy ∧
      Sample.quiet.registry.opened = Sample.busy.registry.opened ∧
      Sample.counted.Standalone ∧
      Sample.ownOperations.filterMap (Operation.request? Sample.quiet.fixtures.length) =
        Sample.mixedOperations.filterMap (Operation.request? Sample.busy.fixtures.length) ∧
      Sample.quiet.course "row" 1 Sample.counted Sample.ownOperations =
        Sample.busy.course "row" 1 Sample.counted Sample.mixedOperations := by
  have hbusy : (Session.start Sample.seeded (.mixed [8] 0) 4).Runs
      [.openFixture "column" 1 .empty] Sample.busy := by
    refine .cons ?_ .nil
    intro path relation h
    cases h
  exact ⟨rfl, .nil, hbusy, rfl, Sample.standalone_counted, rfl,
    Session.course_eq_of_requests rfl .nil hbusy rfl Sample.standalone_counted rfl⟩

end Specimen
