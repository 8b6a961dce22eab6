import Specimen.Proofs.Isolation

/-!
# Fills in steps

A fill goes on where the one before stopped: it generates just the values that are missing, and a
new picker draws nothing. So filling a store in steps comes to the same as filling it at once up to
the largest of the counts. In a session the stores change between the steps, but only the one that
is filled, and no fixture has a relation to a store of its own.
-/

namespace Specimen

/-- There is a picker for every number of entries but none at all. -/
def Library.PicksFromAny (library : Library) : Prop :=
  ∀ count, 0 < count → ∃ picker, library.index count = .ok picker

theorem Library.picksFromAny_of_index {library : Library}
    (h : library.index = Picker.ofLength) : library.PicksFromAny := by
  intro count hcount
  rw [h]
  exact Picker.exists_ofLength hcount

theorem Store.extend_extend (store : Store) (first rest : List Json) (picker other : Picker) :
    (store.extend first picker).extend rest other = store.extend (first ++ rest) other := by
  rw [extend, extend, extend, List.append_assoc]

namespace Fixture

variable {fixture last : Fixture} {setting : Setting} {depth count total : Nat}

/-! ### Two steps -/

def withStore (fixture : Fixture) (store : Store) : Fixture :=
  { fixture with store := store }

/-- Generating takes nothing from the store. -/
theorem generateMany_withStore (fixture : Fixture) (store : Store) (setting : Setting)
    (depth count : Nat) : (fixture.withStore store).generateMany setting depth count =
      ((fixture.generateMany setting depth count).1,
        (fixture.generateMany setting depth count).2.withStore store) := by
  induction count generalizing fixture with
  | zero => rfl
  | succ count ih =>
      have hgenerate : (fixture.withStore store).generate setting depth =
          ((fixture.generate setting depth).1,
            (fixture.generate setting depth).2.withStore store) := rfl
      rw [generateMany, generateMany, hgenerate]
      rcases fixture.generate setting depth with ⟨halt | value, next⟩
      · rfl
      · dsimp only
        rw [ih next]
        rcases next.generateMany setting depth count with ⟨halt | values, last⟩
        · rfl
        · rfl

/-- Many values came as some first and the others after them. -/
theorem generateMany_add_eq_ok {first more : Nat} {values : List Json}
    (h : fixture.generateMany setting depth (first + more) = (.ok values, last)) :
    ∃ earlier middle later, fixture.generateMany setting depth first = (.ok earlier, middle) ∧
      middle.generateMany setting depth more = (.ok later, last) ∧ values = earlier ++ later := by
  induction first generalizing fixture values with
  | zero =>
      rw [Nat.zero_add] at h
      exact ⟨[], fixture, values, rfl, h, rfl⟩
  | succ first ih =>
      rw [Nat.add_right_comm] at h
      obtain ⟨value, next, rest, hvalue, hrest, rfl⟩ := generateMany_succ_eq_ok h
      obtain ⟨earlier, middle, later, hearlier, hlater, rfl⟩ := ih hrest
      refine ⟨value :: earlier, middle, later, ?_, hlater, List.cons_append.symm⟩
      rw [generateMany, hvalue]
      dsimp only
      rw [hearlier]

theorem fill_of_le (h : count ≤ fixture.store.size) :
    fixture.fill setting depth count = (.ok (), fixture) :=
  if_pos h

theorem fill_of_generated {values : List Json} {picker : Picker}
    (hmissing : fixture.store.size < count) (hroom : count - fixture.store.size ≤ Store.room)
    (hgenerated : fixture.generateMany setting depth (count - fixture.store.size) =
      (.ok values, last)) (hpicker : setting.catalog.library.index count = .ok picker) :
    fixture.fill setting depth count =
      (.ok (), last.withStore (fixture.store.extend values picker)) := by
  have hkept := store_generateMany fixture setting depth (count - fixture.store.size)
  rw [hgenerated] at hkept
  rw [fill, if_neg (Nat.not_le_of_lt hmissing), if_neg (Nat.not_lt.mpr hroom), hgenerated]
  dsimp only at hkept ⊢
  rw [hpicker, hkept]
  rfl

theorem le_size_of_fill (h : fixture.fill setting depth count = (.ok (), last)) :
    count ≤ last.store.size := by
  cases fills h with
  | enough enough => exact enough
  | @grown values next picker missing room generated picks =>
      have hlength := length_of_generateMany generated
      have hsize : (fixture.store.extend values picker).size = fixture.store.size + values.length :=
        List.length_append
      change count ≤ (fixture.store.extend values picker).size
      omega

/-- A fill can stop at any smaller count and go on from there. -/
theorem fill_fill (hpicks : setting.catalog.library.PicksFromAny) (hle : count ≤ total)
    (h : fixture.fill setting depth total = (.ok (), last)) :
    ∃ middle, fixture.fill setting depth count = (.ok (), middle) ∧
      middle.fill setting depth total = (.ok (), last) := by
  -- With equal counts the second fill has nothing to do, with enough entries the first one has not.
  -- In between, the values of the whole fill are split where the first fill stops.
  rcases Nat.eq_or_lt_of_le hle with rfl | hlt
  · exact ⟨last, h, fill_of_le (le_size_of_fill h)⟩
  · rcases Nat.lt_or_ge fixture.store.size count with hmissing | henough
    · cases fills h with
      | enough enough => omega
      | @grown values next picker missing room generated picks =>
          have hsplit : total - fixture.store.size =
              (count - fixture.store.size) + (total - count) := by omega
          rw [hsplit] at generated
          obtain ⟨earlier, middle, later, hearlier, hlater, rfl⟩ := generateMany_add_eq_ok generated
          obtain ⟨between, hbetween⟩ := hpicks count (Nat.zero_lt_of_lt hmissing)
          have hsize : (fixture.store.extend earlier between).size = count := by
            have hlength := length_of_generateMany hearlier
            have happend : (fixture.store.extend earlier between).size =
                fixture.store.size + earlier.length := List.length_append
            omega
          have hmore : (middle.withStore (fixture.store.extend earlier between)).generateMany setting
              depth (total - (fixture.store.extend earlier between).size) =
                (.ok later, next.withStore (fixture.store.extend earlier between)) := by
            rw [generateMany_withStore, hsize, hlater]
          have hagain := fill_of_generated (by rw [withStore, hsize]; exact hlt)
            (by rw [withStore, hsize]; omega) hmore picks
          rw [withStore, withStore, withStore, Store.extend_extend] at hagain
          exact ⟨_, fill_of_generated hmissing (by omega) hearlier hbetween, hagain⟩
    · exact ⟨fixture, fill_of_le henough, h⟩

/-! ### Any number of steps -/

/-- Fills one after the other. -/
def fillAll (fixture : Fixture) (setting : Setting) (depth : Nat) :
    List Nat → List (Except Halt Unit) × Fixture
  | [] => ([], fixture)
  | count :: counts =>
    let first := fixture.fill setting depth count
    let rest := first.2.fillAll setting depth counts
    (first.1 :: rest.1, rest.2)

/-- What there is already need not be asked for. -/
theorem fill_max (h : count ≤ fixture.store.size) (other : Nat) :
    fixture.fill setting depth (max count other) = fixture.fill setting depth other := by
  rcases Nat.le_total other count with hle | hle
  · rw [Nat.max_eq_left hle, fill_of_le h, fill_of_le (Nat.le_trans hle h)]
  · rw [Nat.max_eq_right hle]

theorem fillAll_eq (hpicks : setting.catalog.library.PicksFromAny) {counts : List Nat}
    (h : fixture.fill setting depth (counts.foldr max 0) = (.ok (), last)) :
    fixture.fillAll setting depth counts = (counts.map fun _ => .ok (), last) := by
  induction counts generalizing fixture with
  | nil =>
      rw [List.foldr_nil, fill_of_le (Nat.zero_le _)] at h
      cases h
      rfl
  | cons count counts ih =>
      rw [List.foldr_cons] at h
      obtain ⟨middle, hfirst, hrest⟩ := fill_fill hpicks (Nat.le_max_left _ _) h
      rw [fill_max (le_size_of_fill hfirst)] at hrest
      rw [fillAll, hfirst]
      dsimp only
      rw [ih hrest]
      rfl

end Fixture

/-! ### Sessions -/

/-- The overrides have no relation to the fixture of a number. -/
abbrev Overrides.Avoids (overrides : Overrides) (number : Nat) : Prop :=
  overrides.From fun origin => origin ≠ number

namespace Session

variable {session : Session} {number : Nat} {fixture : Fixture} {operation : Operation}

/-- A fixture of a session is filled to one count after the other. -/
def fillAll (session : Session) (number : Nat) :
    List Nat → List (Option (Except Halt Unit)) × Session
  | [] => ([], session)
  | count :: counts =>
    let first := session.fill number count
    let rest := first.2.fillAll number counts
    (first.1 :: rest.1, rest.2)

theorem setFixture_self (h : session.fixture? number = some fixture) :
    session.setFixture number fixture = session := by
  have hentry := Option.join_eq_some_iff.mp h
  obtain ⟨hlt, hget⟩ := List.getElem?_eq_some_iff.mp hentry
  rw [setFixture, ← hget, List.set_getElem_self]

theorem setFixture_setFixture (session : Session) (number : Nat) (first second : Fixture) :
    (session.setFixture number first).setFixture number second =
      session.setFixture number second := by
  rw [setFixture, setFixture, setFixture, List.set_set]

/-- Whatever becomes of a fixture, those without a relation to it find the same stores. -/
theorem alike_setFixture {setting : Setting}
    (halike : session.setting.Alike (fun overrides => overrides.Avoids number) setting)
    (hfixture : session.fixture? number = some fixture) (next : Fixture) :
    (session.setFixture number next).setting.Alike (fun overrides => overrides.Avoids number)
      setting where
  library := halike.library
  generate := halike.generate
  resolve := halike.resolve
  found := by
    intro overrides path relation havoids hrelation
    have hne : relation.fixture ≠ number := havoids path relation hrelation
    change (session.setFixture number next).stores relation.fixture = _
    rw [stores_setFixture hfixture, Function.update_of_ne hne]
    exact halike.found havoids hrelation

/-- A fixture without a relation to its own store is filled in a session as it is by itself. -/
theorem fillAll_of_avoids {setting : Setting}
    (halike : session.setting.Alike (fun overrides => overrides.Avoids number) setting)
    (hfixture : session.fixture? number = some fixture)
    (havoids : fixture.overrides.Avoids number) (counts : List Nat) :
    session.fillAll number counts =
      ((fixture.fillAll setting session.depth counts).1.map some,
        session.setFixture number (fixture.fillAll setting session.depth counts).2) := by
  -- The setting of the session changes with every fill, and the one it is compared to stays.
  induction counts generalizing session fixture with
  | nil => rw [fillAll, Fixture.fillAll, setFixture_self hfixture, List.map_nil]
  | cons count counts ih =>
      have hcall : Overrides.KeptByCalls session.setting fun overrides => overrides.Avoids number :=
        Overrides.keptByCalls_from session.setting _
      obtain ⟨hsame, hkept⟩ : fixture.fill session.setting session.depth count =
          fixture.fill setting session.depth count ∧
            (fixture.fill session.setting session.depth count).2.overrides.Avoids number :=
        Fixture.fill_same halike hcall count havoids
      rw [hsame] at hkept
      rcases hfill : fixture.fill setting session.depth count with ⟨result, next⟩
      rw [hfill] at hsame hkept
      have hstep : session.fill number count = (some result, session.setFixture number next) := by
        rw [fill, act_of_some hfixture, hsame]
      have hnext : (session.setFixture number next).fixture? number = some next := by
        rw [fixture?_setFixture hfixture, if_pos rfl]
      have hrest := ih (alike_setFixture halike hfixture next) hnext hkept
      rw [setFixture_setFixture] at hrest
      rw [fillAll, Fixture.fillAll, hstep, hfill]
      dsimp only
      rw [hrest]
      rfl

/-- The relations among the overrides of a fixture are to fixtures opened before it. -/
def Backward (session : Session) : Prop :=
  ∀ number fixture, session.fixture? number = some fixture →
    fixture.overrides.From fun origin => origin < number

theorem lt_length_of_stocked (h : session.Stocked number) : number < session.fixtures.length := by
  by_contra hbeyond
  have hempty := stores_of_length_le (Nat.le_of_not_lt hbeyond)
  rw [Stocked, hempty] at h
  exact h rfl

theorem Backward.perform (h : session.Backward) (hbacked : session.Backed)
    (hallowed : session.Allows operation) : (session.perform operation).Backward := by
  intro number fixture hfixture
  have hcall : Overrides.KeptByCalls session.setting fun overrides =>
      overrides.From fun origin => origin < number := Overrides.keptByCalls_from session.setting _
  rcases fixture?_perform hfixture with
    ⟨old, hold, rfl⟩ | ⟨name, count, overrides, rfl, rfl, hopened⟩
  · exact (old.after_same (session.setting.alike_self _) hcall (h number old hold) operation).2
  · obtain ⟨fresh, -, rfl, rfl⟩ := opened_eq_ok hopened
    have hfresh : fresh.overrides.From fun origin => origin < session.fixtures.length :=
      fun path relation hrelation =>
        lt_length_of_stocked (hbacked.from_of_allows hallowed path relation hrelation)
    exact (Fixture.fill_same (session.setting.alike_self _) hcall count hfresh).2

theorem Runs.backward {last : Session} {operations : List Operation}
    (hruns : session.Runs operations last) (hbacked : session.Backed) (h : session.Backward) :
    last.Backward := by
  induction hruns with
  | nil => exact h
  | cons hallowed _ ih => exact ih (hbacked.perform hallowed) (h.perform hbacked hallowed)

/-- Filling in steps comes to the same as filling at once: wherever operations have led a session, if
a fixture can be filled to the largest of several counts, then it can be filled to one after the
other, and the session ends up the same, with the store, the source and the overrides of the
fixture. Of the library it takes that it has a picker for every number of entries. -/
theorem fillAll_of_runs {registry : Registry} {unseeded : Source} {depth : Nat}
    {operations : List Operation} {counts : List Nat} {last : Session}
    (hpicks : registry.catalog.library.PicksFromAny)
    (hruns : (start registry unseeded depth).Runs operations session)
    (h : session.fill number (counts.foldr max 0) = (some (.ok ()), last)) :
    session.fillAll number counts = (counts.map fun _ => some (.ok ()), last) := by
  have hbackward : session.Backward :=
    hruns.backward backed_start (fun _ _ hfixture => by cases hfixture)
  cases hfixture : session.fixture? number with
  | none =>
      rw [fill, act_of_none hfixture] at h
      cases h
  | some fixture =>
      have havoids : fixture.overrides.Avoids number := fun path relation hrelation =>
        Nat.ne_of_lt (hbackward number fixture hfixture path relation hrelation)
      have hlibrary : session.setting.catalog.library.PicksFromAny := by
        change session.registry.catalog.library.PicksFromAny
        rw [hruns.registry_eq]
        exact hpicks
      rw [fill, act_of_some hfixture] at h
      rcases hfill : fixture.fill session.setting session.depth (counts.foldr max 0) with
        ⟨result, next⟩
      rw [hfill] at h
      cases h
      rw [fillAll_of_avoids (session.setting.alike_self _) hfixture havoids counts,
        Fixture.fillAll_eq hlibrary hfill, List.map_map]
      rfl

end Session

namespace Sample

/-- A session with a fixture that has a function among its overrides, the first value of which is
used up. -/
def countedSession : Session :=
  session.perform (.openFixture "row" 1 counted)

theorem runs_countedSession : session.Runs [.openFixture "row" 1 counted] countedSession := by
  have hallowed : session.Allows (.openFixture "row" 1 counted) := fun path relation hrelation =>
    (standalone_counted path relation hrelation).elim
  exact .cons hallowed .nil

end Sample

theorem fillAll_of_runs_counted :
    Sample.registry.catalog.library.PicksFromAny ∧
      Sample.session.Runs [.openFixture "row" 1 Sample.counted] Sample.countedSession ∧
        ∃ last, Sample.countedSession.fill 0 ([2, 1, 3, 3].foldr max 0) = (some (.ok ()), last) ∧
          Sample.countedSession.fillAll 0 [2, 1, 3, 3] =
            ([some (.ok ()), some (.ok ()), some (.ok ()), some (.ok ())], last) := by
  have hpicks : Sample.registry.catalog.library.PicksFromAny := Library.picksFromAny_of_index rfl
  have hanswer : (Sample.countedSession.fill 0 3).1 = some (.ok ()) := rfl
  have hlast : Sample.countedSession.fill 0 ([2, 1, 3, 3].foldr max 0) =
      (some (.ok ()), (Sample.countedSession.fill 0 3).2) := Prod.ext hanswer rfl
  exact ⟨hpicks, Sample.runs_countedSession, _, hlast,
    Session.fillAll_of_runs hpicks Sample.runs_countedSession hlast⟩

end Specimen
