import Specimen.Session
import Specimen.Proofs.Overriding

/-!
# Operations of a session

A session goes on by operations on one fixture or one relation at a time. Whatever an operation
does, it leaves all stores but one as they were, and that one only ever changes by a fill.
-/

namespace Specimen

inductive Operation where
  | openFixture (name : String) (count : Nat) (overrides : Overrides)
  | generate (fixture : Nat)
  | fill (fixture count : Nat)
  | relate (fixture : Nat)
  | reseed (fixture : Nat) (seed : UInt64)
  | pick (relation count : Nat)
  | copy (relation : Nat)

/-- Every relation among the overrides picks from a fixture of the given kind. -/
def Overrides.From (overrides : Overrides) (origin : Nat → Prop) : Prop :=
  ∀ path relation, overrides.get? path = some (.relation relation) → origin relation.fixture

namespace Session

/-- A copy of a relation takes the next number and picks on its own. -/
def copy (session : Session) (number : Nat) : Session :=
  { session with relations := session.relations ++ [session.relation? number] }

def perform (session : Session) : Operation → Session
  | .openFixture name count overrides => (session.openFixture name count overrides).2
  | .generate number => (session.generate number).2
  | .fill number count => (session.fill number count).2
  | .relate number => (session.relate number).2
  | .reseed number seed => (session.reseed number seed).2
  | .pick number count => (session.pick number count).2
  | .copy number => session.copy number

/-- A fixture can be opened with relations only to fixtures that some relation was taken from. -/
def Allows (session : Session) : Operation → Prop
  | .openFixture _ _ overrides =>
    overrides.From fun origin =>
      ∃ number relation, session.relation? number = some relation ∧ relation.fixture = origin
  | _ => True

inductive Runs : Session → List Operation → Session → Prop where
  | nil {session : Session} : Runs session [] session
  | cons {session last : Session} {operation : Operation} {operations : List Operation}
      (allowed : session.Allows operation)
      (rest : Runs (session.perform operation) operations last) :
      Runs session (operation :: operations) last

end Session

/-! ### Fixtures -/

/-- What a fill can do to a store: nothing if it fails or if there is enough, and otherwise it adds
the values that are missing under a picker for all of them. -/
inductive Store.Filled (store : Store) (count : Nat) : Except Halt Unit → Store → Prop where
  | failed {halt : Halt} : Filled store count (.error halt) store
  | enough (enough : count ≤ store.size) : Filled store count (.ok ()) store
  | grown {values : List Json} {picker : Picker} (missing : store.size < count)
      (length : values.length = count - store.size) (bound : picker.bound = count) :
      Filled store count (.ok ()) (store.extend values picker)

namespace Fixture

variable {fixture : Fixture} {setting : Setting} {depth count : Nat}

/-- What holds of a fixture however often it generates holds after it generated many values. -/
theorem generateMany_induction (P : Fixture → Prop) (count : Nat)
    (hstep : ∀ fixture, P fixture → P (fixture.generate setting depth).2) (h : P fixture) :
    P (fixture.generateMany setting depth count).2 := by
  induction count generalizing fixture with
  | zero => exact h
  | succ count ih =>
      have hfirst := hstep fixture h
      rw [generateMany]
      rcases hgenerate : fixture.generate setting depth with ⟨_ | value, next⟩
      · rw [hgenerate] at hfirst
        exact hfirst
      · rw [hgenerate] at hfirst
        have hrest := ih hfirst
        dsimp only
        rcases hmany : next.generateMany setting depth count with ⟨_ | values, last⟩
        · rw [hmany] at hrest
          exact hrest
        · rw [hmany] at hrest
          exact hrest

/-- Many values came one after the other if there are values at all. -/
theorem generateMany_succ_eq_ok {values : List Json} {last : Fixture}
    (h : fixture.generateMany setting depth (count + 1) = (.ok values, last)) :
    ∃ value next rest, fixture.generate setting depth = (.ok value, next) ∧
      next.generateMany setting depth count = (.ok rest, last) ∧ values = value :: rest := by
  rw [generateMany] at h
  rcases hgenerate : fixture.generate setting depth with ⟨_ | value, next⟩
  · rw [hgenerate] at h
    cases h
  · rw [hgenerate] at h
    dsimp only at h
    rcases hmany : next.generateMany setting depth count with ⟨_ | rest, final⟩
    · rw [hmany] at h
      cases h
    · rw [hmany] at h
      cases h
      exact ⟨value, next, rest, rfl, hmany, rfl⟩

theorem length_of_generateMany {values : List Json} {last : Fixture}
    (h : fixture.generateMany setting depth count = (.ok values, last)) :
    values.length = count := by
  induction count generalizing fixture values with
  | zero =>
      cases h
      rfl
  | succ count ih =>
      obtain ⟨value, next, rest, -, hrest, rfl⟩ := generateMany_succ_eq_ok h
      exact congrArg Nat.succ (ih hrest)

theorem store_generateMany (fixture : Fixture) (setting : Setting) (depth count : Nat) :
    (fixture.generateMany setting depth count).2.store = fixture.store :=
  generateMany_induction (fun other => other.store = fixture.store) count (fun _ h => h) rfl

/-- What a fill can do to a fixture. It answers at once if there is enough, or if there is no room for
what is missing; otherwise it generates that, which may fail, and needs a picker for all of the
store. -/
inductive Fills (fixture : Fixture) (setting : Setting) (depth count : Nat) :
    Except Halt Unit → Fixture → Prop where
  | enough (enough : count ≤ fixture.store.size) : Fills fixture setting depth count (.ok ()) fixture
  | crowded (missing : fixture.store.size < count)
      (beyond : Store.room < count - fixture.store.size) :
      Fills fixture setting depth count (.error (.overflow ⟨count - fixture.store.size⟩)) fixture
  | failed {halt : Halt} {last : Fixture} (missing : fixture.store.size < count)
      (generated : fixture.generateMany setting depth (count - fixture.store.size) =
        (.error halt, last)) : Fills fixture setting depth count (.error halt) last
  | unpicked {values : List Json} {last : Fixture} {e : PrimitiveError}
      (missing : fixture.store.size < count)
      (generated : fixture.generateMany setting depth (count - fixture.store.size) =
        (.ok values, last)) (noPicker : setting.catalog.library.index count = .error e) :
      Fills fixture setting depth count (.error (.error (.primitive e))) last
  | grown {values : List Json} {last : Fixture} {picker : Picker}
      (missing : fixture.store.size < count) (room : count - fixture.store.size ≤ Store.room)
      (generated : fixture.generateMany setting depth (count - fixture.store.size) =
        (.ok values, last)) (picks : setting.catalog.library.index count = .ok picker) :
      Fills fixture setting depth count (.ok ())
        { last with store := fixture.store.extend values picker }

theorem fills {result : Except Halt Unit} {after : Fixture}
    (h : fixture.fill setting depth count = (result, after)) :
    fixture.Fills setting depth count result after := by
  rw [fill] at h
  by_cases hle : count ≤ fixture.store.size
  · rw [if_pos hle] at h
    cases h
    exact .enough hle
  · have hmissing : fixture.store.size < count := Nat.lt_of_not_le hle
    have hkept := store_generateMany fixture setting depth (count - fixture.store.size)
    rw [if_neg hle] at h
    by_cases hbeyond : Store.room < count - fixture.store.size
    · rw [if_pos hbeyond] at h
      cases h
      exact .crowded hmissing hbeyond
    · rw [if_neg hbeyond] at h
      rcases hmany : fixture.generateMany setting depth (count - fixture.store.size) with
        ⟨halt | values, last⟩
      · rw [hmany] at h
        cases h
        exact .failed hmissing hmany
      · rw [hmany] at h hkept
        dsimp only at h hkept
        cases hpicker : setting.catalog.library.index count with
        | error e =>
            rw [hpicker] at h
            cases h
            exact .unpicked hmissing hmany hpicker
        | ok picker =>
            rw [hpicker, hkept] at h
            cases h
            exact .grown hmissing (Nat.le_of_not_lt hbeyond) hmany hpicker

theorem Fills.filled {result : Except Halt Unit} {after : Fixture}
    (h : fixture.Fills setting depth count result after)
    (hindex : setting.catalog.library.index = Picker.ofLength) :
    fixture.store.Filled count result after.store := by
  have hkept := store_generateMany fixture setting depth (count - fixture.store.size)
  cases h with
  | enough enough => exact .enough enough
  | crowded => exact .failed
  | failed missing generated =>
      rw [generated] at hkept
      rw [hkept]
      exact .failed
  | unpicked missing generated noPicker =>
      rw [hindex, Picker.ofLength, dif_pos (Nat.zero_lt_of_lt missing)] at noPicker
      cases noPicker
  | grown missing _ generated picks =>
      rw [hindex] at picks
      exact .grown missing (length_of_generateMany generated) (Picker.bound_of_ofLength picks)

/-- A fill leaves the store as it is, or adds what is missing under a picker for all of it. -/
theorem store_fill (fixture : Fixture) (setting : Setting) (depth count : Nat) :
    (fixture.fill setting depth count).2.store = fixture.store ∨ ∃ values last picker,
      fixture.store.size < count ∧
      fixture.generateMany setting depth (count - fixture.store.size) = (.ok values, last) ∧
      setting.catalog.library.index count = .ok picker ∧
      (fixture.fill setting depth count).2.store = fixture.store.extend values picker := by
  have hkept := store_generateMany fixture setting depth (count - fixture.store.size)
  rcases hfill : fixture.fill setting depth count with ⟨result, after⟩
  cases fills hfill with
  | enough | crowded => exact .inl rfl
  | failed missing generated | unpicked missing generated noPicker =>
      rw [generated] at hkept
      exact .inl hkept
  | grown missing _ generated picks => exact .inr ⟨_, _, _, missing, generated, picks, rfl⟩

theorem filled (setting : Setting) (hindex : setting.catalog.library.index = Picker.ofLength)
    (fixture : Fixture) (depth count : Nat) :
    fixture.store.Filled count (fixture.fill setting depth count).1
      (fixture.fill setting depth count).2.store :=
  (fills rfl).filled hindex

/-- What holds of a fixture however often it generates, and whatever its store is, holds after a
fill. -/
theorem fill_induction (P : Fixture → Prop)
    (hstep : ∀ fixture, P fixture → P (fixture.generate setting depth).2)
    (hstore : ∀ fixture store, P fixture → P { fixture with store := store }) (h : P fixture) :
    P (fixture.fill setting depth count).2 := by
  have hmany := generateMany_induction P (count - fixture.store.size) hstep h
  rcases hfill : fixture.fill setting depth count with ⟨result, after⟩
  cases fills hfill with
  | enough | crowded => exact h
  | failed missing generated | unpicked missing generated noPicker =>
      rw [generated] at hmany
      exact hmany
  | grown missing _ generated picks =>
      rw [generated] at hmany
      exact hstore _ _ hmany

end Fixture

/-! ### Sessions -/

namespace Session

variable {session : Session} {number : Nat}

theorem lt_length_of_fixture? {fixture : Fixture} (h : session.fixture? number = some fixture) :
    number < session.fixtures.length := by
  obtain ⟨hlt, -⟩ := List.getElem?_eq_some_iff.mp (Option.join_eq_some_iff.mp h)
  exact hlt

theorem stores_of_fixture? {fixture : Fixture} (h : session.fixture? number = some fixture) :
    session.stores number = fixture.store := by
  rw [stores, h]

theorem fixture?_setFixture {old : Fixture} (h : session.fixture? number = some old)
    (fixture : Fixture) (other : Nat) :
    (session.setFixture number fixture).fixture? other =
      if other = number then some fixture else session.fixture? other := by
  have hlt := lt_length_of_fixture? h
  rw [fixture?, setFixture, List.getElem?_set]
  by_cases heq : other = number
  · subst heq
    simp [hlt]
  · simp [heq, Ne.symm heq, fixture?]

theorem stores_setFixture {old : Fixture} (h : session.fixture? number = some old)
    (fixture : Fixture) : (session.setFixture number fixture).stores =
      Function.update session.stores number fixture.store := by
  funext other
  rw [stores, fixture?_setFixture h, Function.update_apply]
  by_cases heq : other = number
  · rw [if_pos heq, if_pos heq]
  · rw [if_neg heq, if_neg heq]
    rfl

theorem act_of_some {α : Type} {fixture : Fixture} (h : session.fixture? number = some fixture)
    (action : Fixture → α × Fixture) : session.act number action =
      (some (action fixture).1, session.setFixture number (action fixture).2) := by
  rw [act, h]

theorem act_of_none {α : Type} (h : session.fixture? number = none)
    (action : Fixture → α × Fixture) : session.act number action = (none, session) := by
  rw [act, h]

/-- A fixture that acts on something else than its store leaves all stores alone. -/
theorem stores_act {α : Type} {action : Fixture → α × Fixture}
    (hkeeps : ∀ fixture, session.fixture? number = some fixture →
      (action fixture).2.store = fixture.store) :
    (session.act number action).2.stores = session.stores := by
  cases h : session.fixture? number with
  | none => rw [act_of_none h]
  | some fixture =>
      rw [act_of_some h, stores_setFixture h, hkeeps fixture h, ← stores_of_fixture? h,
        Function.update_eq_self]

theorem fixture?_act {α : Type} (session : Session) (number : Nat)
    (action : Fixture → α × Fixture) (other : Nat) :
    (session.act number action).2.fixture? other =
      if other = number then (session.fixture? number).map fun fixture => (action fixture).2
      else session.fixture? other := by
  cases hold : session.fixture? number with
  | some fixture =>
      rw [act_of_some hold, fixture?_setFixture hold]
      rfl
  | none =>
      rw [act_of_none hold]
      by_cases heq : other = number
      · rw [if_pos heq, heq, hold]
        rfl
      · rw [if_neg heq]

theorem fixture?_append (session : Session) (registry : Registry) (fixture : Option Fixture)
    (other : Nat) :
    ({ session with registry := registry, fixtures := session.fixtures ++ [fixture] } :
        Session).fixture? other =
      if other = session.fixtures.length then fixture else session.fixture? other := by
  rw [fixture?, List.getElem?_append]
  by_cases hlt : other < session.fixtures.length
  · rw [if_pos hlt, if_neg (Nat.ne_of_lt hlt), fixture?]
  · rw [if_neg hlt]
    by_cases heq : other = session.fixtures.length
    · simp [heq]
    · have hout : 1 ≤ other - session.fixtures.length := by omega
      have hbeyond : session.fixtures.length ≤ other := by omega
      rw [if_neg heq, fixture?, List.getElem?_eq_none hbeyond, List.getElem?_eq_none hout]

theorem stores_append (session : Session) (registry : Registry) (fixture : Option Fixture) :
    ({ session with registry := registry, fixtures := session.fixtures ++ [fixture] } :
        Session).stores =
      Function.update session.stores session.fixtures.length
        ((fixture.map Fixture.store).getD .empty) := by
  funext other
  rw [stores, fixture?_append, Function.update_apply]
  by_cases heq : other = session.fixtures.length
  · rw [if_pos heq, if_pos heq]
    cases fixture with
    | none => rfl
    | some fixture => rfl
  · rw [if_neg heq, if_neg heq]
    rfl

theorem stores_of_length_le (h : session.fixtures.length ≤ number) :
    session.stores number = .empty := by
  rw [stores, fixture?, List.getElem?_eq_none h]
  rfl

end Session

/-! ### What an operation does to the stores -/

section

variable {registry : Registry} {stores : Stores} {depth count : Nat} {unseeded : Source}
  {name : String} {overrides : Overrides}

/-- Opening a fixture changes nothing in a registry but the number of fixtures opened. -/
theorem Registry.openFixture_snd :
    (registry.openFixture stores depth unseeded name count overrides).2 = { registry with
      opened := (registry.openFixture stores depth unseeded name count overrides).2.opened } := by
  rw [openFixture]
  split
  case h_1 =>
      dsimp only
      split
      · rfl
      · rfl
  case h_2 => rfl

theorem Registry.openFixture_eq_ok {fixture : Fixture}
    (h : (registry.openFixture stores depth unseeded name count overrides).1 = .ok fixture) :
    ∃ fresh : Fixture, fresh.store = .empty ∧ fresh.overrides = overrides ∧
      fresh.fill ⟨registry.catalog, stores⟩ depth count = (.ok (), fixture) := by
  rw [openFixture] at h
  split at h
  case h_1 generator schema hgenerator hschema =>
      dsimp only at h
      split at h
      case h_1 filled hfill =>
          cases h
          exact ⟨_, rfl, rfl, hfill⟩
      case h_2 => cases h
  case h_2 => cases h

end

namespace Session

variable {session : Session} {name : String} {count : Nat} {overrides : Overrides}

theorem openFixture_snd : (session.openFixture name count overrides).2 =
    { session with
      registry := (session.registry.openFixture session.stores session.depth session.unseeded name
        count overrides).2
      fixtures := session.fixtures ++ [(session.registry.openFixture session.stores session.depth
        session.unseeded name count overrides).1.toOption] } := by
  rw [openFixture]
  rcases session.registry.openFixture session.stores session.depth session.unseeded name count
    overrides with ⟨halt | fixture, registry⟩
  · rfl
  · rfl

theorem relations_act {α : Type} (session : Session) (number : Nat)
    (action : Fixture → α × Fixture) :
    (session.act number action).2.relations = session.relations := by
  rw [act]
  split
  · rfl
  · rfl

theorem registry_act {α : Type} (session : Session) (number : Nat)
    (action : Fixture → α × Fixture) :
    (session.act number action).2.registry = session.registry := by
  rw [act]
  split
  · rfl
  · rfl

theorem relate_snd (session : Session) (number : Nat) : (session.relate number).2 =
    { (session.act number fun fixture => fixture.relate number).2 with
      relations := session.relations ++
        [(session.act number fun fixture => fixture.relate number).1.bind Except.toOption] } := by
  have hkept := relations_act session number fun fixture => fixture.relate number
  rw [relate]
  rcases hact : session.act number fun fixture => fixture.relate number with
    ⟨_ | _ | relation, next⟩
  · rw [hact] at hkept
    dsimp only at hkept ⊢
    rw [hkept]
    rfl
  · rw [hact] at hkept
    dsimp only at hkept ⊢
    rw [hkept]
    rfl
  · rw [hact] at hkept
    dsimp only at hkept ⊢
    rw [hkept]
    rfl

theorem pick_snd (session : Session) (number count : Nat) :
    ∃ relations, (session.pick number count).2 = { session with relations := relations } := by
  rw [pick]
  split
  · exact ⟨_, rfl⟩
  · exact ⟨_, rfl⟩

end Session

theorem Fixture.store_relate (fixture : Fixture) (number : Nat) :
    (fixture.relate number).2.store = fixture.store := by
  rw [relate]
  split
  · rfl
  · rfl

namespace Session

variable {session : Session}

/-- A fill leaves its own store as it can leave a store, and all others as they were. -/
theorem filled_fill (hindex : session.registry.catalog.library.index = Picker.ofLength)
    {number : Nat} {fixture : Fixture} (h : session.fixture? number = some fixture) (count : Nat) :
    ∃ result store, (session.fill number count).1 = some result ∧
      (session.stores number).Filled count result store ∧
        (session.fill number count).2.stores = Function.update session.stores number store := by
  rw [fill, act_of_some h, stores_setFixture h, stores_of_fixture? h]
  exact ⟨_, _, rfl, Fixture.filled session.setting hindex fixture _ count, rfl⟩

/-- Opening a fixture fills a store of its own, and leaves that empty if it fails. -/
theorem filled_openFixture (hindex : session.registry.catalog.library.index = Picker.ofLength)
    (name : String) (count : Nat) (overrides : Overrides) :
    ∃ result store, Store.empty.Filled count result store ∧
      (session.openFixture name count overrides).2.stores =
        Function.update session.stores session.fixtures.length store := by
  rw [openFixture_snd, stores_append]
  cases hopen : (session.registry.openFixture session.stores session.depth session.unseeded name
      count overrides).1 with
  | error halt => exact ⟨.error halt, _, .failed, rfl⟩
  | ok fixture =>
      obtain ⟨fresh, hempty, -, hfill⟩ := Registry.openFixture_eq_ok hopen
      have hfilled := Fixture.filled session.setting hindex fresh session.depth count
      change fresh.fill session.setting session.depth count = _ at hfill
      rw [hfill, hempty] at hfilled
      exact ⟨.ok (), _, hfilled, rfl⟩

/-- What is neither a fill nor the opening of a fixture leaves all stores alone. -/
theorem stores_perform {operation : Operation}
    (hfill : ∀ number count, operation ≠ .fill number count)
    (hopen : ∀ name count overrides, operation ≠ .openFixture name count overrides) :
    (session.perform operation).stores = session.stores := by
  cases operation with
  | openFixture name count overrides => exact absurd rfl (hopen name count overrides)
  | fill number count => exact absurd rfl (hfill number count)
  | generate number => exact stores_act fun _ _ => rfl
  | reseed number seed => exact stores_act fun _ _ => rfl
  | relate number =>
      rw [perform, relate_snd]
      exact stores_act fun fixture _ => fixture.store_relate number
  | pick number count =>
      obtain ⟨relations, hpick⟩ := session.pick_snd number count
      rw [perform, hpick]
      rfl
  | copy number => rfl

/-- An operation leaves all stores but one as they were, and that one as some fill leaves it. -/
theorem filled_perform (hindex : session.registry.catalog.library.index = Picker.ofLength)
    (operation : Operation) : ∃ number count result store,
      (session.stores number).Filled count result store ∧
        (session.perform operation).stores = Function.update session.stores number store := by
  have hsame (hkept : (session.perform operation).stores = session.stores) :
      ∃ number count result store, (session.stores number).Filled count result store ∧
        (session.perform operation).stores = Function.update session.stores number store := by
    refine ⟨0, 0, .ok (), session.stores 0, .enough (Nat.zero_le _), ?_⟩
    rw [hkept, Function.update_eq_self]
  cases operation with
  | openFixture name count overrides =>
      obtain ⟨result, store, hfilled, hstores⟩ :=
        filled_openFixture hindex name count overrides
      rw [← stores_of_length_le (Nat.le_refl session.fixtures.length)] at hfilled
      exact ⟨_, _, _, _, hfilled, hstores⟩
  | fill number count =>
      cases h : session.fixture? number with
      | none => exact hsame (by rw [perform, fill, act_of_none h])
      | some fixture =>
          obtain ⟨result, store, -, hfilled, hstores⟩ := filled_fill hindex h count
          exact ⟨_, _, _, _, hfilled, hstores⟩
  | generate | reseed | relate | pick | copy => exact hsame (stores_perform (by simp) (by simp))

theorem registry_perform (session : Session) (operation : Operation) :
    (session.perform operation).registry = { session.registry with
      opened := (session.perform operation).registry.opened } := by
  cases operation with
  | openFixture name count overrides =>
      rw [perform, openFixture_snd]
      exact Registry.openFixture_snd
  | generate number =>
      rw [perform, generate, registry_act]
  | fill number count =>
      rw [perform, fill, registry_act]
  | reseed number seed =>
      rw [perform, reseed, registry_act]
  | relate number =>
      rw [perform, relate_snd]
      dsimp only
      rw [registry_act]
  | pick number count =>
      obtain ⟨relations, hpick⟩ := session.pick_snd number count
      rw [perform, hpick]
  | copy number => rfl

/-- The catalog that generating reads is that of the registry for good. -/
theorem catalog_perform (session : Session) (operation : Operation) :
    (session.perform operation).registry.catalog = session.registry.catalog := by
  rw [registry_perform]

theorem depth_act {α : Type} (session : Session) (number : Nat)
    (action : Fixture → α × Fixture) :
    (session.act number action).2.depth = session.depth := by
  rw [act]
  split
  · rfl
  · rfl

theorem depth_perform (session : Session) (operation : Operation) :
    (session.perform operation).depth = session.depth := by
  cases operation with
  | openFixture name count overrides => rw [perform, openFixture_snd]
  | generate | fill | reseed => exact depth_act ..
  | relate number =>
      rw [perform, relate_snd]
      exact depth_act ..
  | pick number count =>
      obtain ⟨relations, hpick⟩ := session.pick_snd number count
      rw [perform, hpick]
  | copy number => rfl

end Session

end Specimen
