import Specimen.Proofs.Request

/-!
# Stores over whole runs

A store is bounded by its picker from the first fill on, and every relation was taken from a store
that was not empty then. Both hold of a session at its start and are kept by every operation; stores
only grow, so a relation never picks beyond the store it reads.
-/

namespace Specimen

namespace Store

variable {store after : Store} {count : Nat} {result : Except Halt Unit}

structure Sound (store : Store) : Prop where
  absent : store.picker = none ↔ store.entries = []
  bound : ∀ picker, store.picker = some picker → picker.bound = store.size

theorem sound_empty : empty.Sound where
  absent := ⟨fun _ => rfl, fun _ => rfl⟩
  bound := by
    intro picker h
    cases h

theorem Filled.size_eq (h : store.Filled count (.ok ()) after) :
    after.size = max count store.size := by
  cases h with
  | enough hle => exact (Nat.max_eq_right hle).symm
  | @grown values picker hmissing hlength _ =>
      have hsize : (store.extend values picker).size = store.size + values.length :=
        List.length_append
      omega

theorem Filled.eq_of_error {halt : Halt} (h : store.Filled count (.error halt) after) :
    after = store := by
  cases h
  rfl

theorem Filled.sound (h : store.Filled count result after) (hsound : store.Sound) :
    after.Sound := by
  cases h with
  | failed => exact hsound
  | enough => exact hsound
  | @grown values picker hmissing hlength hbound =>
      have hsize : (store.extend values picker).size = count := by
        have happend : (store.extend values picker).size = store.size + values.length :=
          List.length_append
        omega
      constructor
      · constructor
        · intro h
          cases h
        · intro h
          have hnone : (store.extend values picker).size = 0 := by rw [size, h]; rfl
          omega
      · rintro other ⟨⟩
        rw [hbound, hsize]

/-- What picking needs of a store: that its picker stays below its size, and that there is one
unless the store is empty. -/
structure InRange (store : Store) : Prop where
  absent : store.picker = none → store.entries = []
  bound : ∀ picker, store.picker = some picker → picker.bound ≤ store.size

theorem Sound.inRange (h : store.Sound) : store.InRange where
  absent := h.absent.mp
  bound picker hpicker := Nat.le_of_eq (h.bound picker hpicker)

/-- A pick from a store that is not empty is the place of an entry. -/
theorem InRange.pick_lt {stores : Stores} {relation : Relation}
    (h : (stores relation.fixture).InRange) (hstocked : (stores relation.fixture).entries ≠ []) :
    (relation.pick stores).1 < (stores relation.fixture).size := by
  rw [Relation.pick]
  cases hpicker : (stores relation.fixture).picker with
  | none => exact absurd (h.absent hpicker) hstocked
  | some picker =>
      have hbound := h.bound picker hpicker
      have hpick : (picker.pick relation.source).1 < picker.bound :=
        Draw.below64_lt picker.bound_pos relation.source
      exact Nat.lt_of_lt_of_le hpick hbound

theorem InRange.picks_lt {stores : Stores} {relation : Relation}
    (h : (stores relation.fixture).InRange) (hstocked : (stores relation.fixture).entries ≠ [])
    (count : Nat) : ∀ place ∈ (relation.picks stores count).1,
      place < (stores relation.fixture).size := by
  induction count generalizing relation with
  | zero =>
      intro place hplace
      cases hplace
  | succ count ih =>
      intro place hplace
      have hsame := relation.fixture_pick stores
      rcases List.mem_cons.mp hplace with rfl | hlater
      · exact h.pick_lt hstocked
      · rw [← hsame] at h hstocked ⊢
        exact ih h hstocked place hlater

theorem getElem?_eq_entry {place : Nat} (h : place < store.size) :
    store.entries[place]? = some (store.entry place) := by
  rw [entry, List.getD_eq_getElem?_getD, List.getElem?_eq_getElem h]
  rfl

end Store

theorem Fixture.relate_eq_ok {fixture : Fixture} {number : Nat} {relation : Relation}
    (h : (fixture.relate number).1 = .ok relation) :
    fixture.store.entries ≠ [] ∧ relation.fixture = number := by
  rw [relate] at h
  split at h
  case isTrue => cases h
  case isFalse hempty =>
      cases h
      refine ⟨?_, rfl⟩
      intro hnil
      rw [hnil] at hempty
      exact hempty rfl

namespace Session

variable {session : Session} {operation : Operation}

def Stocked (session : Session) (number : Nat) : Prop :=
  (session.stores number).entries ≠ []

/-- Pickers fit their stores, and the relations that were taken, those among overrides as well, pick
from stores that are not empty. -/
structure Sound (session : Session) : Prop where
  index : session.registry.catalog.library.index = Picker.ofLength
  stores : ∀ number, (session.stores number).Sound
  relations : ∀ number relation, session.relation? number = some relation →
    session.Stocked relation.fixture
  overrides : ∀ number fixture, session.fixture? number = some fixture →
    fixture.overrides.From session.Stocked

theorem sound_start {registry : Registry} {unseeded : Source} {depth : Nat}
    (hindex : registry.catalog.library.index = Picker.ofLength) :
    (start registry unseeded depth).Sound where
  index := hindex
  stores _ := Store.sound_empty
  relations _ _ h := by cases h
  overrides _ _ h := by cases h

theorem prefix_perform (session : Session) (operation : Operation) (number : Nat) :
    (session.stores number).entries <+: ((session.perform operation).stores number).entries := by
  by_cases hlt : number < session.fixtures.length
  · rw [stores, stores, fixture?_perform_of_lt hlt]
    cases session.fixture? number with
    | none => exact List.prefix_refl _
    | some old => exact old.prefix_after ..
  · rw [stores_of_length_le (Nat.le_of_not_lt hlt)]
    exact List.nil_prefix

theorem Stocked.perform {number : Nat} (h : session.Stocked number) (operation : Operation) :
    (session.perform operation).Stocked number := by
  intro hempty
  have hprefix := session.prefix_perform operation number
  rw [hempty] at hprefix
  exact h (List.prefix_nil.mp hprefix)

theorem relation?_append (session : Session) (relation : Option Relation) (number : Nat)
    {held : Relation}
    (h : ({ session with relations := session.relations ++ [relation] } : Session).relation?
      number = some held) :
    session.relation? number = some held ∨ relation = some held := by
  rw [relation?, List.getElem?_append] at h
  split at h
  case isTrue => exact .inl h
  case isFalse =>
      rw [List.getElem?_singleton] at h
      split at h
      case isTrue => exact .inr h
      case isFalse => cases h

/-- Picking moves relations on, but not to other stores. -/
theorem relation?_pick {other count number : Nat} {relation : Relation}
    (h : (session.pick other count).2.relation? number = some relation) :
    ∃ number held, session.relation? number = some held ∧ held.fixture = relation.fixture := by
  rw [pick] at h
  cases hother : session.relation? other with
  | none =>
      rw [hother] at h
      exact ⟨number, relation, h, rfl⟩
  | some picking =>
      rw [hother] at h
      dsimp only at h
      rw [relation?, setRelation, List.getElem?_set] at h
      split at h
      case isTrue =>
          split at h
          case isTrue =>
              cases h
              exact ⟨other, picking, hother, (picking.fixture_picks _ count).symm⟩
          case isFalse => cases h
      case isFalse => exact ⟨number, relation, h, rfl⟩

/-- A relation that can be picked by after an operation reads the store of one that could be before,
or a store that was not empty. -/
theorem relation?_perform {number : Nat} {relation : Relation}
    (h : (session.perform operation).relation? number = some relation) :
    (∃ number held, session.relation? number = some held ∧ held.fixture = relation.fixture) ∨
      session.Stocked relation.fixture := by
  cases operation with
  | openFixture name count overrides =>
      rw [perform, openFixture_snd] at h
      exact .inl ⟨number, relation, h, rfl⟩
  | generate other =>
      rw [perform, relation?, generate, relations_act] at h
      exact .inl ⟨number, relation, h, rfl⟩
  | fill other count =>
      rw [perform, relation?, fill, relations_act] at h
      exact .inl ⟨number, relation, h, rfl⟩
  | reseed other seed =>
      rw [perform, relation?, reseed, relations_act] at h
      exact .inl ⟨number, relation, h, rfl⟩
  | copy other =>
      rcases session.relation?_append _ number h with hheld | hheld
      · exact .inl ⟨number, relation, hheld, rfl⟩
      · exact .inl ⟨other, relation, hheld, rfl⟩
  | pick other count => exact .inl (relation?_pick h)
  | relate other =>
      rw [perform, relate_snd] at h
      rcases relation?_append _ _ number h with hheld | hrelated
      · exact .inl ⟨number, relation, hheld, rfl⟩
      · cases hother : session.fixture? other with
        | none =>
            rw [act_of_none hother] at hrelated
            cases hrelated
        | some fixture =>
            rw [act_of_some hother] at hrelated
            obtain ⟨hstocked, hfixture⟩ :=
              Fixture.relate_eq_ok (Outcome.toOption_eq_some.mp hrelated)
            rw [← stores_of_fixture? hother] at hstocked
            rw [hfixture]
            exact .inr hstocked

/-- The relations that were taken, those among overrides as well, pick from stores that are not
empty. -/
structure Backed (session : Session) : Prop where
  relations : ∀ number relation, session.relation? number = some relation →
    session.Stocked relation.fixture
  overrides : ∀ number fixture, session.fixture? number = some fixture →
    fixture.overrides.From session.Stocked

theorem backed_start {registry : Registry} {unseeded : Source} {depth : Nat} :
    (start registry unseeded depth).Backed where
  relations _ _ h := by cases h
  overrides _ _ h := by cases h

theorem Backed.from_of_allows (h : session.Backed) {name : String} {count : Nat}
    {overrides : Overrides} (hallowed : session.Allows (.openFixture name count overrides)) :
    overrides.From session.Stocked := by
  intro path relation hrelation
  obtain ⟨number, held, hheld, hsame⟩ := hallowed path relation hrelation
  rw [← hsame]
  exact h.relations number held hheld

theorem Backed.perform (h : session.Backed) (hallowed : session.Allows operation) :
    (session.perform operation).Backed where
  relations := by
    intro number relation hrelation
    apply Stocked.perform
    rcases relation?_perform hrelation with ⟨other, held, hheld, hsame⟩ | hstocked
    · rw [← hsame]
      exact h.relations other held hheld
    · exact hstocked
  overrides := by
    intro number fixture hfixture path relation hrelation
    apply Stocked.perform
    have hfrom : fixture.overrides.From session.Stocked := by
      apply overrides_perform (Overrides.keptByCalls_from session.setting _) _ h.overrides hfixture
      rintro name count overrides rfl
      exact h.from_of_allows hallowed
    exact hfrom path relation hrelation

theorem Sound.backed (h : session.Sound) : session.Backed :=
  ⟨h.relations, h.overrides⟩

theorem Sound.perform (h : session.Sound) (hallowed : session.Allows operation) :
    (session.perform operation).Sound where
  index := by rw [catalog_perform, h.index]
  relations := (h.backed.perform hallowed).relations
  overrides := (h.backed.perform hallowed).overrides
  stores := by
    intro number
    obtain ⟨changed, count, result, store, hfilled, hstores⟩ := filled_perform h.index operation
    rw [hstores, Function.update_apply]
    split
    case isTrue heq => exact hfilled.sound (h.stores changed)
    case isFalse => exact h.stores number

theorem Runs.sound {last : Session} {operations : List Operation}
    (hruns : session.Runs operations last) (h : session.Sound) : last.Sound := by
  induction hruns with
  | nil => exact h
  | cons hallowed _ ih => exact ih (h.perform hallowed)

theorem Runs.prefix_entries {last : Session} {operations : List Operation}
    (hruns : session.Runs operations last) (number : Nat) :
    (session.stores number).entries <+: (last.stores number).entries := by
  induction hruns with
  | nil => exact List.prefix_refl _
  | cons _ _ ih => exact (prefix_perform _ _ number).trans ih

theorem relate_fst {number : Nat} {fixture : Fixture}
    (h : session.fixture? number = some fixture) : (session.relate number).1 =
      if (session.stores number).entries = [] then some (.error (.emptyStore fixture.name))
      else some (.ok session.relations.length) := by
  rw [stores_of_fixture? h, relate, act_of_some h, Fixture.relate]
  by_cases hempty : fixture.store.entries = []
  · rw [if_pos hempty, hempty]
    rfl
  · rw [if_neg hempty, if_neg (by simpa using hempty)]
    rfl

theorem pick_fst {number : Nat} {relation : Relation}
    (h : session.relation? number = some relation) (count : Nat) :
    (session.pick number count).1 =
      some (session.entriesAt relation (relation.picks session.stores count).1) := by
  rw [pick, h]
  dsimp only
  rw [entriesAt, entriesAt, Relation.fixture_picks]

theorem filled_of_answer (hindex : session.registry.catalog.library.index = Picker.ofLength)
    {number count : Nat} {answer : Except Halt Unit}
    (hanswer : (session.fill number count).1 = some answer) :
    ∃ store, (session.stores number).Filled count answer store ∧
      (session.fill number count).2.stores = Function.update session.stores number store := by
  cases hfixture : session.fixture? number with
  | none =>
      rw [fill, act_of_none hfixture] at hanswer
      cases hanswer
  | some fixture =>
      obtain ⟨result, store, hresult, hfilled, hstores⟩ := filled_fill hindex hfixture count
      rw [hresult] at hanswer
      cases hanswer
      exact ⟨store, hfilled, hstores⟩

/-! ### The laws of the stores -/

/-- Relations that were taken and are still there, with those that stand among overrides. -/
def Holds (session : Session) (relation : Relation) : Prop :=
  (∃ number, session.relation? number = some relation) ∨
    ∃ number fixture path, session.fixture? number = some fixture ∧
      fixture.overrides.get? path = some (.relation relation)

theorem Sound.stocked {relation : Relation} (h : session.Sound) (hholds : session.Holds relation) :
    session.Stocked relation.fixture := by
  rcases hholds with ⟨number, hheld⟩ | ⟨number, fixture, path, hfixture, hpath⟩
  · exact h.relations number relation hheld
  · exact h.overrides number fixture hfixture path relation hpath

structure StoreLaws (session : Session) : Prop where
  sound : ∀ number, (session.stores number).Sound
  grow : ∀ {operations : List Operation} {later : Session}, session.Runs operations later →
    ∀ number, (session.stores number).entries <+: (later.stores number).entries
  filled : ∀ {number count : Nat}, (session.fill number count).1 = some (.ok ()) →
    ((session.fill number count).2.stores number).size = max count (session.stores number).size
  failed : ∀ {number count : Nat} {halt : Halt},
    (session.fill number count).1 = some (.error halt) →
      (session.fill number count).2.stores = session.stores
  apart : ∀ {number count other : Nat}, other ≠ number →
    (session.fill number count).2.stores other = session.stores other
  opened : ∀ {name : String} {count other : Nat} {overrides : Overrides},
    other ≠ session.fixtures.length →
      (session.openFixture name count overrides).2.stores other = session.stores other
  kept : ∀ {operation : Operation}, (∀ number count, operation ≠ .fill number count) →
    (∀ name count overrides, operation ≠ .openFixture name count overrides) →
      (session.perform operation).stores = session.stores
  related : ∀ {number : Nat} {fixture : Fixture}, session.fixture? number = some fixture →
    (session.relate number).1 =
      if (session.stores number).entries = [] then some (.error (.emptyStore fixture.name))
      else some (.ok session.relations.length)
  /-- Wherever the source of a relation has got to, its next pick is an entry. -/
  picked : ∀ {relation : Relation} (source : Source), session.Holds relation →
    ∃ entry, (session.stores relation.fixture).entries[
      (Relation.pick { relation with source := source } session.stores).1]? = some entry
  answered : ∀ {number count : Nat} {relation : Relation},
    session.relation? number = some relation → ∃ answers,
      (session.pick number count).1 = some answers ∧ answers.length = count ∧
        ∀ answer ∈ answers, (session.stores relation.fixture).entries[answer.1]? = some answer.2

theorem Sound.storeLaws (h : session.Sound) : session.StoreLaws where
  sound := h.stores
  grow hruns := hruns.prefix_entries
  kept := stores_perform
  related := relate_fst
  filled := by
    intro number count hanswer
    obtain ⟨store, hfilled, hstores⟩ := filled_of_answer h.index hanswer
    rw [hstores, Function.update_self]
    exact hfilled.size_eq
  failed := by
    intro number count halt hanswer
    obtain ⟨store, hfilled, hstores⟩ := filled_of_answer h.index hanswer
    rw [hstores, hfilled.eq_of_error, Function.update_eq_self]
  apart := by
    intro number count other hne
    cases hfixture : session.fixture? number with
    | none => rw [fill, act_of_none hfixture]
    | some fixture =>
        obtain ⟨result, store, -, -, hstores⟩ := filled_fill h.index hfixture count
        rw [hstores, Function.update_of_ne hne]
  opened := by
    intro name count other overrides hne
    obtain ⟨result, store, -, hstores⟩ := filled_openFixture h.index name count overrides
    rw [hstores, Function.update_of_ne hne]
  picked := by
    intro relation source hholds
    have hstocked := h.stocked hholds
    have hlt : (Relation.pick { relation with source := source } session.stores).1 <
        (session.stores relation.fixture).size :=
      Store.InRange.pick_lt (h.stores relation.fixture).inRange hstocked
    exact ⟨_, Store.getElem?_eq_entry hlt⟩
  answered := by
    intro number count relation hrelation
    have hlt := (h.stores relation.fixture).inRange.picks_lt
      (h.stocked (.inl ⟨number, hrelation⟩)) count
    refine ⟨_, pick_fst hrelation count, ?_, ?_⟩
    · rw [entriesAt, List.length_map, Relation.length_picks]
    · intro answer hanswer
      obtain ⟨place, hplace, rfl⟩ := List.mem_map.mp hanswer
      exact Store.getElem?_eq_entry (hlt place hplace)

/-- In every session that operations lead to, stores and pickers fit, stores only grow, and
relations pick what is there. -/
theorem storeLaws_of_runs {registry : Registry} {unseeded : Source} {depth : Nat}
    {operations : List Operation} (hindex : registry.catalog.library.index = Picker.ofLength)
    (hruns : (start registry unseeded depth).Runs operations session) : session.StoreLaws :=
  (hruns.sound (sound_start hindex)).storeLaws

end Session

namespace Sample

def registry : Registry :=
  ⟨⟨[("row", rowNode)], library⟩, [("row", .object [("id", .leaf Leaf.null)])], none, [], 0⟩

def session : Session :=
  .start registry (.mixed [7] 0) 4

def relation : Relation :=
  ⟨"row", 0, .ofSeed 7⟩

/-- A fixture with a relation to the one before, which is filled once more while the relation is in
use. -/
def operations : List Operation :=
  [.openFixture "row" 1 .empty, .relate 0,
    .openFixture "row" 0 ⟨[(["id"], .relation relation)]⟩,
    .generate 1, .fill 0 3, .copy 0, .pick 1 2]

def lastSession : Session :=
  operations.foldl Session.perform session

theorem runs_operations : session.Runs operations lastSession := by
  refine .cons ?_ (.cons trivial (.cons ?_ (.cons trivial (.cons trivial (.cons trivial
    (.cons trivial .nil))))))
  · intro path relation h
    cases h
  · intro path relation h
    rw [Overrides.get?, Assoc.get?] at h
    split at h
    · cases h
      exact ⟨0, relation, rfl, rfl⟩
    · cases h

end Sample

theorem storeLaws_of_runs_operations :
    Sample.registry.catalog.library.index = Picker.ofLength ∧
      Sample.session.Runs Sample.operations Sample.lastSession ∧ Sample.lastSession.StoreLaws :=
  ⟨rfl, Sample.runs_operations, Session.storeLaws_of_runs rfl Sample.runs_operations⟩

end Specimen
