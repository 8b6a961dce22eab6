import Specimen.Proofs.Agreement
import Specimen.Proofs.Stores

/-!
# Foreign keys

A relation among the overrides of one fixture makes a foreign key of its path: what stands there
is an entry of the store that the relation picks from. No override below the path may touch the
entry once it is picked. The entry is there when it is picked, and stores only grow, so it stays
there.
-/

namespace Specimen

/-- Wherever members of objects lead along a path from a value, there is an entry of a store. -/
def Json.RefersInto (value : Json) (path : Path) (store : Store) : Prop :=
  ∀ target, value.Leads path target → target ∈ store.entries

/-- The fixture whose store an override picks from. -/
def Override.origin? : Override → Option Nat
  | .relation r => some r.fixture
  | .generator _ | .function .. | .value _ => none

/-- The override of a path is a relation to a fixture, and there are none below the path. -/
structure Overrides.Links (overrides : Overrides) (path : Path) (origin : Nat) : Prop where
  bound : (overrides.get? path).bind Override.origin? = some origin
  free : ∀ below, below ≠ [] → overrides.contains (path ++ below) = false

/-- A fixture of objects has a relation to another fixture at a path of keys. -/
structure Fixture.Links (fixture : Fixture) (path : Path) (origin : Nat) : Prop where
  object : RootShape.ofSchema fixture.schema = .object
  named : path ≠ []
  overrides : fixture.overrides.Links path origin

/-! ### What is picked is an entry -/

section Picking

variable {setting : Setting} {depth origin : Nat} {path : Path} {overrides : Overrides}

theorem Overrides.Links.exists_relation (h : overrides.Links path origin) :
    ∃ relation, overrides.get? path = some (.relation relation) ∧ relation.fixture = origin := by
  obtain ⟨entry, hentry, horigin⟩ := Option.bind_eq_some_iff.mp h.bound
  cases entry with
  | relation relation => exact ⟨relation, hentry, Option.some.inj horigin⟩
  | generator | function | value => cases horigin

theorem Overrides.Links.of_from {P : Nat → Prop} (h : overrides.Links path origin)
    (hfrom : overrides.From P) : P origin := by
  obtain ⟨relation, hrelation, rfl⟩ := h.exists_relation
  exact hfrom path relation hrelation

theorem Relation.value_mem {stores : Stores} {relation : Relation}
    (hrange : (stores relation.fixture).InRange)
    (hstocked : (stores relation.fixture).entries ≠ []) :
    relation.value stores ∈ (stores relation.fixture).entries :=
  List.mem_of_getElem? (Store.getElem?_eq_entry (hrange.pick_lt hstocked))

/-- What is materialized under a foreign key refers to an entry that is in the store. -/
theorem refersInto_of_materialize {schema : Json} {generator : Generator} {before after : Progress}
    {value : Json} (hobject : RootShape.ofSchema schema = .object) (hnamed : path ≠ [])
    (hlinks : before.overrides.Links path origin) (hrange : (setting.stores origin).InRange)
    (hstocked : (setting.stores origin).entries ≠ [])
    (h : materialize setting depth schema generator before = (.ok value, after)) :
    value.RefersInto path (setting.stores origin) := by
  intro target hleads
  obtain ⟨draft, -, -, hprecedence⟩ := precedence_of_materialize h
  obtain ⟨name, rest, rfl⟩ := List.exists_cons_of_ne_nil hnamed
  have hposition : (name :: rest, target) ∈ (RootShape.ofSchema schema).positions value := by
    rw [hobject]
    exact hleads.mem_positions
  obtain ⟨earlier, later, hvisits⟩ := List.append_of_mem hposition
  obtain ⟨relation, hrelation, rfl⟩ := hlinks.exists_relation
  have hshows : Shows before.overrides.contains (name :: rest)
      ((relation.picks setting.stores (occurrences (name :: rest) earlier)).2.value setting.stores)
      target := hprecedence.supplied hvisits hrelation
  rw [hshows.eq_of_free hlinks.free]
  have hsame := relation.fixture_picks setting.stores (occurrences (name :: rest) earlier)
  rw [← hsame] at hrange hstocked ⊢
  exact Relation.value_mem hrange hstocked

end Picking

/-! ### Fixtures -/

theorem Overrides.links_set_after {setting : Setting} {overrides : Overrides} {place path : Path}
    {entry : Override} {origin count : Nat} (h : overrides.get? place = some entry) :
    (overrides.set place (entry.after setting count)).Links path origin ↔
      overrides.Links path origin := by
  have horigin : (entry.after setting count).origin? = entry.origin? := by
    cases entry with
    | relation r => exact congrArg some (r.fixture_picks setting.stores count)
    | generator | function | value => rfl
  have hbound : ((overrides.set place (entry.after setting count)).get? path).bind
      Override.origin? = (overrides.get? path).bind Override.origin? := by
    by_cases heq : path = place
    · rw [heq, get?_set_self, h]
      exact horigin
    · rw [get?_set_of_ne heq]
  have hcontains : (overrides.set place (entry.after setting count)).contains =
      overrides.contains := contains_set h
  constructor
  · rintro ⟨bound, free⟩
    rw [hbound] at bound
    rw [hcontains] at free
    exact ⟨bound, free⟩
  · rintro ⟨bound, free⟩
    rw [← hbound] at bound
    rw [← hcontains] at free
    exact ⟨bound, free⟩

/-- Calls keep an override that is a foreign key, and make none of one that is not. -/
theorem Overrides.keptByCalls_links (setting : Setting) (path : Path) (origin : Nat)
    (holds : Prop) :
    KeptByCalls setting fun overrides => (overrides.Links path origin ↔ holds) := by
  intro overrides place entry h hentry
  rw [links_set_after hentry]
  exact h

namespace Fixture

variable {fixture : Fixture} {setting : Setting} {depth count number origin : Nat} {path : Path}

theorem schema_fill (fixture : Fixture) (setting : Setting) (depth count : Nat) :
    (fixture.fill setting depth count).2.schema = fixture.schema :=
  fill_induction (fun next => next.schema = fixture.schema) (fun _ h => h) (fun _ _ h => h) rfl

theorem schema_after (fixture : Fixture) (setting : Setting) (depth number : Nat)
    (operation : Operation) :
    (fixture.after setting depth number operation).schema = fixture.schema :=
  after_induction (fun next => next.schema = fixture.schema) rfl operation
    (serve_induction (fun next => next.schema = fixture.schema) (fun _ h => h) (fun _ _ h => h)
      (fun _ _ h => h) rfl)

theorem links_iff {next : Fixture} (hschema : next.schema = fixture.schema)
    (hoverrides : next.overrides.Links path origin ↔ fixture.overrides.Links path origin) :
    next.Links path origin ↔ fixture.Links path origin := by
  constructor
  · intro h
    exact ⟨hschema ▸ h.object, h.named, hoverrides.mp h.overrides⟩
  · intro h
    exact ⟨hschema.symm ▸ h.object, h.named, hoverrides.mpr h.overrides⟩

theorem links_fill (fixture : Fixture) (setting : Setting) (depth count : Nat) :
    (fixture.fill setting depth count).2.Links path origin ↔ fixture.Links path origin :=
  links_iff (fixture.schema_fill setting depth count)
    (fill_same (setting.alike_self _) (Overrides.keptByCalls_links setting path origin _) count
      Iff.rfl).2

theorem links_after (fixture : Fixture) (setting : Setting) (depth number : Nat)
    (operation : Operation) :
    (fixture.after setting depth number operation).Links path origin ↔
      fixture.Links path origin :=
  links_iff (fixture.schema_after setting depth number operation)
    (after_same (setting.alike_self _) (Overrides.keptByCalls_links setting path origin _) Iff.rfl
      operation).2

theorem links_generate (fixture : Fixture) (setting : Setting) (depth : Nat) :
    (fixture.generate setting depth).2.Links path origin ↔ fixture.Links path origin :=
  links_iff rfl
    (generate_same (setting.alike_self _) (Overrides.keptByCalls_links setting path origin _)
      Iff.rfl).2

section Filling

variable (hlinks : fixture.Links path origin) (hrange : (setting.stores origin).InRange)
  (hstocked : (setting.stores origin).entries ≠ [])

include hlinks hrange hstocked

theorem refersInto_generate {value : Json} (h : (fixture.generate setting depth).1 = .ok value) :
    value.RefersInto path (setting.stores origin) := by
  rw [generate] at h
  exact refersInto_of_materialize hlinks.object hlinks.named hlinks.overrides hrange hstocked
    (Prod.ext h rfl)

theorem refersInto_generateMany {values : List Json} {last : Fixture}
    (h : fixture.generateMany setting depth count = (.ok values, last)) :
    ∀ value ∈ values, value.RefersInto path (setting.stores origin) := by
  induction count generalizing fixture values with
  | zero =>
      cases h
      intro value hvalue
      cases hvalue
  | succ count ih =>
      obtain ⟨value, next, rest, hvalue, hrest, rfl⟩ := generateMany_succ_eq_ok h
      have hfirst : value.RefersInto path (setting.stores origin) :=
        refersInto_generate hlinks hrange hstocked (congrArg Prod.fst hvalue)
      -- a value moves the relation on, but it stays a relation to the same fixture
      have hnext : next.Links path origin := by
        have hkept := (fixture.links_generate setting depth).mpr hlinks
        rw [hvalue] at hkept
        exact hkept
      intro other hother
      rcases List.mem_cons.mp hother with rfl | hother
      · exact hfirst
      · exact ih hnext hrest other hother

/-- What a fill adds refers to entries that were there before the fill. -/
theorem refersInto_fill
    (hheld : ∀ value ∈ fixture.store.entries, value.RefersInto path (setting.stores origin)) :
    ∀ value ∈ (fixture.fill setting depth count).2.store.entries,
      value.RefersInto path (setting.stores origin) := by
  rcases fixture.store_fill setting depth count with
    hsame | ⟨values, last, picker, -, generated, -, hgrown⟩
  · rw [hsame]
    exact hheld
  · rw [hgrown]
    intro value hvalue
    rcases List.mem_append.mp hvalue with hold | hadded
    · exact hheld value hold
    · exact refersInto_generateMany hlinks hrange hstocked generated value hadded

theorem refersInto_after (operation : Operation)
    (hheld : ∀ value ∈ fixture.store.entries, value.RefersInto path (setting.stores origin)) :
    ∀ value ∈ (fixture.after setting depth number operation).store.entries,
      value.RefersInto path (setting.stores origin) := by
  rcases fixture.store_after setting depth number operation with hsame | ⟨count, hfill⟩
  · rw [hsame]
    exact hheld
  · rw [hfill]
    exact refersInto_fill hlinks hrange hstocked hheld

end Filling

theorem inRange_fill (hlibrary : setting.catalog.library.PicksInRange) (h : fixture.store.InRange) :
    (fixture.fill setting depth count).2.store.InRange := by
  rcases fixture.store_fill setting depth count with
    hsame | ⟨values, last, picker, missing, generated, picks, hgrown⟩
  · rw [hsame]
    exact h
  · rw [hgrown]
    have hlength := length_of_generateMany generated
    have hsize : (fixture.store.extend values picker).size = fixture.store.size + values.length :=
      List.length_append
    constructor
    · intro hnone
      cases hnone
    · rintro other ⟨⟩
      have hbound := hlibrary count picker picks
      change picker.bound ≤ (fixture.store.extend values picker).size
      omega

theorem inRange_after (hlibrary : setting.catalog.library.PicksInRange)
    (h : fixture.store.InRange) (operation : Operation) :
    (fixture.after setting depth number operation).store.InRange := by
  rcases fixture.store_after setting depth number operation with hsame | ⟨count, hfill⟩
  · rw [hsame]
    exact h
  · rw [hfill]
    exact inRange_fill hlibrary h

end Fixture

/-! ### Sessions -/

theorem Json.RefersInto.mono {value : Json} {path : Path} {store later : Store}
    (h : value.RefersInto path store) (hgrows : store.entries <+: later.entries) :
    value.RefersInto path later :=
  fun target hleads => hgrows.subset (h target hleads)

namespace Session

variable {session : Session} {operation : Operation}

/-- Pickers stay in range of their stores, and what is stored under a foreign key refers to entries
of the store that the key is for. -/
structure Linked (session : Session) : Prop where
  backed : session.Backed
  inRange : ∀ number, (session.stores number).InRange
  refers : ∀ {number origin : Nat} {fixture : Fixture} {path : Path},
    session.fixture? number = some fixture → fixture.Links path origin →
      ∀ value ∈ fixture.store.entries, value.RefersInto path (session.stores origin)

theorem linked_start {registry : Registry} {unseeded : Source} {depth : Nat} :
    (start registry unseeded depth).Linked where
  backed := backed_start
  inRange _ := Store.sound_empty.inRange
  refers hfixture := by cases hfixture

/-- The store of a foreign key is not empty, since a relation was taken from it. -/
theorem Linked.stocked {number origin : Nat} {fixture : Fixture} {path : Path}
    (h : session.Linked) (hfixture : session.fixture? number = some fixture)
    (hlinks : fixture.Links path origin) : (session.setting.stores origin).entries ≠ [] :=
  hlinks.overrides.of_from (h.backed.overrides number fixture hfixture)

theorem Linked.refersInto_opened (h : session.Linked) {name : String} {count origin : Nat}
    {overrides : Overrides} (hallowed : session.Allows (.openFixture name count overrides))
    {fixture : Fixture} {path : Path} (hopened : session.opened name count overrides = .ok fixture)
    (hlinks : fixture.Links path origin) :
    ∀ value ∈ fixture.store.entries, value.RefersInto path (session.stores origin) := by
  obtain ⟨fresh, hempty, rfl, rfl⟩ := opened_eq_ok hopened
  have hfreshLinks := (fresh.links_fill session.setting session.depth count).mp hlinks
  have hstocked : (session.setting.stores origin).entries ≠ [] :=
    hfreshLinks.overrides.of_from (h.backed.from_of_allows hallowed)
  apply Fixture.refersInto_fill hfreshLinks (h.inRange origin) hstocked
  rw [hempty]
  intro value hvalue
  cases hvalue

theorem Linked.inRange_perform (h : session.Linked)
    (hlibrary : session.registry.catalog.library.PicksInRange) (operation : Operation)
    (number : Nat) : ((session.perform operation).stores number).InRange := by
  cases hfixture : (session.perform operation).fixture? number with
  | none =>
      rw [stores, hfixture]
      exact Store.sound_empty.inRange
  | some fixture =>
      rw [stores_of_fixture? hfixture]
      rcases fixture?_perform hfixture with
        ⟨old, hold, rfl⟩ | ⟨name, count, overrides, -, -, hopened⟩
      · have hrange := h.inRange number
        rw [stores_of_fixture? hold] at hrange
        exact Fixture.inRange_after hlibrary hrange operation
      · obtain ⟨fresh, hempty, -, rfl⟩ := opened_eq_ok hopened
        apply Fixture.inRange_fill hlibrary
        rw [hempty]
        exact Store.sound_empty.inRange

theorem Linked.perform (h : session.Linked)
    (hlibrary : session.registry.catalog.library.PicksInRange)
    (hallowed : session.Allows operation) : (session.perform operation).Linked where
  backed := h.backed.perform hallowed
  inRange := h.inRange_perform hlibrary operation
  refers := by
    intro number origin fixture path hfixture hlinks value hvalue
    -- also what has just been added refers to entries from before the operation
    apply Json.RefersInto.mono _ (session.prefix_perform operation origin)
    rcases fixture?_perform hfixture with
      ⟨old, hold, rfl⟩ | ⟨name, count, overrides, rfl, -, hopened⟩
    · have holdLinks := (old.links_after session.setting session.depth number operation).mp hlinks
      exact Fixture.refersInto_after holdLinks (h.inRange origin) (h.stocked hold holdLinks)
        operation (h.refers hold holdLinks) value hvalue
    · exact h.refersInto_opened hallowed hopened hlinks value hvalue

theorem Runs.linked {last : Session} {operations : List Operation}
    (hruns : session.Runs operations last)
    (hlibrary : session.registry.catalog.library.PicksInRange) (h : session.Linked) :
    last.Linked := by
  induction hruns with
  | nil => exact h
  | cons hallowed _ ih =>
      apply ih _ (h.perform hlibrary hallowed)
      rw [catalog_perform]
      exact hlibrary

/-- What a foreign key of a fixture means: everything stored, everything that a fill stores and
everything generated next refers to entries that are there, and what refers to entries does so for
good. -/
structure ForeignKey (session : Session) (number : Nat) (path : Path) (origin : Nat) : Prop where
  stored : ∀ value ∈ (session.stores number).entries,
    value.RefersInto path (session.stores origin)
  filled : ∀ count, ∀ value ∈ ((session.fill number count).2.stores number).entries,
    value.RefersInto path (session.stores origin)
  generated : ∀ value, (session.generate number).1 = some (.ok value) →
    value.RefersInto path (session.stores origin)
  lasting : ∀ {operations : List Operation} {later : Session}, session.Runs operations later →
    ∀ value : Json, value.RefersInto path (session.stores origin) →
      value.RefersInto path (later.stores origin)

theorem Linked.foreignKey (h : session.Linked) {number origin : Nat} {fixture : Fixture}
    {path : Path} (hfixture : session.fixture? number = some fixture)
    (hlinks : fixture.Links path origin) : session.ForeignKey number path origin where
  stored := by
    rw [stores_of_fixture? hfixture]
    exact h.refers hfixture hlinks
  filled := by
    intro count
    have hfilled : (session.fill number count).2.fixture? number =
        some (fixture.fill session.setting session.depth count).2 := by
      rw [fill, fixture?_act, if_pos rfl, hfixture]
      rfl
    rw [stores_of_fixture? hfilled]
    exact Fixture.refersInto_fill hlinks (h.inRange origin) (h.stocked hfixture hlinks)
      (h.refers hfixture hlinks)
  generated := by
    intro value hvalue
    rw [generate, act_of_some hfixture] at hvalue
    exact Fixture.refersInto_generate hlinks (h.inRange origin) (h.stocked hfixture hlinks)
      (Option.some.inj hvalue)
  lasting hruns _ hrefers := hrefers.mono (hruns.prefix_entries origin)

/-- A fixture stays, with the foreign keys it has. -/
theorem Runs.exists_links {last : Session} {operations : List Operation} {number origin : Nat}
    {fixture : Fixture} {path : Path} (hruns : session.Runs operations last)
    (hfixture : session.fixture? number = some fixture) (hlinks : fixture.Links path origin) :
    ∃ later, last.fixture? number = some later ∧ later.Links path origin := by
  induction hruns generalizing fixture with
  | nil => exact ⟨fixture, hfixture, hlinks⟩
  | @cons session last operation operations _ _ ih =>
      have hnext := fixture?_perform_of_lt (lt_length_of_fixture? hfixture) operation
      rw [hfixture] at hnext
      exact ih hnext ((fixture.links_after ..).mpr hlinks)

/-- In every session that operations lead to, a relation among the overrides of a fixture is a
foreign key. Of the library it takes that pickers stay below the length they are made for. -/
theorem foreignKey_of_runs {registry : Registry} {unseeded : Source} {depth number origin : Nat}
    {operations : List Operation} {fixture : Fixture} {path : Path}
    (hlibrary : registry.catalog.library.PicksInRange)
    (hruns : (start registry unseeded depth).Runs operations session)
    (hfixture : session.fixture? number = some fixture) (hlinks : fixture.Links path origin) :
    session.ForeignKey number path origin :=
  (hruns.linked hlibrary linked_start).foreignKey hfixture hlinks

end Session

namespace Sample

/-- The fixture that is opened with a relation to the one before. -/
def referrer : Fixture :=
  ⟨"row", .object [("id", .leaf Leaf.null)], rowNode, ⟨[(["id"], .relation relation)]⟩,
    .mixed [7] 0, .empty⟩

theorem links_referrer : referrer.Links ["id"] 0 where
  object := rfl
  named := by simp
  overrides := by
    refine ⟨rfl, ?_⟩
    intro below hbelow
    have hne : ["id"] ≠ ["id"] ++ below := by simpa using hbelow.symm
    rw [Overrides.contains, Overrides.get?, referrer, Assoc.get?, if_neg hne]
    rfl

theorem exists_links_lastSession :
    ∃ later, lastSession.fixture? 1 = some later ∧ later.Links ["id"] 0 := by
  have hopened : ((operations.take 3).foldl Session.perform session).fixture? 1 = some referrer :=
    rfl
  have hruns : ((operations.take 3).foldl Session.perform session).Runs (operations.drop 3)
      lastSession :=
    .cons trivial (.cons trivial (.cons trivial (.cons trivial .nil)))
  exact hruns.exists_links hopened links_referrer

end Sample

theorem foreignKey_of_runs_operations :
    Sample.registry.catalog.library.PicksInRange ∧
      Sample.session.Runs Sample.operations Sample.lastSession ∧
        (∃ fixture, Sample.lastSession.fixture? 1 = some fixture ∧ fixture.Links ["id"] 0) ∧
          Sample.lastSession.ForeignKey 1 ["id"] 0 := by
  have hlibrary : Sample.registry.catalog.library.PicksInRange :=
    Library.picksInRange_of_index rfl
  obtain ⟨fixture, hfixture, hlinks⟩ := Sample.exists_links_lastSession
  exact ⟨hlibrary, Sample.runs_operations, ⟨fixture, hfixture, hlinks⟩,
    Session.foreignKey_of_runs hlibrary Sample.runs_operations hfixture hlinks⟩

end Specimen
