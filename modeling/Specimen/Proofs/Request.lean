import Specimen.Proofs.Calls

/-!
# Requests

Most operations of a session are requests to one of its fixtures. The fixture serves the request
with what it holds itself, apart from the catalog and the stores that its relations find; no other
fixture changes. What an operation does to any one fixture is told here once.
-/

namespace Specimen

/-- What a fixture can be asked for. -/
inductive Request where
  | generate
  | fill (count : Nat)
  | relate
  | reseed (seed : UInt64)

/-- What a fixture answers. A relation comes with a source of its own. -/
inductive Reply where
  | generated (result : Except Halt Json)
  | filled (result : Except Halt Unit)
  | related (result : Except Error Source)
  | reseeded

/-- The number of the fixture that an operation asks for something, and what that is. -/
def Operation.asks? : Operation → Option (Nat × Request)
  | .generate number => some (number, .generate)
  | .fill number count => some (number, .fill count)
  | .relate number => some (number, .relate)
  | .reseed number seed => some (number, .reseed seed)
  | .openFixture .. | .pick .. | .copy .. => none

/-- What an operation asks the fixture of a number for. -/
def Operation.request? (number : Nat) (operation : Operation) : Option Request :=
  match operation.asks? with
  | some (asked, request) => if asked = number then some request else none
  | none => none

namespace Fixture

def serve (setting : Setting) (depth number : Nat) (fixture : Fixture) :
    Request → Reply × Fixture
  | .generate =>
    (.generated (fixture.generate setting depth).1, (fixture.generate setting depth).2)
  | .fill count =>
    (.filled (fixture.fill setting depth count).1, (fixture.fill setting depth count).2)
  | .relate =>
    (.related ((fixture.relate number).1.map Relation.source), (fixture.relate number).2)
  | .reseed seed => (.reseeded, fixture.reseed seed)

/-- The fixture of a number after an operation, which may ask it for something. -/
def after (setting : Setting) (depth number : Nat) (operation : Operation) (fixture : Fixture) :
    Fixture :=
  match operation.request? number with
  | some request => (fixture.serve setting depth number request).2
  | none => fixture

section Serve

variable {fixture : Fixture} {setting other : Setting} {depth number : Nat}
  {P : Overrides → Prop}

/-- What holds of a fixture however often it generates, whatever its source and its store are, holds
after a request. -/
theorem serve_induction (P : Fixture → Prop)
    (hstep : ∀ fixture, P fixture → P (fixture.generate setting depth).2)
    (hsource : ∀ fixture source, P fixture → P { fixture with source := source })
    (hstore : ∀ fixture store, P fixture → P { fixture with store := store }) (h : P fixture)
    (request : Request) : P (fixture.serve setting depth number request).2 := by
  cases request with
  | generate => exact hstep fixture h
  | fill count => exact fill_induction P hstep hstore h
  | reseed seed => exact hsource fixture _ h
  | relate =>
      change P (fixture.relate number).2
      rw [relate]
      split
      · exact h
      · exact hsource fixture _ h

theorem after_induction (P : Fixture → Prop) (h : P fixture) (operation : Operation)
    (hserve : ∀ request, P (fixture.serve setting depth number request).2) :
    P (fixture.after setting depth number operation) := by
  rw [after]
  split
  · exact hserve _
  · exact h

/-- The number that a fixture goes by has nothing to do with what it answers. -/
theorem serve_number (fixture : Fixture) (setting : Setting) (depth number other : Nat)
    (request : Request) :
    fixture.serve setting depth number request = fixture.serve setting depth other request := by
  cases request with
  | generate | fill | reseed => rfl
  | relate =>
      rw [serve, serve, relate, relate]
      split
      · rfl
      · rfl

theorem serve_same (halike : setting.Alike P other) (hcall : Overrides.KeptByCalls setting P)
    (h : P fixture.overrides) (request : Request) :
    fixture.serve setting depth number request = fixture.serve other depth number request ∧
      P (fixture.serve setting depth number request).2.overrides := by
  cases request with
  | generate =>
      obtain ⟨heq, hkept⟩ := generate_same halike hcall h
      exact ⟨by rw [serve, serve, heq], hkept⟩
  | fill count =>
      obtain ⟨heq, hkept⟩ := fill_same halike hcall count h
      exact ⟨by rw [serve, serve, heq], hkept⟩
  | reseed seed => exact ⟨rfl, h⟩
  | relate =>
      refine ⟨rfl, ?_⟩
      change P (fixture.relate number).2.overrides
      rw [overrides_relate]
      exact h

theorem after_same (halike : setting.Alike P other) (hcall : Overrides.KeptByCalls setting P)
    (h : P fixture.overrides) (operation : Operation) :
    fixture.after setting depth number operation = fixture.after other depth number operation ∧
      P (fixture.after setting depth number operation).overrides := by
  rw [after, after]
  split
  case h_1 request _ =>
      obtain ⟨heq, hkept⟩ := serve_same halike hcall h request
      exact ⟨by rw [heq], hkept⟩
  case h_2 => exact ⟨rfl, h⟩

theorem prefix_fill (fixture : Fixture) (setting : Setting) (depth count : Nat) :
    fixture.store.entries <+: (fixture.fill setting depth count).2.store.entries := by
  rcases fixture.store_fill setting depth count with hsame | ⟨values, last, picker, -, -, -, hgrown⟩
  · exact hsame ▸ List.prefix_refl _
  · rw [hgrown]
    exact List.prefix_append _ _

/-- Only a fill does something to the store. -/
theorem store_after (fixture : Fixture) (setting : Setting) (depth number : Nat)
    (operation : Operation) :
    (fixture.after setting depth number operation).store = fixture.store ∨
      ∃ count, fixture.after setting depth number operation =
        (fixture.fill setting depth count).2 := by
  rw [after]
  split
  case h_2 => exact .inl rfl
  case h_1 request _ =>
      cases request with
      | generate | reseed => exact .inl rfl
      | fill count => exact .inr ⟨count, rfl⟩
      | relate => exact .inl (fixture.store_relate number)

/-- A store only grows. -/
theorem prefix_after (fixture : Fixture) (setting : Setting) (depth number : Nat)
    (operation : Operation) :
    fixture.store.entries <+: (fixture.after setting depth number operation).store.entries := by
  rcases fixture.store_after setting depth number operation with hsame | ⟨count, hfill⟩
  · exact hsame ▸ List.prefix_refl _
  · rw [hfill]
    exact fixture.prefix_fill setting depth count

end Serve

end Fixture

/-! ### What an operation does to a fixture -/

namespace Session

variable {session : Session} {number : Nat} {operation : Operation}

/-- The fixture that a session opens next. -/
def opened (session : Session) (name : String) (count : Nat) (overrides : Overrides) :
    Except Halt Fixture :=
  (session.registry.openFixture session.stores session.depth session.unseeded name count
    overrides).1

/-- A fixture that opens is a new one after a fill. -/
theorem opened_eq_ok {name : String} {count : Nat} {overrides : Overrides} {fixture : Fixture}
    (h : session.opened name count overrides = .ok fixture) :
    ∃ fresh : Fixture, fresh.store = .empty ∧ fresh.overrides = overrides ∧
      fixture = (fresh.fill session.setting session.depth count).2 := by
  obtain ⟨fresh, hempty, hoverrides, hfill⟩ := Registry.openFixture_eq_ok h
  exact ⟨fresh, hempty, hoverrides, (congrArg Prod.snd hfill).symm⟩

theorem fixture?_openFixture (session : Session) (name : String) (count : Nat)
    (overrides : Overrides) (number : Nat) :
    (session.openFixture name count overrides).2.fixture? number =
      if number = session.fixtures.length then (session.opened name count overrides).toOption
      else session.fixture? number := by
  rw [openFixture_snd, fixture?_append]
  rfl

theorem fixture?_perform_of_asks {asked : Nat} {request : Request}
    (h : operation.asks? = some (asked, request)) (number : Nat) :
    (session.perform operation).fixture? number =
      if number = asked then (session.fixture? asked).map fun fixture =>
        (fixture.serve session.setting session.depth asked request).2
      else session.fixture? number := by
  cases operation with
  | generate | fill | reseed =>
      cases h
      exact fixture?_act ..
  | relate =>
      cases h
      rw [perform, relate_snd]
      exact fixture?_act ..
  | openFixture | pick | copy => cases h

theorem fixture?_perform_of_asks_none (h : operation.asks? = none)
    (hlt : number < session.fixtures.length) :
    (session.perform operation).fixture? number = session.fixture? number := by
  cases operation with
  | openFixture name count overrides =>
      rw [perform, fixture?_openFixture, if_neg (Nat.ne_of_lt hlt)]
  | pick other count =>
      obtain ⟨relations, hpick⟩ := session.pick_snd other count
      rw [perform, hpick]
      rfl
  | copy other => rfl
  | generate | fill | relate | reseed => cases h

/-- A fixture that is there already serves what it is asked for, and else stays as it is. -/
theorem fixture?_perform_of_lt (hlt : number < session.fixtures.length) (operation : Operation) :
    (session.perform operation).fixture? number = (session.fixture? number).map
      (Fixture.after session.setting session.depth number operation) := by
  have hkept (hrequest : operation.request? number = none) : (session.fixture? number).map
      (Fixture.after session.setting session.depth number operation) = session.fixture? number := by
    have hid : Fixture.after session.setting session.depth number operation = id := by
      funext fixture
      rw [Fixture.after, hrequest]
      rfl
    rw [hid, Option.map_id, id]
  cases hasks : operation.asks? with
  | none =>
      rw [fixture?_perform_of_asks_none hasks hlt, hkept (by rw [Operation.request?, hasks])]
  | some asked =>
      obtain ⟨asked, request⟩ := asked
      rw [fixture?_perform_of_asks hasks]
      by_cases heq : number = asked
      · subst heq
        have hrequest : operation.request? number = some request := by
          simp [Operation.request?, hasks]
        have hafter : Fixture.after session.setting session.depth number operation = fun fixture =>
            (fixture.serve session.setting session.depth number request).2 := by
          funext fixture
          rw [Fixture.after, hrequest]
        rw [if_pos rfl, hafter]
      · rw [if_neg heq, hkept (by simp [Operation.request?, hasks, Ne.symm heq])]

theorem length_act {α : Type} (session : Session) (number : Nat)
    (action : Fixture → α × Fixture) :
    (session.act number action).2.fixtures.length = session.fixtures.length := by
  cases h : session.fixture? number with
  | none => rw [act_of_none h]
  | some fixture =>
      rw [act_of_some h]
      exact List.length_set

theorem length_openFixture (session : Session) (name : String) (count : Nat)
    (overrides : Overrides) :
    (session.openFixture name count overrides).2.fixtures.length = session.fixtures.length + 1 := by
  rw [openFixture_snd]
  exact List.length_append

theorem length_perform
    (hopen : ∀ name count overrides, operation ≠ .openFixture name count overrides) :
    (session.perform operation).fixtures.length = session.fixtures.length := by
  cases operation with
  | openFixture name count overrides => exact absurd rfl (hopen name count overrides)
  | generate | fill | reseed => exact length_act ..
  | relate =>
      rw [perform, relate_snd]
      exact length_act ..
  | pick other count =>
      obtain ⟨relations, hpick⟩ := session.pick_snd other count
      rw [perform, hpick]
  | copy => rfl

theorem length_le_perform (session : Session) (operation : Operation) :
    session.fixtures.length ≤ (session.perform operation).fixtures.length := by
  cases operation with
  | openFixture name count overrides =>
      rw [perform, length_openFixture]
      exact Nat.le_succ _
  | generate | fill | relate | reseed | pick | copy =>
      exact Nat.le_of_eq (length_perform (by simp)).symm

/-- A fixture after an operation was there before and did what it was asked for, or has just been
opened. -/
theorem fixture?_perform {fixture : Fixture}
    (h : (session.perform operation).fixture? number = some fixture) :
    (∃ old, session.fixture? number = some old ∧
        fixture = old.after session.setting session.depth number operation) ∨
      ∃ name count overrides, operation = .openFixture name count overrides ∧
        number = session.fixtures.length ∧ session.opened name count overrides = .ok fixture := by
  by_cases hlt : number < session.fixtures.length
  · rw [fixture?_perform_of_lt hlt, Option.map_eq_some_iff] at h
    obtain ⟨old, hold, rfl⟩ := h
    exact .inl ⟨old, hold, rfl⟩
  · cases operation with
    | openFixture name count overrides =>
        right
        rw [perform, fixture?_openFixture] at h
        by_cases heq : number = session.fixtures.length
        · rw [if_pos heq, Outcome.toOption_eq_some] at h
          exact ⟨name, count, overrides, rfl, heq, h⟩
        · rw [if_neg heq] at h
          exact absurd (lt_length_of_fixture? h) hlt
    | generate | fill | relate | reseed | pick | copy =>
        have hthere := lt_length_of_fixture? h
        rw [length_perform (by simp)] at hthere
        exact absurd hthere hlt

/-- What the fixture of a number answers to an operation that asks it for something. -/
def reply? (session : Session) (number : Nat) : Operation → Option Reply
  | .generate asked =>
    if asked = number then (session.generate asked).1.map .generated else none
  | .fill asked count =>
    if asked = number then (session.fill asked count).1.map .filled else none
  | .relate asked =>
    if asked = number then
      (session.act asked fun fixture => fixture.relate asked).1.map fun result =>
        .related (result.map Relation.source)
    else none
  | .reseed asked seed =>
    if asked = number then (session.reseed asked seed).1.map fun _ => .reseeded else none
  | .openFixture .. | .pick .. | .copy .. => none

/-- The answers of one fixture in the course of operations. -/
def replies (session : Session) (number : Nat) : List Operation → List Reply
  | [] => []
  | operation :: operations =>
    (session.reply? number operation).toList ++
      (session.perform operation).replies number operations

theorem act_fst {α : Type} (session : Session) (number : Nat)
    (action : Fixture → α × Fixture) :
    (session.act number action).1 =
      (session.fixture? number).map fun fixture => (action fixture).1 := by
  cases h : session.fixture? number with
  | none => rw [act_of_none h, Option.map_none]
  | some fixture => rw [act_of_some h, Option.map_some]

theorem reply?_eq (session : Session) (number : Nat) (operation : Operation) :
    session.reply? number operation = (operation.request? number).bind fun request =>
      (session.fixture? number).map fun fixture =>
        (fixture.serve session.setting session.depth number request).1 := by
  cases operation with
  | openFixture | pick | copy => rfl
  | generate asked | fill asked count | relate asked | reseed asked seed =>
      simp only [reply?, Operation.request?, Operation.asks?, generate, fill, reseed, act_fst,
        Option.map_map]
      by_cases heq : asked = number
      · subst heq
        rw [if_pos rfl, if_pos rfl]
        rfl
      · rw [if_neg heq, if_neg heq]
        rfl

/-- What calls keep of the overrides of all fixtures is kept by every operation, if the overrides of
a fixture that is opened have it. -/
theorem overrides_perform {P : Overrides → Prop}
    (hcall : Overrides.KeptByCalls session.setting P)
    (hopen : ∀ name count overrides, operation = .openFixture name count overrides → P overrides)
    (hheld : ∀ number fixture, session.fixture? number = some fixture → P fixture.overrides)
    {fixture : Fixture} (h : (session.perform operation).fixture? number = some fixture) :
    P fixture.overrides := by
  rcases fixture?_perform h with ⟨old, hold, rfl⟩ | ⟨name, count, overrides, hoperation, -, hopened⟩
  · exact (old.after_same (session.setting.alike_self P) hcall (hheld number old hold) operation).2
  · obtain ⟨fresh, -, rfl, rfl⟩ := opened_eq_ok hopened
    have hstart : P fresh.overrides := hopen name count _ hoperation
    exact (Fixture.fill_same (session.setting.alike_self P) hcall count hstart).2

end Session

end Specimen
