import Mathlib.Data.Nat.ModEq
import Mathlib.Logic.Function.Basic
import Specimen.Proofs.Isolation
import Specimen.Proofs.Registration

/-!
# Seeds of fixtures

The seed of a fixture is mixed from the seed of its registry, the name of its schema and the number
of fixtures opened before it. With the other two kept, the mixing can be undone, since its factor is
odd. The number counts modulo 2 ^ 64, so two fixtures of one name start from the same seed only if
their places in the life of the registry differ by a multiple of that.
-/

namespace Specimen

namespace Registry

/-! ### Mixing -/

/-- What undoes a multiplication by the factor of `mixSeed`. -/
def unmixFactor : UInt64 := 0xF1DE83E19937733D

theorem mul_unmixFactor (number : UInt64) :
    number * 0x9E3779B97F4A7C15 * unmixFactor = number := by
  have hunit : (0x9E3779B97F4A7C15 : UInt64) * unmixFactor = 1 := by decide
  rw [UInt64.mul_assoc, hunit, UInt64.mul_one]

theorem mixSeed_injective (seed : UInt64) (name : String) :
    Function.Injective (mixSeed seed name) := by
  intro number other h
  rw [mixSeed, mixSeed, UInt64.xor_right_inj, UInt64.add_right_inj] at h
  have hfactor := congrArg (· * unmixFactor) h
  rwa [mul_unmixFactor, mul_unmixFactor] at hfactor

theorem mixSeed_injective_seed (name : String) (number : UInt64) :
    Function.Injective fun seed => mixSeed seed name number := by
  intro seed other h
  exact (UInt64.xor_left_inj _).mp h

/-! ### The life of a registry -/

/-- What a registry is asked for. A fixture is opened among the stores of others. -/
inductive Call where
  | register (name : String) (schema : Json)
  | openFixture (stores : Stores) (depth : Nat) (unseeded : Source) (name : String) (count : Nat)
      (overrides : Overrides)

def after (registry : Registry) : Call → Registry
  | .register name schema => (registry.register name schema).2
  | .openFixture stores depth unseeded name count overrides =>
    (registry.openFixture stores depth unseeded name count overrides).2

/-- A fixture as it is before its store is filled, with the seed of its source. -/
structure Start where
  fixture : Fixture
  seed : UInt64
  source : fixture.source = Source.ofSeed seed

/-- The next fixture of a name before its store is filled, if there are a schema of that name and a
seed to start from. -/
def nextStart? (registry : Registry) (name : String) (overrides : Overrides) : Option Start :=
  match registry.generator? name, registry.catalog.get? name, registry.seed with
  | some generator, some schema, some seed =>
    let mixed := mixSeed seed name registry.opened
    some ⟨⟨name, generator, schema, overrides, Source.ofSeed mixed, Store.empty⟩, mixed, rfl⟩
  | _, _, _ => none

def start? (registry : Registry) : Call → Option Start
  | .register .. => none
  | .openFixture _ _ _ name _ overrides => registry.nextStart? name overrides

/-- The fixtures that start in the course of calls, those that cannot be filled among them. -/
def starts (registry : Registry) : List Call → List Start
  | [] => []
  | call :: calls => (registry.start? call).toList ++ (registry.after call).starts calls

section

variable {registry : Registry} {seed : UInt64} {stores : Stores} {depth count : Nat}
  {unseeded : Source} {name : String} {overrides : Overrides} {start : Start}

theorem nextStart?_eq_some (hseed : registry.seed = some seed)
    (h : registry.nextStart? name overrides = some start) :
    start.fixture.name = name ∧ start.seed = mixSeed seed name registry.opened := by
  rw [nextStart?, hseed] at h
  split at h
  case h_1 _ _ mixed _ _ hmixed =>
      cases hmixed
      cases h
      exact ⟨rfl, rfl⟩
  case h_2 => cases h

/-- With a seed, what opens is the start after a fill, and it counts whether the fill succeeds or
not. -/
theorem openFixture_of_start (h : registry.nextStart? name overrides = some start) :
    registry.openFixture stores depth unseeded name count overrides =
      ((start.fixture.fill ⟨registry.catalog, stores⟩ depth count).1.map fun _ =>
          (start.fixture.fill ⟨registry.catalog, stores⟩ depth count).2,
        { registry with opened := registry.opened + 1 }) := by
  rw [nextStart?] at h
  split at h
  case h_2 => cases h
  case h_1 generator schema seed hgenerator hschema hseed =>
      cases h
      rw [openFixture, hgenerator, hschema]
      dsimp only
      rw [nextSource, hseed]
      dsimp only
      split
      case h_1 hfill =>
          rw [hfill]
          rfl
      case h_2 hfill =>
          rw [hfill]
          rfl

/-- With a seed, only what is not registered does not start. -/
theorem openFixture_of_start_eq_none (hseed : registry.seed = some seed)
    (h : registry.nextStart? name overrides = none) :
    registry.openFixture stores depth unseeded name count overrides =
      (.error (.error (.unregistered name)), registry) := by
  rw [nextStart?, hseed] at h
  rw [openFixture]
  split
  case h_2 => rfl
  case h_1 generator schema hgenerator hschema =>
      rw [hgenerator, hschema] at h
      cases h

theorem seed_after (registry : Registry) (call : Call) :
    (registry.after call).seed = registry.seed := by
  cases call with
  | register name schema =>
      obtain ⟨schemas, compiled, hregister⟩ := registry.register_snd name schema
      rw [after, hregister]
  | openFixture stores depth unseeded name count overrides =>
      rw [after, openFixture_snd]

theorem add_ofNat_succ (number : UInt64) (place : Nat) :
    number + UInt64.ofNat (place + 1) = number + 1 + UInt64.ofNat place := by
  have hone : UInt64.ofNat 1 = 1 := rfl
  rw [Nat.add_comm, UInt64.ofNat_add, hone, UInt64.add_assoc]

/-- The fixture that starts after so many others has its seed from that number. -/
theorem seed_of_starts (hseed : registry.seed = some seed) {calls : List Call} {place : Nat}
    (h : (registry.starts calls)[place]? = some start) :
    start.seed = mixSeed seed start.fixture.name (registry.opened + UInt64.ofNat place) := by
  -- A call that starts no fixture leaves the number of those opened as it is; one that does moves
  -- both the number and the place on by one, so their sum stays.
  induction calls generalizing registry place with
  | nil => cases h
  | cons call calls ih =>
      have hnext : (registry.after call).seed = some seed := by rw [seed_after, hseed]
      rw [starts] at h
      cases call with
      | register name schema =>
          obtain ⟨schemas, compiled, hregister⟩ := registry.register_snd name schema
          have hopened : (registry.after (.register name schema)).opened = registry.opened := by
            rw [after, hregister]
          rw [← hopened]
          exact ih hnext h
      | openFixture stores depth unseeded name count overrides =>
          rw [start?] at h
          cases hstart : registry.nextStart? name overrides with
          | none =>
              rw [hstart, after, openFixture_of_start_eq_none hseed hstart] at h
              exact ih hseed h
          | some first =>
              rw [hstart, after, openFixture_of_start hstart] at h
              cases place with
              | zero =>
                  cases h
                  obtain ⟨hname, hmixed⟩ := nextStart?_eq_some hseed hstart
                  have hfirst : UInt64.ofNat 0 = 0 := rfl
                  rw [hname, hmixed, hfirst, UInt64.add_zero]
              | succ place =>
                  rw [add_ofNat_succ]
                  have hkept : ({ registry with opened := registry.opened + 1 } : Registry).seed =
                      some seed := hseed
                  exact ih hkept h

theorem ofNat_eq_ofNat_iff {place other : Nat} :
    UInt64.ofNat place = UInt64.ofNat other ↔ place ≡ other [MOD 2 ^ 64] := by
  rw [← UInt64.toNat_inj, UInt64.toNat_ofNat', UInt64.toNat_ofNat', Nat.ModEq]

/-- What a registry that has a seed makes of it. -/
structure SeedsApart (registry : Registry) : Prop where
  /-- Every fixture that opens is a start after a fill. -/
  started : ∀ {stores : Stores} {depth count : Nat} {unseeded : Source} {name : String}
    {overrides : Overrides} {fixture : Fixture},
    (registry.openFixture stores depth unseeded name count overrides).1 = .ok fixture →
      ∃ start, registry.start? (.openFixture stores depth unseeded name count overrides) =
          some start ∧
        start.fixture.fill ⟨registry.catalog, stores⟩ depth count = (.ok (), fixture)
  /-- Among the starts of one name, the seed tells the place, as far as 64 bits can. -/
  apart : ∀ {calls : List Call} {place other : Nat} {left right : Start},
    (registry.starts calls)[place]? = some left → (registry.starts calls)[other]? = some right →
      left.fixture.name = right.fixture.name →
        (left.seed = right.seed ↔ place ≡ other [MOD 2 ^ 64])

theorem seedsApart (hseed : registry.seed = some seed) : registry.SeedsApart where
  started := by
    intro stores depth count unseeded name overrides fixture h
    cases hstart : registry.nextStart? name overrides with
    | none =>
        rw [openFixture_of_start_eq_none hseed hstart] at h
        cases h
    | some start =>
        rw [openFixture_of_start hstart] at h
        refine ⟨start, hstart, ?_⟩
        rcases hfill : start.fixture.fill ⟨registry.catalog, stores⟩ depth count with
          ⟨halt | filled, after⟩
        · rw [hfill] at h
          cases h
        · rw [hfill] at h
          cases h
          rfl
  apart := by
    intro calls place other left right hleft hright hname
    rw [seed_of_starts hseed hleft, seed_of_starts hseed hright, hname,
      (mixSeed_injective seed _).eq_iff, UInt64.add_right_inj, ofNat_eq_ofNat_iff]

end

/-- Seeds do not collide. Mixing is injective in the number of a fixture and in the seed of the
registry. So two fixtures that one registry with a seed starts under the same name have the same
seed only if the number of fixtures opened has come round to the same 64 bits in between. -/
theorem mixSeed_separates :
    (∀ seed name, Function.Injective (mixSeed seed name)) ∧
      (∀ name number, Function.Injective fun seed => mixSeed seed name number) ∧
        ∀ {registry : Registry} {seed : UInt64}, registry.seed = some seed →
          registry.SeedsApart :=
  ⟨mixSeed_injective, mixSeed_injective_seed, seedsApart⟩

end Registry

namespace Sample

/-- Calls that open two fixtures of one name, with one in between that is not registered. -/
def openings : List Registry.Call :=
  [.openFixture (fun _ => .empty) 4 (.mixed [7] 0) "row" 1 .empty,
    .openFixture (fun _ => .empty) 4 (.mixed [7] 0) "column" 1 .empty,
    .openFixture (fun _ => .empty) 4 (.mixed [7] 0) "row" 0 counted]

end Sample

theorem mixSeed_separates_openings :
    Sample.seeded.seed = some 7 ∧ ∃ left right,
      (Sample.seeded.starts Sample.openings)[0]? = some left ∧
        (Sample.seeded.starts Sample.openings)[1]? = some right ∧
          left.fixture.name = right.fixture.name ∧ left.seed ≠ right.seed := by
  have hseed : Sample.seeded.seed = some 7 := rfl
  have hapart : Sample.seeded.SeedsApart := Registry.mixSeed_separates.2.2 hseed
  obtain ⟨left, hleft⟩ : ∃ left, (Sample.seeded.starts Sample.openings)[0]? = some left := ⟨_, rfl⟩
  obtain ⟨right, hright⟩ : ∃ right, (Sample.seeded.starts Sample.openings)[1]? = some right :=
    ⟨_, rfl⟩
  have hname : left.fixture.name = right.fixture.name := by
    cases hleft
    cases hright
    rfl
  refine ⟨hseed, left, right, hleft, hright, hname, ?_⟩
  intro hsame
  exact absurd ((hapart.apart hleft hright hname).mp hsame) (by decide)

end Specimen
