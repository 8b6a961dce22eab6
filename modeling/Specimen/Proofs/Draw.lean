import Specimen.Proofs.Run

/-!
# What draws give

A search gives what it accepts or its fallback, so a draw below a range stays below it, and a list
is filled to a length between its bounds.
-/

namespace Specimen

namespace Draw

section Search

variable {α : Type} {word : Draw Nat} {accept : Nat → Option α} {fallback : α} {attempts : Nat}
  {s : Source}

theorem search_of_some {value : α} (h : accept (word s).1 = some value) :
    search word accept fallback (attempts + 1) s = (value, (word s).2) := by
  rcases hword : word s with ⟨n, t⟩
  rw [hword] at h
  simp only [search, bind, StateT.bind, hword, h]
  rfl

theorem search_of_none (h : accept (word s).1 = none) :
    search word accept fallback (attempts + 1) s =
      search word accept fallback attempts (word s).2 := by
  rcases hword : word s with ⟨n, t⟩
  rw [hword] at h
  simp only [search, bind, StateT.bind, hword, h]

theorem search_spec (P : α → Prop) (hfallback : P fallback)
    (haccept : ∀ s value, accept (word s).1 = some value → P value) (attempts : Nat) (s : Source) :
    P (search word accept fallback attempts s).1 := by
  induction attempts generalizing s with
  | zero => exact hfallback
  | succ attempts ih =>
      cases h : accept (word s).1 with
      | some value =>
          rw [search_of_some h]
          exact haccept s value h
      | none =>
          rw [search_of_none h]
          exact ih (word s).2

end Search

theorem word64_lt (s : Source) : (word64 s).1 < Nat.pow 2 64 :=
  UInt64.toNat_lt_size _

theorem word32_lt (s : Source) : (word32 s).1 < Nat.pow 2 32 :=
  UInt32.toNat_lt_size _

theorem lt_of_scale {width range word n : Nat} (hrange : 0 < range)
    (hword : word < Nat.pow 2 width) (h : scale width range word = some n) : n < range := by
  simp only [scale] at h
  split at h
  · simp only [Option.some.injEq] at h
    have hproduct : word * range < Nat.pow 2 width * range :=
      Nat.mul_lt_mul_of_pos_right hword hrange
    rw [← h]
    exact Nat.div_lt_of_lt_mul hproduct
  · simp at h

theorem below64_lt {range : Nat} (h : 0 < range) (s : Source) : (below64 range s).1 < range :=
  search_spec (· < range) h (fun s _ hscale => lt_of_scale h (word64_lt s) hscale) _ s

theorem below32_lt {range : Nat} (h : 0 < range) (s : Source) : (below32 range s).1 < range :=
  search_spec (· < range) h (fun s _ hscale => lt_of_scale h (word32_lt s) hscale) _ s

theorem natBetween_mem {low high : Nat} (h : low ≤ high) (s : Source) :
    low ≤ (natBetween low high s).1 ∧ (natBetween low high s).1 ≤ high := by
  have hlt : (below64 (high - low + 1) s).1 < high - low + 1 := below64_lt (Nat.succ_pos _) s
  change low ≤ low + (below64 (high - low + 1) s).1 ∧ low + (below64 (high - low + 1) s).1 ≤ high
  omega

end Draw

namespace Lengths

variable {α ε : Type}

/-- As many items as asked for, each from a run of its own. -/
theorem items_eq_ok {item : Nat → ExceptT ε Draw α} {place count : Nat} {s u : Source}
    {values : List α} (h : items item place count s = (.ok values, u)) :
    values.length = count ∧ ∀ value ∈ values, ∃ place t w, item place t = (.ok value, w) := by
  induction count generalizing place values s u with
  | zero =>
      obtain ⟨rfl, -⟩ := Run.pure_eq_ok.mp h
      simp
  | succ count ih =>
      obtain ⟨first, t, hfirst, hrest⟩ := Run.bind_eq_ok.mp h
      obtain ⟨rest, w, hitems, hvalues⟩ := Run.bind_eq_ok.mp hrest
      obtain ⟨rfl, -⟩ := Run.pure_eq_ok.mp hvalues
      obtain ⟨hlength, hmem⟩ := ih hitems
      refine ⟨by rw [List.length_cons, hlength], ?_⟩
      intro value hvalue
      rcases List.mem_cons.mp hvalue with rfl | hvalue
      · exact ⟨place, s, t, hfirst⟩
      · exact hmem value hvalue

theorem contains_draw (lengths : Lengths) (s : Source) :
    lengths.contains (lengths.draw s).1 = true := by
  obtain ⟨hleast, hgreatest⟩ := Draw.natBetween_mem lengths.min_le_max s
  rw [contains, Bool.and_eq_true, decide_eq_true_eq, decide_eq_true_eq]
  exact ⟨hleast, hgreatest⟩

section Reserve

variable {lengths : Lengths} {room count : Nat} {e : Overflow} {s t : Source}

theorem reserve_eq_ok :
    lengths.reserve room s = (.ok count, t) ↔ lengths.draw s = (count, t) ∧ count ≤ room := by
  rw [reserve, Run.bind_eq_ok]
  constructor
  · rintro ⟨drawn, u, hdraw, hcount⟩
    split at hcount
    case isTrue => exact absurd hcount Run.throw_ne_ok
    case isFalse hroom =>
      obtain ⟨rfl, rfl⟩ := Run.pure_eq_ok.mp hcount
      exact ⟨Run.lift_eq_ok.mp hdraw, Nat.le_of_not_lt hroom⟩
  · rintro ⟨hdraw, hroom⟩
    refine ⟨count, t, Run.lift_eq_ok.mpr hdraw, ?_⟩
    rw [if_neg (Nat.not_lt.mpr hroom)]
    exact Run.pure_eq_ok.mpr ⟨rfl, rfl⟩

theorem reserve_eq_error :
    lengths.reserve room s = (.error e, t) ↔ lengths.draw s = (e.places, t) ∧ room < e.places := by
  rw [reserve, Run.bind_eq_error, or_iff_right Run.lift_ne_error]
  constructor
  · rintro ⟨drawn, u, hdraw, hcount⟩
    split at hcount
    case isTrue hroom =>
      obtain ⟨rfl, rfl⟩ := Run.throw_eq_error.mp hcount
      exact ⟨Run.lift_eq_ok.mp hdraw, hroom⟩
    case isFalse => exact absurd hcount Run.pure_ne_error
  · rintro ⟨hdraw, hroom⟩
    refine ⟨e.places, t, Run.lift_eq_ok.mpr hdraw, ?_⟩
    rw [if_pos hroom]
    exact Run.throw_eq_error.mpr ⟨rfl, rfl⟩

end Reserve

theorem fill_eq_ok {lengths : Lengths} {room : Nat} {overflow : Overflow → ε}
    {item : Nat → ExceptT ε Draw α} {s u : Source} {values : List α}
    (h : lengths.fill room overflow item s = (.ok values, u)) :
    lengths.contains values.length = true ∧
      ∀ value ∈ values, ∃ place t w, item place t = (.ok value, w) := by
  obtain ⟨count, t, hcount, hitems⟩ := Run.bind_eq_ok.mp h
  obtain ⟨hlength, hmem⟩ := items_eq_ok hitems
  have hdraw := (reserve_eq_ok.mp (Run.adapt_eq_ok.mp hcount)).1
  have hinside := lengths.contains_draw s
  rw [hdraw] at hinside
  exact ⟨hlength ▸ hinside, hmem⟩

end Lengths

end Specimen
