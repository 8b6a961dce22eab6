import Specimen.Proofs.Emission

/-!
# How long texts and lists are

The lengths of a text and those of a list come from two optional bounds. They exist exactly unless
both bounds are written and cross, and then each bound that is written is an end of them, so that
every text drawn and every list filled meets it. A list is filled by one call for each of its places,
in order, each call starting in the source that the call before it left; the first call that fails
ends the fill.
-/

namespace Specimen

/-! ### Characters -/

namespace Draw

theorem isAlphanum_alphanumeric (s : Source) : (alphanumeric s).1.isAlphanum = true := by
  have hcapital : ∀ i < 26, (Char.ofNat (65 + i)).isAlphanum = true := by decide
  have hsmall : ∀ i < 26, (Char.ofNat (97 + i)).isAlphanum = true := by decide
  have hdigit : ∀ i < 10, (Char.ofNat (48 + i)).isAlphanum = true := by decide
  refine search_spec (Char.isAlphanum · = true) (by decide) ?_ _ s
  intro s char haccept
  dsimp only at haccept
  generalize (word32 s).1 / 0x4000000 = i at haccept
  split_ifs at haccept <;> cases haccept
  · exact hcapital i (by omega)
  · exact hsmall (i - 26) (by omega)
  · exact hdigit (i - 52) (by omega)

end Draw

namespace Lengths

theorem validate_textLeaf (lengths : Lengths) (text : String) :
    lengths.textLeaf.validate (.str text) = some (lengths.contains text.toList.length) :=
  rfl

/-- Where there is room for the length that is drawn, a text of that length is drawn with it. -/
theorem exists_generate_textLeaf {lengths : Lengths} {s : Source}
    (h : (lengths.draw s).1 ≤ Buffer.room 1) : ∃ text t,
      lengths.textLeaf.generate s = (.ok (.str text), t) ∧
      text.toList.length = (lengths.draw s).1 ∧ ∀ char ∈ text.toList, char.isAlphanum = true := by
  rcases hdraw : lengths.draw s with ⟨count, t⟩
  rw [hdraw] at h
  refine ⟨String.ofList (Draw.times Draw.alphanumeric count t).1,
    (Draw.times Draw.alphanumeric count t).2, ?_, ?_, ?_⟩
  · refine Run.bind_eq_ok.mpr ⟨count, t, reserve_eq_ok.mpr ⟨hdraw, h⟩, ?_⟩
    exact Run.bind_eq_ok.mpr ⟨_, _, Run.lift_eq_ok.mpr rfl, Run.pure_eq_ok.mpr ⟨rfl, rfl⟩⟩
  · rw [String.toList_ofList, Draw.length_times]
  · rw [String.toList_ofList]
    exact Draw.forall_mem_times Draw.isAlphanum_alphanumeric _ _

/-- A text fails only for want of room, and then nothing is drawn but its length. -/
theorem generate_textLeaf_eq_error_iff {lengths : Lengths} {s t : Source} {e : Overflow} :
    lengths.textLeaf.generate s = (.error e, t) ↔
      lengths.draw s = (e.places, t) ∧ Buffer.room 1 < e.places := by
  rw [← reserve_eq_error]
  change ((lengths.reserve (Buffer.room 1) >>= _ : ExceptT Overflow Draw Json) s = _) ↔ _
  rw [Run.bind_eq_error, or_iff_left]
  rintro ⟨count, u, -, h⟩
  rcases Run.bind_eq_error.mp h with h | ⟨_, _, -, h⟩
  · exact Run.lift_ne_error h
  · exact Run.pure_ne_error h

/-! ### The lengths that bounds mean -/

/-- Both bounds are written, and no length is between them. -/
def Crossed (min max : Option Nat) : Prop :=
  ∃ least greatest, min = some least ∧ max = some greatest ∧ greatest < least

/-- A length keeps the bounds that are written. -/
structure Keeps (min max : Option Nat) (n : Nat) : Prop where
  least : ∀ least, min = some least → least ≤ n
  greatest : ∀ greatest, max = some greatest → n ≤ greatest

/-- Lengths that end at the bounds that are written. -/
structure EndAt (lengths : Lengths) (min max : Option Nat) : Prop where
  least : ∀ least, min = some least → lengths.min = least
  greatest : ∀ greatest, max = some greatest → lengths.max = greatest

section Bounds

variable {c : Constraints} {lengths : Lengths} {min max : Option Nat} {n : Nat}

theorem EndAt.keeps (h : lengths.EndAt min max) (hn : lengths.contains n = true) :
    Keeps min max n := by
  simp only [contains, Bool.and_eq_true, decide_eq_true_eq] at hn
  refine ⟨fun least hmin => ?_, fun greatest hmax => ?_⟩
  · rw [← h.least least hmin]
    exact hn.1
  · rw [← h.greatest greatest hmax]
    exact hn.2

theorem EndAt.not_crossed (h : lengths.EndAt min max) : ¬ Crossed min max := by
  rintro ⟨least, greatest, hmin, hmax, hlt⟩
  rw [← h.least least hmin, ← h.greatest greatest hmax] at hlt
  exact Nat.not_lt.mpr lengths.min_le_max hlt

theorem endAt_of_ofText (h : ofText c = .ok lengths) : lengths.EndAt c.minLength c.maxLength := by
  rcases hmin : c.minLength with _ | least <;> rcases hmax : c.maxLength with _ | greatest <;>
    simp only [ofText, hmin, hmax] at h <;> split_ifs at h <;> cases h <;>
    exact ⟨by simp, by simp⟩

theorem endAt_of_ofList (h : ofList c = .ok lengths) : lengths.EndAt c.minItems c.maxItems := by
  simp only [ofList, forList] at h
  split_ifs at h
  cases h
  exact ⟨fun least hmin => by simp [hmin], fun greatest hmax => by simp [hmax]⟩

/-- A side that is not written never lets the bounds cross, so what is refused are the bounds as they
are written. -/
theorem ofText_eq_error_iff {e : PrimitiveError} : ofText c = .error e ↔
    ∃ least greatest, c.minLength = some least ∧ c.maxLength = some greatest ∧ greatest < least ∧
      .emptyRange (.textLengths least greatest) = e := by
  rcases hmin : c.minLength with _ | least <;> rcases hmax : c.maxLength with _ | greatest <;>
    simp only [ofText, hmin, hmax] <;> split_ifs <;> simp_all

theorem ofList_eq_error_iff {e : PrimitiveError} : ofList c = .error e ↔
    ∃ least greatest, c.minItems = some least ∧ c.maxItems = some greatest ∧ greatest < least ∧
      .emptyRange (.listLengths least greatest) = e := by
  rcases hmin : c.minItems with _ | least <;> rcases hmax : c.maxItems with _ | greatest <;>
    simp only [ofList, forList, hmin, hmax] <;> split_ifs <;> simp_all

theorem not_crossed_text_iff :
    ¬ Crossed c.minLength c.maxLength ↔ ∃ lengths, ofText c = .ok lengths := by
  constructor
  · intro h
    cases hbuilt : ofText c with
    | ok lengths => exact ⟨lengths, rfl⟩
    | error e =>
        obtain ⟨least, greatest, hmin, hmax, hlt, -⟩ := ofText_eq_error_iff.mp hbuilt
        exact absurd ⟨least, greatest, hmin, hmax, hlt⟩ h
  · rintro ⟨lengths, hbuilt⟩
    exact (endAt_of_ofText hbuilt).not_crossed

theorem not_crossed_list_iff :
    ¬ Crossed c.minItems c.maxItems ↔ ∃ lengths, ofList c = .ok lengths := by
  constructor
  · intro h
    cases hbuilt : ofList c with
    | ok lengths => exact ⟨lengths, rfl⟩
    | error e =>
        obtain ⟨least, greatest, hmin, hmax, hlt, -⟩ := ofList_eq_error_iff.mp hbuilt
        exact absurd ⟨least, greatest, hmin, hmax, hlt⟩ h
  · rintro ⟨lengths, hbuilt⟩
    exact (endAt_of_ofList hbuilt).not_crossed

end Bounds

/-! ### Filling a list -/

section Fill

variable {α ε : Type} {lengths : Lengths} {room : Nat} {overflow : Overflow → ε}
  {item : Nat → ExceptT ε Draw α} {place count : Nat} {s u : Source} {values : List α} {e : ε}

/-- The items are those of successive calls, one for each place. -/
theorem items_eq_ok_iff : items item place count s = (.ok values, u) ↔
    values.length = count ∧ Run.Steps item (List.range' place count) s values u := by
  induction count generalizing place s values with
  | zero =>
      rw [items, Run.pure_eq_ok]
      constructor
      · rintro ⟨rfl, rfl⟩
        exact ⟨rfl, .nil⟩
      · rintro ⟨-, ⟨⟩⟩
        exact ⟨rfl, rfl⟩
  | succ count ih =>
      simp only [items, Run.bind_eq_ok, Run.pure_eq_ok, List.range'_succ]
      constructor
      · rintro ⟨first, t, hfirst, rest, w, hitems, rfl, rfl⟩
        obtain ⟨rfl, hrest⟩ := ih.mp hitems
        exact ⟨rfl, .cons hfirst hrest⟩
      · rintro ⟨hlength, hsteps⟩
        cases hsteps with
        | cons hfirst hrest =>
            exact ⟨_, _, hfirst, _, _, ih.mpr ⟨Nat.succ.inj hlength, hrest⟩, rfl, rfl⟩

/-- The items fail with the failure of one call, all calls before it having succeeded. -/
theorem items_eq_error_iff : items item place count s = (.error e, u) ↔
    ∃ done < count, ∃ before t, Run.Steps item (List.range' place done) s before t ∧
      item (place + done) t = (.error e, u) := by
  induction count generalizing place s with
  | zero =>
      rw [items, iff_false_left Run.pure_ne_error]
      rintro ⟨done, hlt, -⟩
      exact Nat.not_lt_zero done hlt
  | succ count ih =>
      simp only [items, Run.bind_eq_error, Run.pure_ne_error, and_false, exists_false, or_false]
      constructor
      · rintro (hfail | ⟨first, t, hfirst, hrest⟩)
        · exact ⟨0, Nat.succ_pos count, [], s, .nil, hfail⟩
        · obtain ⟨done, hlt, before, v, hsteps, hfail⟩ := ih.mp hrest
          refine ⟨done + 1, Nat.succ_lt_succ hlt, first :: before, v, .cons hfirst hsteps, ?_⟩
          rwa [← Nat.add_assoc, Nat.add_right_comm]
      · rintro ⟨_ | done, hlt, before, v, hsteps, hfail⟩
        · cases hsteps
          exact .inl hfail
        · cases hsteps with
          | cons hfirst hrest =>
              rw [← Nat.add_assoc, Nat.add_right_comm] at hfail
              exact .inr ⟨_, _, hfirst,
                ih.mpr ⟨done, Nat.lt_of_succ_lt_succ hlt, _, v, hrest, hfail⟩⟩

/-- A list is filled by one call for each place below the length that is drawn, which there must be
room for. -/
theorem fill_eq_ok_iff : lengths.fill room overflow item s = (.ok values, u) ↔
    ∃ t, lengths.draw s = (values.length, t) ∧ values.length ≤ room ∧
      Run.Steps item (List.range values.length) t values u := by
  rw [fill, Run.bind_eq_ok]
  simp only [Run.adapt_eq_ok, reserve_eq_ok, items_eq_ok_iff, ← List.range_eq_range']
  constructor
  · rintro ⟨count, t, ⟨hdraw, hroom⟩, rfl, hsteps⟩
    exact ⟨t, hdraw, hroom, hsteps⟩
  · rintro ⟨t, hdraw, hroom, hsteps⟩
    exact ⟨_, t, ⟨hdraw, hroom⟩, rfl, hsteps⟩

/-- A fill fails where there is no room for the length that is drawn, or else with the failure of the
call for one place below it. -/
theorem fill_eq_error_iff : lengths.fill room overflow item s = (.error e, u) ↔
    (∃ count, lengths.draw s = (count, u) ∧ room < count ∧ overflow ⟨count⟩ = e) ∨
      ∃ count t, lengths.draw s = (count, t) ∧ count ≤ room ∧ ∃ done < count, ∃ before w,
        Run.Steps item (List.range done) t before w ∧ item done w = (.error e, u) := by
  rw [fill, Run.bind_eq_error]
  simp only [Run.adapt_eq_error, Run.adapt_eq_ok, reserve_eq_error, reserve_eq_ok,
    items_eq_error_iff, ← List.range_eq_range', Nat.zero_add, and_assoc]
  refine or_congr ⟨?_, ?_⟩ Iff.rfl
  · rintro ⟨⟨count⟩, hdraw, hroom, rfl⟩
    exact ⟨count, hdraw, hroom, rfl⟩
  · rintro ⟨count, hdraw, hroom, rfl⟩
    exact ⟨⟨count⟩, hdraw, hroom, rfl⟩

end Fill

/-- Lengths exist unless both bounds are written and cross. What is drawn with them meets the bounds
that are written, unless the length drawn is one that no buffer has room for: that ends a text before
its first character and a fill before its first call. Otherwise a fill makes its calls in order until
one fails. -/
theorem length_policies (c : Constraints) :
    (¬ Crossed c.minLength c.maxLength ↔ ∃ lengths, ofText c = .ok lengths) ∧
    (¬ Crossed c.minItems c.maxItems ↔ ∃ lengths, ofList c = .ok lengths) ∧
    (∀ lengths, ofText c = .ok lengths → ∀ s,
      ((lengths.draw s).1 ≤ Buffer.room 1 → ∃ text t,
        lengths.textLeaf.generate s = (.ok (.str text), t) ∧
        Keeps c.minLength c.maxLength text.toList.length ∧
        lengths.textLeaf.validate (.str text) = some true ∧
        ∀ char ∈ text.toList, char.isAlphanum = true) ∧
      ∀ e t, lengths.textLeaf.generate s = (.error e, t) ↔
        lengths.draw s = (e.places, t) ∧ Buffer.room 1 < e.places) ∧
    ∀ lengths, ofList c = .ok lengths →
      ∀ (α ε : Type) (room : Nat) (overflow : Overflow → ε) (item : Nat → ExceptT ε Draw α)
        (s u : Source),
      (∀ values, lengths.fill room overflow item s = (.ok values, u) →
        Keeps c.minItems c.maxItems values.length ∧ lengths.contains values.length = true) ∧
      (∀ values, lengths.fill room overflow item s = (.ok values, u) ↔
        ∃ t, lengths.draw s = (values.length, t) ∧ values.length ≤ room ∧
          Run.Steps item (List.range values.length) t values u) ∧
      ∀ e, lengths.fill room overflow item s = (.error e, u) ↔
        (∃ count, lengths.draw s = (count, u) ∧ room < count ∧ overflow ⟨count⟩ = e) ∨
          ∃ count t, lengths.draw s = (count, t) ∧ count ≤ room ∧ ∃ done < count, ∃ before w,
            Run.Steps item (List.range done) t before w ∧ item done w = (.error e, u) := by
  refine ⟨not_crossed_text_iff, not_crossed_list_iff, ?_, ?_⟩
  · intro lengths hlengths s
    refine ⟨fun hroom => ?_, fun e t => generate_textLeaf_eq_error_iff⟩
    obtain ⟨text, t, htext, hlength, halphanum⟩ := exists_generate_textLeaf hroom
    have hinside := lengths.contains_draw s
    rw [← hlength] at hinside
    refine ⟨text, t, htext, (endAt_of_ofText hlengths).keeps hinside, ?_, halphanum⟩
    rw [validate_textLeaf, hinside]
  · intro lengths hlengths α ε room overflow item s u
    refine ⟨fun values hfill => ?_, fun values => fill_eq_ok_iff, fun e => fill_eq_error_iff⟩
    have hinside := (fill_eq_ok hfill).1
    exact ⟨(endAt_of_ofList hlengths).keeps hinside, hinside⟩

/-- Texts longer than the default, and lists shorter than it. -/
def longTexts : Constraints :=
  { Constraints.none with minLength := some 20, maxItems := some 2 }

/-- Such a text has at least 20 characters, and such a list at most two items, each from a call of its
own. -/
theorem length_policies_longTexts :
    (∃ lengths, ofText longTexts = .ok lengths ∧ ∀ s, (lengths.draw s).1 ≤ Buffer.room 1 ∧
      ∃ text t, lengths.textLeaf.generate s = (.ok (.str text), t) ∧ 20 ≤ text.toList.length) ∧
    ∃ lengths, ofList longTexts = .ok lengths ∧
      ∀ (overflow : Overflow → Unit) (item : Nat → ExceptT Unit Draw Nat) s u values,
        lengths.fill (Buffer.room 8) overflow item s = (.ok values, u) → values.length ≤ 2 ∧
          ∃ t, Run.Steps item (List.range values.length) t values u := by
  obtain ⟨-, -, htexts, hlists⟩ := length_policies longTexts
  refine ⟨⟨⟨20, 20, Nat.le_refl 20⟩, rfl, fun s => ?_⟩, ⟨0, 2, Nat.zero_le 2⟩, rfl, ?_⟩
  · have hdraw := (Draw.natBetween_mem (Nat.le_refl 20) s).2
    have hroom : (draw ⟨20, 20, Nat.le_refl 20⟩ s).1 ≤ Buffer.room 1 :=
      Nat.le_trans hdraw (by decide)
    obtain ⟨text, t, htext, hkeeps, -⟩ := (htexts ⟨20, 20, Nat.le_refl 20⟩ rfl s).1 hroom
    exact ⟨hroom, text, t, htext, hkeeps.least 20 rfl⟩
  · intro overflow item s u values hfill
    obtain ⟨hkeeps, hcalls, -⟩ :=
      hlists ⟨0, 2, Nat.zero_le 2⟩ rfl Nat Unit (Buffer.room 8) overflow item s u
    obtain ⟨t, -, -, hsteps⟩ := (hcalls values).mp hfill
    exact ⟨(hkeeps values hfill).1.greatest 2 rfl, t, hsteps⟩

/-- Texts and lists of a length beyond all buffers. -/
def beyondBuffers : Constraints :=
  { Constraints.none with minLength := some 0x8000000000000000
                          minItems := some 0x8000000000000000 }

/-- Such lengths exist, but a text of them is never drawn, nor is a list of numbers filled whose calls
all succeed. -/
theorem overflows_beyondBuffers :
    (∃ lengths, ofText beyondBuffers = .ok lengths ∧
      ∀ s text t, lengths.textLeaf.generate s ≠ (.ok (.str text), t)) ∧
    ∃ lengths, ofList beyondBuffers = .ok lengths ∧ ∀ s values t,
      lengths.fill (Buffer.room 8) id (fun _ => ExceptT.lift Draw.word64) s ≠ (.ok values, t) := by
  refine ⟨⟨⟨_, _, Nat.le_refl 0x8000000000000000⟩, rfl, ?_⟩,
    ⟨_, _, Nat.le_refl 0x8000000000000000⟩, rfl, ?_⟩
  · intro s text t h
    exact absurd (min_le_room_of_gives ⟨s, t, h⟩) (by decide)
  · intro s values t h
    obtain ⟨u, hdraw, hroom, -⟩ := fill_eq_ok_iff.mp h
    have hleast := (Draw.natBetween_mem (Nat.le_refl 0x8000000000000000) s).1
    rw [draw] at hdraw
    rw [hdraw] at hleast
    exact absurd (Nat.le_trans hleast hroom) (by decide)

end Lengths

end Specimen
