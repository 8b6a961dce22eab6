import Mathlib
import Specimen.Pattern.Emit
import Specimen.Proofs.LeafValues

/-!
# Texts drawn from a pattern

A text drawn from a tree belongs to the tree's language, which is given constructor by constructor:
what a walk through the tree may write. A tree with conditions on places or with an empty set is
left out, since a draw writes nothing there while no text, or not every text, would do.
-/

namespace Specimen

namespace Draw

variable {α : Type} {draw : Draw α} {P : α → Prop}

theorem forall_mem_times (h : ∀ s, P (draw s).1) (count : Nat) (s : Source) :
    ∀ a ∈ (times draw count s).1, P a := by
  induction count generalizing s with
  | zero =>
      change ∀ a ∈ [], P a
      simp
  | succ count ih =>
      change ∀ a ∈ (draw s).1 :: (times draw count (draw s).2).1, P a
      rw [List.forall_mem_cons]
      exact ⟨h s, ih (draw s).2⟩

end Draw

namespace Pattern

/-! ### Members of sets -/

namespace CharSet

/-- A range between two characters in order. Surrogates may lie between them, though not at its
ends. -/
structure IsRange (range : Nat × Nat) : Prop where
  low : range.1.isValidChar
  high : range.2.isValidChar
  ordered : range.1 ≤ range.2

/-- A set that a member can be drawn from. -/
structure Drawable (set : CharSet) : Prop where
  ne_nil : set ≠ []
  ranges : ∀ range ∈ set, IsRange range

variable {set : CharSet} {range : Nat × Nat} {offset : Nat}

theorem contains_cons (range : Nat × Nat) (rest : CharSet) (n : Nat) :
    contains (range :: rest) n =
      (decide (range.1 ≤ n) && decide (n ≤ range.2) || contains rest n) :=
  rfl

/-- The code points of a range are characters that it contains, but for the surrogates, for which
its first one stands. -/
theorem IsRange.exists_char (h : IsRange range) (hlt : offset < width range) (rest : CharSet) :
    ∃ c, nth? (range :: rest) offset = some c ∧ range.1 ≤ c.toNat ∧ c.toNat ≤ range.2 := by
  have hordered := h.ordered
  have hhigh : range.2 < 0x110000 := by
    rcases h.high with hlow | hhigh
    · omega
    · exact hhigh.2
  have hcode : range.1 + offset ≤ range.2 := by
    rw [width] at hlt
    omega
  simp only [nth?, if_pos hlt]
  by_cases hgap : 0xd800 ≤ range.1 + offset ∧ range.1 + offset < 0xe000
  · refine ⟨Char.ofNat range.1, by rw [if_pos hgap], ?_⟩
    rw [Char.toNat_ofNat, if_pos h.low]
    omega
  · have hchar : (range.1 + offset).isValidChar := by
      unfold Nat.isValidChar
      omega
    refine ⟨Char.ofNat (range.1 + offset), by rw [if_neg hgap], ?_⟩
    rw [Char.toNat_ofNat, if_pos hchar]
    omega

theorem exists_nth? (h : ∀ range ∈ set, IsRange range) (hlt : offset < set.size) :
    ∃ c, set.nth? offset = some c ∧ set.contains c.toNat = true := by
  induction set generalizing offset with
  | nil => exact absurd hlt (Nat.not_lt_zero offset)
  | cons range rest ih =>
      rw [List.forall_mem_cons] at h
      by_cases hfirst : offset < width range
      · obtain ⟨c, hc, hlow, hhigh⟩ := h.1.exists_char hfirst rest
        exact ⟨c, hc, by rw [contains_cons, decide_eq_true hlow, decide_eq_true hhigh]; rfl⟩
      · have hrest : offset - width range < size rest := by
          change offset < width range + size rest at hlt
          omega
        obtain ⟨c, hc, hcontains⟩ := ih h.2 hrest
        refine ⟨c, by rw [nth?, if_neg hfirst, hc], ?_⟩
        rw [contains_cons, hcontains, Bool.or_true]

theorem Drawable.size_pos (h : set.Drawable) : 0 < set.size := by
  cases set with
  | nil => exact absurd rfl h.ne_nil
  | cons range rest =>
      change 0 < width range + size rest
      rw [width]
      omega

theorem lt_of_isAscii {n : Nat} (hascii : set.isAscii = true) (hn : set.contains n = true) :
    n < 0x80 := by
  obtain ⟨range, hmem, hrange⟩ := List.any_eq_true.mp hn
  have hhigh := List.all_eq_true.mp hascii range hmem
  simp only [Bool.and_eq_true, decide_eq_true_eq] at hrange hhigh
  omega

end CharSet

theorem exists_drawCharacter {set : CharSet} (h : set.Drawable) (s : Source) :
    ∃ c, (drawCharacter set s).1 = [c] ∧ set.contains c.toNat = true := by
  have hdraw : (drawCharacter set s).1 = (set.nth? (Draw.below64 set.size s).1).toList := by
    rw [drawCharacter, if_neg (Nat.ne_of_gt h.size_pos)]
    rfl
  obtain ⟨c, hc, hcontains⟩ := CharSet.exists_nth? h.ranges (Draw.below64_lt h.size_pos s)
  exact ⟨c, by rw [hdraw, hc]; rfl, hcontains⟩

theorem exists_drawByte {set : CharSet} (h : set.Drawable) (hascii : set.isAscii = true)
    (s : Source) : ∃ c, (drawByte set s).1 = [c] ∧ set.contains c.toNat = true := by
  have hdraw : (drawByte set s).1 = ((set.nth? (Draw.below32 set.size s).1).map
      fun c => if c.toNat < 0x80 then c else '?').toList := by
    rw [drawByte, if_neg (Nat.ne_of_gt h.size_pos)]
    rfl
  obtain ⟨c, hc, hcontains⟩ := CharSet.exists_nth? h.ranges (Draw.below32_lt h.size_pos s)
  refine ⟨c, ?_, hcontains⟩
  rw [hdraw, hc, Option.map_some, if_pos (CharSet.lt_of_isAscii hascii hcontains)]
  rfl

namespace Tree

/-! ### The language of a tree -/

/-- The texts of a tree. An unbounded repetition has at most eight repetitions beyond the least. -/
inductive Gives : Tree → List Char → Prop where
  | empty : Gives .empty []
  | literal (text : List Char) : Gives (.literal text) text
  | characters {set : CharSet} {c : Char} (member : set.contains c.toNat = true) :
      Gives (.characters set) [c]
  | bytes {set : CharSet} {c : Char} (member : set.contains c.toNat = true) :
      Gives (.bytes set) [c]
  | repetition {min : Nat} {max : Option Nat} {greedy : Bool} {body : Tree}
      {pieces : List (List Char)} (least : min ≤ pieces.length)
      (greatest : pieces.length ≤ max.getD (min + 8)) (each : ∀ piece ∈ pieces, Gives body piece) :
      Gives (.repetition min max greedy body) pieces.flatten
  | capture {index : Nat} {body : Tree} {text : List Char} (inner : Gives body text) :
      Gives (.capture index body) text
  | concat {parts : List Tree} {texts : List (List Char)} (each : List.Forall₂ Gives parts texts) :
      Gives (.concat parts) texts.flatten
  | alternation {branches : List Tree} {branch : Tree} {text : List Char} (mem : branch ∈ branches)
      (inner : Gives branch text) : Gives (.alternation branches) text

/-- What a tree has that every draw from it gives one of its texts: no conditions on places, only
sets with members, those of bytes inside ASCII, counts in order, and branches to choose from. -/
inductive Drawable : Tree → Prop where
  | empty : Drawable .empty
  | literal (text : List Char) : Drawable (.literal text)
  | characters {set : CharSet} (members : set.Drawable) : Drawable (.characters set)
  | bytes {set : CharSet} (members : set.Drawable) (ascii : set.isAscii = true) :
      Drawable (.bytes set)
  | repetition {min : Nat} {max : Option Nat} {greedy : Bool} {body : Tree}
      (ordered : ∀ limit, max = some limit → min ≤ limit) (inner : Drawable body) :
      Drawable (.repetition min max greedy body)
  | capture {index : Nat} {body : Tree} (inner : Drawable body) : Drawable (.capture index body)
  | concat {parts : List Tree} (each : ∀ part ∈ parts, Drawable part) : Drawable (.concat parts)
  | alternation {branches : List Tree} (ne_nil : branches ≠ [])
      (each : ∀ branch ∈ branches, Drawable branch) : Drawable (.alternation branches)

/-! ### Walks through a tree -/

theorem emit_alternation (branches : List Tree) (s : Source) :
    emit (.alternation branches) s =
      emitAt branches (Draw.below64 branches.length s).1 (Draw.below64 branches.length s).2 :=
  rfl

theorem emit_repetition (min : Nat) (max : Option Nat) (greedy : Bool) (body : Tree) (s : Source) :
    ∃ t, (emit (.repetition min max greedy body) s).1 =
      (Draw.times body.emit
        (min + (Draw.below32 (countLimit min max - min + 1) s).1) t).1.flatten :=
  ⟨_, rfl⟩

theorem emitAt_of_lt {branches : List Tree} {place : Nat} (h : place < branches.length) :
    emitAt branches place = (branches[place]).emit := by
  induction branches generalizing place with
  | nil => exact absurd h (Nat.not_lt_zero place)
  | cons tree rest ih =>
      cases place with
      | zero => rfl
      | succ place =>
          rw [List.length_cons, Nat.succ_lt_succ_iff] at h
          exact ih h

theorem exists_emitAll {parts : List Tree} (h : ∀ part ∈ parts, ∀ s, Gives part (part.emit s).1)
    (s : Source) :
    ∃ texts, List.Forall₂ Gives parts texts ∧ (emitAll parts s).1 = texts.flatten := by
  induction parts generalizing s with
  | nil => exact ⟨[], .nil, rfl⟩
  | cons tree rest ih =>
      rw [List.forall_mem_cons] at h
      obtain ⟨texts, hrest, htexts⟩ := ih h.2 (tree.emit s).2
      refine ⟨(tree.emit s).1 :: texts, .cons (h.1 s) hrest, ?_⟩
      rw [List.flatten_cons, ← htexts]
      rfl

theorem count_mem {min : Nat} {max : Option Nat} (h : ∀ limit, max = some limit → min ≤ limit)
    (s : Source) :
    min + (Draw.below32 (countLimit min max - min + 1) s).1 ≤ max.getD (min + 8) := by
  have hlt := Draw.below32_lt (Nat.succ_pos (countLimit min max - min)) s
  generalize (Draw.below32 (countLimit min max - min + 1) s).1 = extra at hlt ⊢
  cases max with
  | none =>
      have hlimit : countLimit min none ≤ min + 8 := Nat.min_le_left _ _
      rw [Option.getD_none]
      omega
  | some limit =>
      have hordered := h limit rfl
      change extra < limit - min + 1 at hlt
      rw [Option.getD_some]
      omega

/-- The induction is on what makes the tree one to draw from, a case for each constructor. -/
theorem Drawable.gives {tree : Tree} (h : tree.Drawable) (s : Source) :
    tree.Gives (tree.emit s).1 := by
  induction h generalizing s with
  | empty => exact .empty
  | literal text => exact .literal text
  | characters members =>
      obtain ⟨c, hdraw, hcontains⟩ := exists_drawCharacter members s
      change Gives _ (drawCharacter _ s).1
      rw [hdraw]
      exact .characters hcontains
  | bytes members ascii =>
      obtain ⟨c, hdraw, hcontains⟩ := exists_drawByte members ascii s
      change Gives _ (drawByte _ s).1
      rw [hdraw]
      exact .bytes hcontains
  | @repetition min max greedy body ordered _ ih =>
      obtain ⟨t, htext⟩ := emit_repetition min max greedy body s
      rw [htext]
      refine .repetition ?_ ?_ (Draw.forall_mem_times ih _ t)
      · rw [Draw.length_times]
        exact Nat.le_add_right _ _
      · rw [Draw.length_times]
        exact count_mem ordered s
  | capture _ ih => exact .capture (ih s)
  | concat _ ih =>
      obtain ⟨texts, hparts, htexts⟩ := exists_emitAll ih s
      change Gives _ (emitAll _ s).1
      rw [htexts]
      exact .concat hparts
  | @alternation branches ne_nil _ ih =>
      have hplace := Draw.below64_lt (List.length_pos_iff.mpr ne_nil) s
      rw [emit_alternation, emitAt_of_lt hplace]
      exact .alternation (List.getElem_mem hplace) (ih _ (List.getElem_mem hplace) _)

/-- Whatever the source is, the text drawn from a tree is one of its texts. -/
theorem gives_emit {tree : Tree} (h : tree.Drawable) (s : Source) : tree.Gives (tree.emit s).1 :=
  h.gives s

/-- Two letters, characters from both sides of the surrogates, and then a digit or a dash. -/
def acrossSurrogates : Tree :=
  .concat [.literal ['i', 'd'], .repetition 1 none true (.characters [(0xd7fe, 0xe001)]),
    .alternation [.bytes [(0x30, 0x39)], .capture 1 (.literal ['-'])]]

theorem drawable_acrossSurrogates : acrossSurrogates.Drawable := by
  have hspan : CharSet.Drawable [(0xd7fe, 0xe001)] :=
    ⟨List.cons_ne_nil _ _, List.forall_mem_singleton.mpr ⟨by decide, by decide, by decide⟩⟩
  have hdigits : CharSet.Drawable [(0x30, 0x39)] :=
    ⟨List.cons_ne_nil _ _, List.forall_mem_singleton.mpr ⟨by decide, by decide, by decide⟩⟩
  have hends : Drawable (.alternation [.bytes [(0x30, 0x39)], .capture 1 (.literal ['-'])]) := by
    refine .alternation (List.cons_ne_nil _ _) ?_
    simp only [List.forall_mem_cons]
    exact ⟨.bytes hdigits rfl, .capture (.literal _), List.forall_mem_nil _⟩
  refine .concat ?_
  simp only [List.forall_mem_cons]
  exact ⟨.literal _, .repetition (by simp) (.characters hspan), hends, List.forall_mem_nil _⟩

/-- Words for two characters, the first of them on a surrogate, and the digit seven. -/
def surrogateTape : Source :=
  .mixed [0x1c71c71d, 0xc79c31e70c79c32, 0xffc01ff007fc0200, 0, 0xb3333334] 0

/-- For the surrogate the first character of its range stands. -/
theorem gives_emit_acrossSurrogates :
    acrossSurrogates.Drawable ∧ acrossSurrogates.Gives (acrossSurrogates.emit surrogateTape).1 ∧
      (acrossSurrogates.emit surrogateTape).1 =
        ['i', 'd', Char.ofNat 0xd7fe, Char.ofNat 0xe000, '7'] :=
  ⟨drawable_acrossSurrogates, gives_emit drawable_acrossSurrogates surrogateTape,
    by decide +kernel⟩

end Tree

end Pattern

end Specimen
