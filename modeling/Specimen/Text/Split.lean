/-!
# Cutting text

Splitting at a mark and joining with it are inverse, and neither looks at anything but the mark.
-/

namespace Specimen

namespace Text

/-- The parts before and after the first `mark`, if there is one. -/
def cutAt? (mark : Char) : List Char → Option (List Char × List Char)
  | [] => none
  | c :: rest =>
    if c = mark then some ([], rest)
    else (cutAt? mark rest).map fun (before, after) => (c :: before, after)

/-- What follows a mark that a text starts with. -/
def mark? (mark : Char) : List Char → Option (List Char)
  | c :: rest => if c = mark then some rest else none
  | [] => none

/-- The parts between marks; a text with `n` marks has `n + 1` parts, which may be empty. -/
def split (mark : Char) : List Char → List (List Char)
  | [] => [[]]
  | c :: rest =>
    if c = mark then [] :: split mark rest
    else match split mark rest with
      | [] => [[c]]
      | part :: parts => (c :: part) :: parts

def join (mark : Char) : List (List Char) → List Char
  | [] => []
  | [part] => part
  | part :: parts => part ++ mark :: join mark parts

/-- Writes `new` for every `first` that is followed by `second`, from left to right. -/
def replacePair (first second new : Char) : List Char → List Char
  | a :: b :: rest =>
    if a = first ∧ b = second then new :: replacePair first second new rest
    else a :: replacePair first second new (b :: rest)
  | cs => cs

/-- The text without the marks it starts and ends with. -/
def trimEnds (mark : Char) (cs : List Char) : List Char :=
  ((cs.dropWhile (· = mark)).reverse.dropWhile (· = mark)).reverse

variable {mark : Char} {cs before after part : List Char}

theorem mark?_cons (mark : Char) (rest : List Char) : mark? mark (mark :: rest) = some rest :=
  if_pos rfl

theorem cutAt?_append (h : mark ∉ before) (after : List Char) :
    cutAt? mark (before ++ mark :: after) = some (before, after) := by
  induction before with
  | nil => simp [cutAt?]
  | cons c rest ih =>
    have hne : c ≠ mark := fun heq => h (heq ▸ List.mem_cons_self)
    have hrest : mark ∉ rest := fun hmem => h (List.mem_cons_of_mem c hmem)
    rw [List.cons_append, cutAt?, if_neg hne, ih hrest]
    rfl

theorem cutAt?_eq_none_iff : cutAt? mark cs = none ↔ mark ∉ cs := by
  induction cs with
  | nil => simp [cutAt?]
  | cons c rest ih =>
    by_cases hmark : c = mark
    · simp [cutAt?, hmark]
    · simp [cutAt?, hmark, Ne.symm hmark, ih]

theorem of_cutAt?_eq_some (h : cutAt? mark cs = some (before, after)) :
    cs = before ++ mark :: after ∧ mark ∉ before := by
  induction cs generalizing before with
  | nil => cases h
  | cons c rest ih =>
    rw [cutAt?] at h
    by_cases hmark : c = mark
    · rw [if_pos hmark, Option.some.injEq, Prod.mk.injEq] at h
      obtain ⟨rfl, rfl⟩ := h
      exact ⟨congrArg (· :: rest) hmark, List.not_mem_nil⟩
    · rw [if_neg hmark] at h
      obtain ⟨⟨front, back⟩, hcut, heq⟩ := Option.map_eq_some_iff.mp h
      cases heq
      obtain ⟨hrest, hfront⟩ := ih hcut
      exact ⟨congrArg (c :: ·) hrest, by simp [Ne.symm hmark, hfront]⟩

theorem split_ne_nil (mark : Char) (cs : List Char) : split mark cs ≠ [] := by
  induction cs with
  | nil => simp [split]
  | cons c rest ih =>
    by_cases h : c = mark
    · simp [split, h]
    · cases hs : split mark rest <;> simp [split, h, hs]

theorem join_split (mark : Char) (cs : List Char) : join mark (split mark cs) = cs := by
  induction cs with
  | nil => rfl
  | cons c rest ih =>
    by_cases h : c = mark
    · cases hs : split mark rest with
      | nil => exact absurd hs (split_ne_nil mark rest)
      | cons part parts =>
        rw [hs] at ih
        simp [split, h, hs, join, ih]
    · cases hs : split mark rest with
      | nil => exact absurd hs (split_ne_nil mark rest)
      | cons part parts =>
        rw [hs] at ih
        cases parts with
        | nil => simp [split, h, hs, join] at ih ⊢; exact ih
        | cons next parts => simp [split, h, hs, join] at ih ⊢; exact ih

theorem join_cons_cons (first second : List Char) (rest : List (List Char)) :
    join mark (first :: second :: rest) = first ++ mark :: join mark (second :: rest) := rfl

theorem split_eq_singleton (h : mark ∉ cs) : split mark cs = [cs] := by
  induction cs with
  | nil => rfl
  | cons c rest ih =>
    have hne : c ≠ mark := fun heq => h (heq ▸ List.mem_cons_self)
    have hrest : mark ∉ rest := fun hmem => h (List.mem_cons_of_mem c hmem)
    rw [split, if_neg hne, ih hrest]

theorem split_append (h : mark ∉ part) (rest : List Char) :
    split mark (part ++ mark :: rest) = part :: split mark rest := by
  induction part with
  | nil => simp [split]
  | cons c part ih =>
    have hne : c ≠ mark := fun heq => h (heq ▸ List.mem_cons_self)
    have hpart : mark ∉ part := fun hmem => h (List.mem_cons_of_mem c hmem)
    rw [List.cons_append, split, if_neg hne, ih hpart]

/-- Parts without the mark are found again after they are joined with it. -/
theorem split_join {parts : List (List Char)} (hne : parts ≠ [])
    (h : ∀ part ∈ parts, mark ∉ part) : split mark (join mark parts) = parts := by
  induction parts with
  | nil => exact absurd rfl hne
  | cons first rest ih =>
    rw [List.forall_mem_cons] at h
    cases rest with
    | nil => exact split_eq_singleton h.1
    | cons second rest => rw [join_cons_cons, split_append h.1, ih (List.cons_ne_nil _ _) h.2]

theorem mem_of_mem_join {parts : List (List Char)} {c : Char} (hpart : part ∈ parts) (hc : c ∈ part) :
    c ∈ join mark parts := by
  induction parts with
  | nil => cases hpart
  | cons first rest ih =>
    cases rest with
    | nil => rwa [join, ← List.mem_singleton.mp hpart]
    | cons second rest =>
      rw [join_cons_cons, List.mem_append, List.mem_cons]
      rcases List.mem_cons.mp hpart with rfl | hpart
      · exact .inl hc
      · exact .inr (.inr (ih hpart))

end Text

end Specimen
