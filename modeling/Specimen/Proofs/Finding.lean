import Specimen.Pattern.Basic
import Specimen.Proofs.Emission

/-!
# Finding what is drawn

A search goes through a tree with the set of places that a match may have come to. Along a text of
the tree it comes to the place where the text ends, whatever else it comes to. Conditions on places
may stand around the tree as long as they are met there: the start of the text in front, and its end
behind.
-/

namespace Specimen

namespace Pattern

namespace Places

variable {places others : Places} {place : Nat} {text : List Char} {next : Places → Places}

/-- A match may have come to the place. -/
def Marks (places : Places) (place : Nat) : Prop :=
  places[place]? = some true

/-- There is no mark behind the end of the text. -/
def Within (text : List Char) (places : Places) : Prop :=
  places.length ≤ text.length + 1

theorem marks_cons_succ {mark : Bool} : Marks (mark :: places) (place + 1) ↔ places.Marks place :=
  Iff.rfl

theorem marks_union_left (h : places.Marks place) : (union places others).Marks place := by
  induction places generalizing others place with
  | nil => cases h
  | cons mark marks ih =>
      cases others with
      | nil => exact h
      | cons other others =>
          cases place with
          | zero =>
              obtain rfl : mark = true := Option.some.inj h
              exact congrArg some (Bool.true_or other)
          | succ place => exact ih h

theorem marks_union_right (h : others.Marks place) : (union places others).Marks place := by
  induction places generalizing others place with
  | nil =>
      cases others with
      | nil => cases h
      | cons => exact h
  | cons mark marks ih =>
      cases others with
      | nil => cases h
      | cons other others =>
          cases place with
          | zero =>
              obtain rfl : other = true := Option.some.inj h
              exact congrArg some (Bool.or_true mark)
          | succ place => exact ih h

theorem within_union (hplaces : places.Within text) (hothers : others.Within text) :
    (union places others).Within text := by
  have hlength : (union places others).length = Nat.max places.length others.length := by
    clear hplaces hothers
    induction places generalizing others with
    | nil => cases others <;> simp [union]
    | cons mark marks ih =>
        cases others with
        | nil => simp [union]
        | cons other others => simp [union, ih, Nat.succ_max_succ]
  rw [Within, hlength]
  exact Nat.max_le.mpr ⟨hplaces, hothers⟩

theorem marks_step {test : Char → Bool} {c : Char} (h : places.Marks place)
    (hc : text[place]? = some c) (htest : test c = true) :
    (step test text places).Marks (place + 1) := by
  rw [step, marks_cons_succ, Marks, List.getElem?_zipWith, h, hc]
  simp [htest]

theorem within_step (test : Char → Bool) (text : List Char) (places : Places) :
    (step test text places).Within text := by
  simp [Within, step]

theorem not_isEmpty (h : places.Marks place) : isEmpty places = false := by
  rw [isEmpty, Bool.eq_false_iff]
  intro hempty
  have hunmarked := List.all_eq_true.mp hempty true (List.mem_of_getElem? h)
  cases hunmarked

theorem marks_filter_start {look : Look} (hlook : ∀ after, look.holds none after = true)
    (h : places.Marks 0) (hwithin : places.Within text) :
    (filter look none text places).Marks 0 := by
  cases places with
  | nil => cases h
  | cons mark marks =>
      obtain rfl : mark = true := Option.some.inj h
      cases text with
      | cons c rest => exact congrArg some (hlook (some c))
      | nil =>
          obtain rfl : marks = [] := List.length_eq_zero_iff.mp (by simpa [Within] using hwithin)
          exact congrArg some (hlook none)

theorem marks_filter_stop {look : Look} {before : Option Char}
    (hlook : ∀ before, look.holds before none = true) (h : places.Marks text.length)
    (hwithin : places.Within text) : (filter look before text places).Marks text.length := by
  induction text generalizing before places with
  | nil =>
      cases places with
      | nil => cases h
      | cons mark marks =>
          obtain rfl : mark = true := Option.some.inj h
          obtain rfl : marks = [] := List.length_eq_zero_iff.mp (by simpa [Within] using hwithin)
          exact congrArg some (hlook before)
  | cons c rest ih =>
      cases places with
      | nil => cases h
      | cons mark marks =>
          have hrest : Within rest marks := Nat.le_of_succ_le_succ hwithin
          exact ih h hrest

theorem within_filter (look : Look) (before : Option Char) (text : List Char) (places : Places) :
    (filter look before text places).Within text := by
  induction text generalizing before places with
  | nil =>
      match places with
      | [] => simp [Within, filter]
      | [mark] => simp [Within, filter]
      | _ :: _ :: _ => simp [Within, filter]
  | cons c rest ih =>
      cases places with
      | nil => simp [Within, filter]
      | cons mark marks => exact Nat.succ_le_succ (ih (some c) marks)

theorem within_iterate (hnext : ∀ places, places.Within text → (next places).Within text)
    (count : Nat) (h : places.Within text) : (iterate next count places).Within text := by
  induction count generalizing places with
  | zero => exact h
  | succ count ih => exact ih (hnext places h)

theorem within_closure (hnext : ∀ places, places.Within text → (next places).Within text)
    (count : Nat) (h : places.Within text) : (closure next count places).Within text := by
  induction count generalizing places with
  | zero => exact h
  | succ count ih =>
      rw [closure]
      split
      · exact h
      · exact within_union h (ih (hnext places h))

/-- Along a text, steps get from the place where it starts to the place where it ends, whatever it
stands between. -/
def Leads (next : List Char → Places → Places) (text : List Char) : Prop :=
  ∀ before after places, Marks places before.length →
    (next (before ++ text ++ after) places).Marks (before.length + text.length)

section Leads

variable {first second step : List Char → Places → Places} {front back : List Char}

theorem Leads.comp (hfirst : Leads first front) (hsecond : Leads second back) :
    Leads (fun text places => second text (first text places)) (front ++ back) := by
  intro before after places h
  have hfront := hfirst before (back ++ after) places h
  rw [← List.length_append] at hfront
  have hback := hsecond (before ++ front) after _ hfront
  simpa only [List.append_assoc, List.length_append, Nat.add_assoc] using hback

theorem leads_iterate {pieces : List (List Char)} (h : ∀ piece ∈ pieces, Leads step piece) :
    Leads (fun text => iterate (step text) pieces.length) pieces.flatten := by
  induction pieces with
  | nil => exact fun _ _ _ h => h
  | cons piece pieces ih =>
      rw [List.forall_mem_cons] at h
      exact h.1.comp (ih h.2)

theorem leads_closure {pieces : List (List Char)} {count : Nat}
    (h : ∀ piece ∈ pieces, Leads step piece) (hle : pieces.length ≤ count) :
    Leads (fun text => closure (step text) count) pieces.flatten := by
  induction count generalizing pieces with
  | zero =>
      obtain rfl := List.length_eq_zero_iff.mp (Nat.le_zero.mp hle)
      exact fun _ _ _ h => h
  | succ count ih =>
      intro before after places hstart
      simp only [closure, not_isEmpty hstart, Bool.false_eq_true, if_false]
      cases pieces with
      | nil => exact marks_union_left hstart
      | cons piece pieces =>
          rw [List.forall_mem_cons] at h
          have hrest := h.1.comp (ih h.2 (Nat.le_of_succ_le_succ hle))
          exact marks_union_right (hrest before after places hstart)

end Leads

end Places

/-! ### Pieces of a repetition -/

/-- Of the pieces of a text, empty ones can be left out until there are no more pieces than
characters. -/
theorem exists_thinned {α : Type} {pieces : List (List α)} {count : Nat}
    (h : pieces.flatten.length ≤ count) : ∃ thinned : List (List α),
      thinned.flatten = pieces.flatten ∧ (∀ piece ∈ thinned, piece ∈ pieces) ∧
        thinned.length = min pieces.length count := by
  induction pieces generalizing count with
  | nil => exact ⟨[], rfl, by simp, by simp⟩
  | cons piece pieces ih =>
      cases piece with
      | nil =>
          obtain ⟨thinned, hflatten, hmem, hlength⟩ := ih h
          have hmem' (found : List α) (hfound : found ∈ thinned) : found ∈ [] :: pieces :=
            List.mem_cons_of_mem _ (hmem found hfound)
          by_cases hfew : pieces.length < count
          · refine ⟨[] :: thinned, hflatten, List.forall_mem_cons.mpr ⟨List.mem_cons_self, hmem'⟩, ?_⟩
            rw [List.length_cons, List.length_cons, hlength]
            omega
          · refine ⟨thinned, hflatten, hmem', ?_⟩
            rw [List.length_cons, hlength]
            omega
      | cons first rest =>
          rw [List.flatten_cons, List.length_append, List.length_cons] at h
          obtain ⟨fewer, rfl⟩ : ∃ fewer, count = fewer + 1 := ⟨count - 1, by omega⟩
          have hrest : pieces.flatten.length ≤ fewer := by omega
          obtain ⟨thinned, hflatten, hmem, hlength⟩ := ih hrest
          refine ⟨(first :: rest) :: thinned, by simp [hflatten], ?_, ?_⟩
          · rw [List.forall_mem_cons]
            exact ⟨List.mem_cons_self, fun found hfound => .tail _ (hmem found hfound)⟩
          · rw [List.length_cons, List.length_cons, hlength]
            omega

namespace Tree

open Places

/-! ### The length of what is searched through -/

theorem within_foldl_step {text chars : List Char} {places : Places} (h : places.Within text) :
    (chars.foldl (fun places c => step (· = c) text places) places).Within text := by
  induction chars generalizing places with
  | nil => exact h
  | cons c rest ih => exact ih (within_step _ text places)

theorem within_endsOfAll {text : List Char} {parts : List Tree} {places : Places}
    (hparts : ∀ part ∈ parts, ∀ places, places.Within text → (part.ends text places).Within text)
    (h : places.Within text) : (endsOfAll text parts places).Within text := by
  induction parts generalizing places with
  | nil => exact h
  | cons part rest ih =>
      rw [List.forall_mem_cons] at hparts
      exact ih hparts.2 (hparts.1 places h)

theorem within_endsOfAny {text : List Char} {branches : List Tree} {places : Places}
    (hbranches : ∀ branch ∈ branches, (branch.ends text places).Within text) :
    (endsOfAny text branches places).Within text := by
  induction branches with
  | nil => exact Nat.zero_le _
  | cons branch rest ih =>
      rw [List.forall_mem_cons] at hbranches
      exact within_union hbranches.1 (ih hbranches.2)

theorem Drawable.within_ends {tree : Tree} (h : tree.Drawable) {text : List Char} {places : Places}
    (hplaces : places.Within text) : (tree.ends text places).Within text := by
  induction h generalizing places with
  | empty => exact hplaces
  | literal chars => exact within_foldl_step hplaces
  | characters | bytes => exact within_step _ text places
  | repetition _ _ ih =>
      exact within_closure (fun _ => ih) _ (within_iterate (fun _ => ih) _ hplaces)
  | capture _ ih => exact ih hplaces
  | concat _ ih => exact within_endsOfAll (fun part hpart _ => ih part hpart) hplaces
  | alternation _ _ ih => exact within_endsOfAny fun branch hbranch => ih branch hbranch hplaces

/-! ### Texts of a tree -/

theorem leads_step {test : Char → Bool} {c : Char} (h : test c = true) :
    Leads (step test) [c] := by
  intro before after places hstart
  refine marks_step hstart ?_ h
  simp

theorem leads_literal (chars : List Char) : Leads (fun text => (literal chars).ends text) chars := by
  induction chars with
  | nil => exact fun _ _ _ h => h
  | cons c rest ih => exact (leads_step (decide_eq_true rfl)).comp ih

theorem leads_concat {parts : List Tree} {texts : List (List Char)}
    (h : List.Forall₂ (fun part text => Leads (fun text => part.ends text) text) parts texts) :
    Leads (fun text => endsOfAll text parts) texts.flatten := by
  induction h with
  | nil => exact fun _ _ _ h => h
  | cons hfirst _ ih => exact hfirst.comp ih

theorem leads_alternation {branches : List Tree} {branch : Tree} {text : List Char}
    (hmem : branch ∈ branches) (h : Leads (fun text => branch.ends text) text) :
    Leads (fun text => endsOfAny text branches) text := by
  intro before after places hstart
  induction branches with
  | nil => cases hmem
  | cons first rest ih =>
      rcases List.mem_cons.mp hmem with rfl | hmem
      · exact marks_union_left (h before after places hstart)
      · exact marks_union_right (ih hmem)

/-- So many pieces that a search repeats often enough for all of them, where it repeats at least
`first` times and at most `extra` times more. -/
theorem exists_tried {pieces : List (List Char)} {first extra : Nat} (hfirst : first ≤ pieces.length)
    (henough : pieces.length ≤ first + extra ∨ pieces.flatten.length ≤ first + extra) :
    ∃ front back : List (List Char), front.flatten ++ back.flatten = pieces.flatten ∧
      (∀ piece ∈ front ++ back, piece ∈ pieces) ∧ front.length = first ∧ back.length ≤ extra := by
  have hthinned : ∃ thinned : List (List Char), thinned.flatten = pieces.flatten ∧
      (∀ piece ∈ thinned, piece ∈ pieces) ∧ first ≤ thinned.length ∧
        thinned.length ≤ first + extra := by
    by_cases hfew : pieces.length ≤ first + extra
    · exact ⟨pieces, rfl, fun _ h => h, hfirst, hfew⟩
    · obtain ⟨thinned, hflatten, hmem, hlength⟩ := exists_thinned (henough.resolve_left hfew)
      exact ⟨thinned, hflatten, hmem, by omega, by omega⟩
  obtain ⟨thinned, hflatten, hmem, hleast, hgreatest⟩ := hthinned
  refine ⟨thinned.take first, thinned.drop first, ?_, ?_, ?_, ?_⟩
  · rw [← List.flatten_append, List.take_append_drop, hflatten]
  · rw [List.take_append_drop]
    exact hmem
  · exact List.length_take_of_le hleast
  · rw [List.length_drop]
    omega

/-- Repetitions beyond the number of places are not tried, but a text has no more pieces that are
not empty than places. -/
theorem leads_repetition {low : Nat} {high : Option Nat} {greedy : Bool} {body : Tree}
    {pieces : List (List Char)} (hleast : low ≤ pieces.length)
    (hgreatest : ∀ limit, high = some limit → pieces.length ≤ limit)
    (h : ∀ piece ∈ pieces, Leads (fun text => body.ends text) piece) :
    Leads (fun text => (repetition low high greedy body).ends text) pieces.flatten := by
  intro before after places hstart
  have hshort : pieces.flatten.length < (before ++ pieces.flatten ++ after).length + 1 := by
    simp only [List.length_append]
    omega
  have hends {first extra : Nat} (hfirst : first ≤ pieces.length)
      (henough : pieces.length ≤ first + extra ∨ pieces.flatten.length ≤ first + extra) :
      (closure (body.ends (before ++ pieces.flatten ++ after)) extra
        (iterate (body.ends (before ++ pieces.flatten ++ after)) first places)).Marks
          (before.length + pieces.flatten.length) := by
    obtain ⟨front, back, hflatten, hmem, rfl, hback⟩ := exists_tried hfirst henough
    rw [List.forall_mem_append] at hmem
    rw [← hflatten]
    exact ((leads_iterate fun piece hpiece => h piece (hmem.1 piece hpiece)).comp
      (leads_closure (fun piece hpiece => h piece (hmem.2 piece hpiece)) hback))
        before after places hstart
  simp only [ends, Nat.min_eq_min]
  generalize (before ++ pieces.flatten ++ after).length + 1 = bound at hshort ⊢
  cases high with
  | none => exact hends (by omega) (by dsimp only; omega)
  | some limit =>
      have hlimit := hgreatest limit rfl
      exact hends (by omega) (by dsimp only; omega)

/-- A search gets along every text of a tree. -/
theorem Drawable.leads {tree : Tree} (h : tree.Drawable) {text : List Char} (hgives : tree.Gives text) :
    Leads (fun text => tree.ends text) text := by
  induction h generalizing text with
  | empty =>
      cases hgives
      exact fun _ _ _ h => h
  | literal chars =>
      cases hgives
      exact leads_literal chars
  | characters =>
      cases hgives with
      | characters member => exact leads_step member
  | bytes =>
      cases hgives with
      | bytes member => exact leads_step member
  | repetition ordered _ ih =>
      cases hgives with
      | repetition least greatest each =>
          refine leads_repetition least ?_ fun piece hpiece => ih (each piece hpiece)
          rintro limit rfl
          exact greatest
  | capture _ ih =>
      cases hgives with
      | capture inner => exact ih inner
  | concat _ ih =>
      cases hgives with
      | concat each => exact leads_concat (forall₂_imp_of_mem each fun part hpart _ _ => ih part hpart)
  | alternation _ _ ih =>
      cases hgives with
      | alternation mem inner => exact leads_alternation mem (ih _ mem inner)

/-! ### Trees between the ends of the text -/

/-- A tree is another one, or a concatenation between conditions that are met at the start and at the
end of every text. -/
inductive Frames : Tree → Tree → Prop where
  | bare (body : Tree) : Frames body body
  | mark {look : Look} (met : look.holds none none = true) : Frames (.look look) .empty
  | anchored {starts stops : List Look} (parts : List Tree)
      (metFirst : ∀ look ∈ starts, ∀ after, look.holds none after = true)
      (metLast : ∀ look ∈ stops, ∀ before, look.holds before none = true) :
      Frames (.concat (starts.map .look ++ (parts ++ stops.map .look))) (.concat parts)

theorem endsOfAll_append (text : List Char) (parts others : List Tree) (places : Places) :
    endsOfAll text (parts ++ others) places = endsOfAll text others (endsOfAll text parts places) := by
  induction parts generalizing places with
  | nil => rfl
  | cons part rest ih => exact ih (part.ends text places)

/-- What conditions keep that are met at a place. -/
theorem marks_endsOfAll_look {text : List Char} {looks : List Look} {place : Nat}
    (hlooks : ∀ look ∈ looks, ∀ places, places.Within text → places.Marks place →
      (filter look none text places).Marks place) {places : Places}
    (hwithin : places.Within text) (h : places.Marks place) :
    (endsOfAll text (looks.map .look) places).Marks place ∧
      (endsOfAll text (looks.map .look) places).Within text := by
  induction looks generalizing places with
  | nil => exact ⟨h, hwithin⟩
  | cons look rest ih =>
      rw [List.forall_mem_cons] at hlooks
      exact ih hlooks.2 (within_filter look none text places) (hlooks.1 places hwithin h)

theorem marks_replicate {count place : Nat} (h : place < count) :
    Places.Marks (List.replicate count true) place := by
  rw [Marks, List.getElem?_replicate, if_pos h]

/-- A tree occurs in every text that it gives between the conditions for start and end. -/
theorem Frames.occursIn {tree body : Tree} (h : tree.Frames body) (hbody : body.Drawable)
    {text : List Char} (hgives : body.Gives text) : tree.occursIn text = true := by
  have hbody' (places : Places) (hstart : places.Marks 0) :
      (body.ends text places).Marks text.length := by
    have hleads := hbody.leads hgives [] [] places hstart
    simpa using hleads
  have hall : Places.Marks (List.replicate (text.length + 1) true) 0 :=
    marks_replicate (Nat.succ_pos _)
  have hwithin : Places.Within text (List.replicate (text.length + 1) true) := by
    simp [Within]
  rw [Tree.occursIn, Bool.not_eq_true']
  cases h with
  | bare => exact not_isEmpty (hbody' _ hall)
  | @mark look met =>
      cases hgives
      have hmark : (filter look none [] [true]).Marks 0 := congrArg some met
      exact not_isEmpty hmark
  | anchored parts metFirst metLast =>
      simp only [ends, endsOfAll_append]
      have hstarts := marks_endsOfAll_look
        (fun look hlook _ hwithin h => marks_filter_start (metFirst look hlook) h hwithin) hwithin hall
      have hparts := hbody' _ hstarts.1
      have hstops := marks_endsOfAll_look
        (fun look hlook _ hwithin h => marks_filter_stop (metLast look hlook) h hwithin)
        (hbody.within_ends hstarts.2) hparts
      exact not_isEmpty hstops.1

end Tree

/-! ### Engines -/

/-- An engine finds every pattern in the texts that its tree gives between the conditions for start
and end. -/
def Engine.Finds (engine : Engine) : Prop :=
  ∀ {source : String} {pattern : Pattern} {body : Tree} {text : String},
    engine.read source = .ok pattern → pattern.tree.Frames body → body.Drawable →
      body.Gives text.toList → pattern.occursIn text = true

theorem Engine.finds_own : own.Finds := by
  intro source pattern body text hread hframes hdrawable hgives
  cases htree : ownTree? source with
  | none =>
      simp only [read, own, htree] at hread
      cases hread
  | some tree =>
      simp only [read, own, htree] at hread
      cases hread
      exact hframes.occursIn hdrawable hgives

end Pattern

end Specimen
