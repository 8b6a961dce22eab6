import Mathlib.Data.Finset.Card
import Mathlib.Data.String.Basic
import Specimen.Proofs.PathPrefixes

/-!
# Dotted paths

Overrides are written at dotted paths and kept at their segments. Splitting at points and joining
with points are inverse on all texts, so after any run of insertions the overrides list the texts
that were inserted, and find at the segments of a text what came last for it. Empty segments count
like any other.
-/

namespace Specimen

/-! ### Segments of a text -/

theorem Text.not_mem_of_mem_split {mark : Char} {cs part : List Char} (h : part ∈ split mark cs) :
    mark ∉ part := by
  induction cs generalizing part with
  | nil =>
      rw [split, List.mem_singleton] at h
      exact h ▸ List.not_mem_nil
  | cons c rest ih =>
      by_cases hmark : c = mark
      · rw [split, if_pos hmark, List.mem_cons] at h
        rcases h with rfl | hlater
        · exact List.not_mem_nil
        · exact ih hlater
      · cases hrest : split mark rest with
        | nil => exact absurd hrest (split_ne_nil mark rest)
        | cons first parts =>
            rw [split, if_neg hmark, hrest, List.mem_cons] at h
            rw [hrest] at ih
            rcases h with rfl | hlater
            · rw [List.mem_cons, not_or]
              exact ⟨Ne.symm hmark, ih List.mem_cons_self⟩
            · exact ih (List.mem_cons_of_mem first hlater)

theorem Text.join_eq_intercalate (mark : Char) (parts : List (List Char)) :
    join mark parts = [mark].intercalate parts := by
  induction parts with
  | nil => rfl
  | cons first rest ih =>
      cases rest with
      | nil => simp [join]
      | cons second rest => simp [join, ih]

namespace Path

variable {path : Path} {text : String}

/-- The path is what a text is cut into at its points. -/
structure Splits (path : Path) (text : String) : Prop where
  nonempty : path ≠ []
  plain (segment : String) (hsegment : segment ∈ path) : '.' ∉ segment.toList
  joined : ".".intercalate path = text

theorem text_eq_intercalate (path : Path) : path.text = ".".intercalate path := by
  apply String.toList_injective
  rw [Path.text, String.toList_ofList, Text.join_eq_intercalate, String.toList_intercalate]
  rfl

theorem splits_ofText (text : String) : (ofText text).Splits text where
  nonempty := ofText_ne_nil text
  plain segment hsegment := by
    obtain ⟨part, hpart, rfl⟩ := List.mem_map.mp hsegment
    rw [String.toList_ofList]
    exact Text.not_mem_of_mem_split hpart
  joined := by rw [← text_eq_intercalate, text_ofText]

theorem Splits.eq_ofText (h : path.Splits text) : path = ofText text := by
  have hparts : ∀ part ∈ path.map String.toList, '.' ∉ part := by
    intro part hpart
    obtain ⟨segment, hsegment, rfl⟩ := List.mem_map.mp hpart
    exact h.plain segment hsegment
  have hne : path.map String.toList ≠ [] := fun hnil => h.nonempty (List.map_eq_nil_iff.mp hnil)
  calc
    path = (path.map String.toList).map String.ofList := by simp [Function.comp_def]
    _ = (Text.split '.' (Text.join '.' (path.map String.toList))).map String.ofList := by
      rw [Text.split_join hne hparts]
    _ = ofText path.text := by rw [ofText, Path.text, String.toList_ofList]
    _ = ofText text := by rw [text_eq_intercalate, h.joined]

theorem ofText_injective : Function.Injective ofText := by
  intro text other h
  rw [← text_ofText text, h, text_ofText]

example : ofText ".a..b" = ["", "a", "", "b"] := by decide

end Path

/-! ### Runs of insertions -/

/-- The entry came last of those that were inserted at the text. -/
def LastInserted (inserted : List (String × Override)) (text : String) (entry : Override) : Prop :=
  ∃ earlier later, inserted = earlier ++ (text, entry) :: later ∧ text ∉ Assoc.keys later

section

variable {inserted : List (String × Override)} {text : String} {entry : Override}

theorem not_lastInserted_nil : ¬ LastInserted [] text entry := by
  rintro ⟨earlier, later, hnil, -⟩
  exact List.append_ne_nil_of_right_ne_nil earlier (List.cons_ne_nil _ later) hnil.symm

theorem lastInserted_append_iff {last : String × Override} :
    LastInserted (inserted ++ [last]) text entry ↔
      last = (text, entry) ∨ last.1 ≠ text ∧ LastInserted inserted text entry := by
  constructor
  · rintro ⟨earlier, later, heq, hlater⟩
    rcases List.eq_nil_or_concat later with rfl | ⟨between, final, rfl⟩
    · exact .inl (List.singleton_inj.mp (List.append_inj' heq rfl).2)
    · rw [List.concat_eq_append, ← List.cons_append, ← List.append_assoc] at heq
      obtain ⟨rfl, hfinal⟩ := List.append_inj' heq rfl
      obtain rfl := List.singleton_inj.mp hfinal
      rw [List.concat_eq_append, Assoc.keys, List.map_append, List.mem_append, not_or] at hlater
      exact .inr ⟨fun hsame => hlater.2 (List.mem_singleton.mpr hsame.symm),
        earlier, between, rfl, hlater.1⟩
  · rintro (rfl | ⟨hne, earlier, later, rfl, hlater⟩)
    · exact ⟨inserted, [], rfl, List.not_mem_nil⟩
    · refine ⟨earlier, later ++ [last], by rw [List.append_assoc, List.cons_append], ?_⟩
      rw [Assoc.keys, List.map_append, List.mem_append, not_or]
      exact ⟨hlater, fun hlast => hne (List.mem_singleton.mp hlast).symm⟩

theorem exists_lastInserted_iff :
    (∃ entry, LastInserted inserted text entry) ↔ text ∈ Assoc.keys inserted := by
  constructor
  · rintro ⟨entry, earlier, later, rfl, -⟩
    exact List.mem_map_of_mem (List.mem_append_right earlier List.mem_cons_self)
  · intro htext
    induction inserted with
    | nil => cases htext
    | cons first rest ih =>
        by_cases hlater : text ∈ Assoc.keys rest
        · obtain ⟨entry, earlier, later, rfl, hlast⟩ := ih hlater
          exact ⟨entry, first :: earlier, later, rfl, hlast⟩
        · obtain rfl : text = first.1 := (List.mem_cons.mp htext).resolve_right hlater
          exact ⟨first.2, [], rest, rfl, hlater⟩

end

namespace Overrides

variable {overrides : Overrides} {inserted : List (String × Override)}

def insertAll (overrides : Overrides) (entries : List (String × Override)) : Overrides :=
  entries.foldl (fun overrides (text, entry) => (overrides.insert text entry).2) overrides

theorem get?_insert_self (overrides : Overrides) (text : String) (entry : Override) :
    (overrides.insert text entry).2.get? (Path.ofText text) = some entry :=
  Assoc.get?_put_self (Path.ofText text) entry overrides.entries

theorem get?_insert_of_ne (overrides : Overrides) {text other : String} (hne : text ≠ other)
    (entry : Override) : (overrides.insert other entry).2.get? (Path.ofText text) =
      overrides.get? (Path.ofText text) :=
  Assoc.get?_put_of_ne (Path.ofText_injective.ne hne) entry overrides.entries

/-- What the overrides keep of the insertions so far. -/
structure Records (overrides : Overrides) (inserted : List (String × Override)) : Prop where
  dotted : overrides.Dotted
  distinct : overrides.segments.Nodup
  last (text : String) (entry : Override) :
    overrides.get? (Path.ofText text) = some entry ↔ LastInserted inserted text entry

theorem records_empty : empty.Records [] where
  dotted _ hpath := nomatch hpath
  distinct := List.nodup_nil
  last text entry := by
    constructor
    · intro hentry
      cases hentry
    · intro hlast
      exact absurd hlast not_lastInserted_nil

theorem Records.insert (h : overrides.Records inserted) (text : String) (entry : Override) :
    (overrides.insert text entry).2.Records (inserted ++ [(text, entry)]) where
  dotted := dotted_insert h.dotted text entry
  distinct := Assoc.nodup_keys_put h.distinct
  last other found := by
    rw [lastInserted_append_iff]
    by_cases hother : other = text
    · subst hother
      simp [get?_insert_self]
    · rw [get?_insert_of_ne overrides hother, h.last]
      simp [Ne.symm hother]

/-- The induction over a run: each insertion adds one to what is recorded. -/
theorem Records.insertAll (h : overrides.Records inserted) (more : List (String × Override)) :
    (overrides.insertAll more).Records (inserted ++ more) := by
  induction more generalizing overrides inserted with
  | nil => rwa [List.append_nil]
  | cons first rest ih =>
      have hrest := ih (h.insert first.1 first.2)
      rwa [List.append_assoc, List.singleton_append] at hrest

/-! ### What the overrides tell -/

theorem mem_segments_iff {path : Path} :
    path ∈ overrides.segments ↔ ∃ entry, overrides.get? path = some entry := by
  rw [segments, ← Assoc.get?_isSome_iff, Option.isSome_iff_exists]
  rfl

theorem Dotted.mem_paths_iff (h : overrides.Dotted) {text : String} :
    text ∈ overrides.paths ↔ Path.ofText text ∈ overrides.segments := by
  rw [mem_paths]
  constructor
  · rintro ⟨path, hpath, rfl⟩
    rwa [← h.eq_ofText hpath]
  · intro htext
    exact ⟨Path.ofText text, htext, Path.text_ofText text⟩

theorem sorted_of_nodup {texts : List String} (h : texts.Nodup) :
    (sorted texts).Pairwise (· < ·) := by
  have hordered : (sorted texts).Pairwise fun a b => decide (a ≤ b) = true := by
    apply List.pairwise_mergeSort
    · intro a b c hab hbc
      exact decide_eq_true ((of_decide_eq_true hab).trans (of_decide_eq_true hbc))
    · intro a b
      simpa using le_total a b
  have hdistinct : (sorted texts).Nodup := (List.mergeSort_perm texts _).nodup_iff.mpr h
  exact hordered.imp₂ (fun _ _ hle hne => lt_of_le_of_ne (of_decide_eq_true hle) hne) hdistinct

theorem Records.nodup_texts (h : overrides.Records inserted) :
    (overrides.segments.map Path.text).Nodup := by
  refine List.Nodup.map_on ?_ h.distinct
  intro path hpath other hother htext
  rw [h.dotted.eq_ofText hpath, htext, ← h.dotted.eq_ofText hother]

/-- The overrides after some insertions tell just what was inserted. -/
structure Faithful (overrides : Overrides) (inserted : List (String × Override)) : Prop where
  sorted : overrides.paths.Pairwise (· < ·)
  listed (text : String) : text ∈ overrides.paths ↔ text ∈ Assoc.keys inserted
  contained (path : Path) :
    overrides.contains path = true ↔ ∃ text ∈ Assoc.keys inserted, path.Splits text
  found (path : Path) (entry : Override) :
    overrides.get? path = some entry ↔ ∃ text, path.Splits text ∧ LastInserted inserted text entry
  displaced (text : String) (entry old : Override) :
    (overrides.insert text entry).1 = some old ↔ LastInserted inserted text old
  size : overrides.size = (Assoc.keys inserted).toFinset.card
  separate (text other : String) (hne : text ≠ other) (path : Path) (hsplits : path.Splits text)
    (entry : Override) : (overrides.insert other entry).2.get? path = overrides.get? path

theorem Records.found (h : overrides.Records inserted) (path : Path) (entry : Override) :
    overrides.get? path = some entry ↔
      ∃ text, path.Splits text ∧ LastInserted inserted text entry := by
  constructor
  · intro hentry
    obtain ⟨text, rfl⟩ := h.dotted path (mem_segments_iff.mpr ⟨entry, hentry⟩)
    exact ⟨text, Path.splits_ofText text, (h.last text entry).mp hentry⟩
  · rintro ⟨text, hsplits, hlast⟩
    rw [hsplits.eq_ofText]
    exact (h.last text entry).mpr hlast

theorem Records.contained (h : overrides.Records inserted) (path : Path) :
    overrides.contains path = true ↔ ∃ text ∈ Assoc.keys inserted, path.Splits text := by
  simp only [contains, Option.isSome_iff_exists, h.found, ← exists_lastInserted_iff]
  constructor
  · rintro ⟨entry, text, hsplits, hlast⟩
    exact ⟨text, ⟨entry, hlast⟩, hsplits⟩
  · rintro ⟨text, ⟨entry, hlast⟩, hsplits⟩
    exact ⟨entry, text, hsplits, hlast⟩

theorem Records.listed (h : overrides.Records inserted) (text : String) :
    text ∈ overrides.paths ↔ text ∈ Assoc.keys inserted :=
  calc
    text ∈ overrides.paths ↔ Path.ofText text ∈ overrides.segments := h.dotted.mem_paths_iff
    _ ↔ ∃ entry, overrides.get? (Path.ofText text) = some entry := mem_segments_iff
    _ ↔ ∃ entry, LastInserted inserted text entry := exists_congr (h.last text)
    _ ↔ text ∈ Assoc.keys inserted := exists_lastInserted_iff

theorem Records.faithful (h : overrides.Records inserted) : overrides.Faithful inserted := by
  have hsorted : overrides.paths.Pairwise (· < ·) := sorted_of_nodup h.nodup_texts
  refine ⟨hsorted, h.listed, h.contained, h.found, fun text _ old => h.last text old, ?_, ?_⟩
  · calc
      overrides.size = overrides.paths.length := by
        simp [size, paths, Overrides.sorted, segments, Assoc.keys]
      _ = overrides.paths.toFinset.card :=
        (List.toFinset_card_of_nodup (hsorted.imp ne_of_lt)).symm
      _ = (Assoc.keys inserted).toFinset.card := by
        congr 1
        ext text
        rw [List.mem_toFinset, List.mem_toFinset, h.listed]
  · intro text other hne path hsplits entry
    rw [hsplits.eq_ofText, get?_insert_of_ne overrides hne]

/-- After any run of insertions the overrides are faithful to the dotted paths: they list the texts
that were inserted, each once and in order, and find at the segments of each what came last. -/
theorem faithful_insertAll (inserted : List (String × Override)) :
    (empty.insertAll inserted).Faithful inserted :=
  (records_empty.insertAll inserted).faithful

example : (empty.insertAll [("..", .value .null), ("", .value .null), ("..", .value .null)]).paths =
    ["", ".."] := by cbv

end Overrides

end Specimen
