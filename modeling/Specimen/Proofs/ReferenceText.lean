import Mathlib.Data.List.DropRight
import Specimen.Schema.Reference

/-!
# References as text

Reading a reference forgets the slashes at the two ends of its path, and an absent `#`. What it gives
is written in one way only: the name, a `#`, and every segment after a slash, with tildes and slashes
escaped. Escaped segments hold no slash and the outer ones are not empty, so the path splits into them
again, and each escape is undone by the two replacements one after the other.
-/

namespace Specimen

/-! ### Marks at the ends -/

namespace Text

variable {mark : Char} {cs : List Char}

theorem trimEnds_eq_rdropWhile (mark : Char) (cs : List Char) :
    trimEnds mark cs = (cs.dropWhile (· = mark)).rdropWhile (· = mark) := rfl

theorem trimEnds_cons_self (mark : Char) (cs : List Char) :
    trimEnds mark (mark :: cs) = trimEnds mark cs := by
  simp [trimEnds]

theorem head?_dropWhile_ne (mark : Char) (cs : List Char) :
    (cs.dropWhile (· = mark)).head? ≠ some mark := by
  intro h
  have hnot := List.head?_dropWhile_not (fun c => decide (c = mark)) cs
  rw [h] at hnot
  simp at hnot

theorem head?_trimEnds_ne (mark : Char) (cs : List Char) :
    (trimEnds mark cs).head? ≠ some mark := by
  intro h
  obtain ⟨rest, hrest⟩ := List.rdropWhile_prefix (fun c => decide (c = mark))
    (l := cs.dropWhile (· = mark))
  apply head?_dropWhile_ne mark cs
  rw [← hrest, List.head?_append, ← trimEnds_eq_rdropWhile, h]
  rfl

theorem getLast?_trimEnds_ne (mark : Char) (cs : List Char) :
    (trimEnds mark cs).getLast? ≠ some mark := by
  rw [trimEnds, List.getLast?_reverse]
  exact head?_dropWhile_ne mark _

theorem mem_of_mem_trimEnds {c : Char} (h : c ∈ trimEnds mark cs) : c ∈ cs := by
  rw [trimEnds, List.mem_reverse] at h
  have hmem := (List.dropWhile_suffix _).subset h
  exact (List.dropWhile_suffix _).subset (List.mem_reverse.mp hmem)

theorem dropWhile_eq_self_of_head? (h : cs.head? ≠ some mark) :
    cs.dropWhile (· = mark) = cs := by
  cases cs with
  | nil => rfl
  | cons c rest =>
      have hne : c ≠ mark := fun heq => h (congrArg some heq)
      rw [List.dropWhile_cons_of_neg (by simpa using hne)]

theorem trimEnds_eq_self (hfirst : cs.head? ≠ some mark) (hlast : cs.getLast? ≠ some mark) :
    trimEnds mark cs = cs := by
  rw [trimEnds, dropWhile_eq_self_of_head? hfirst,
    dropWhile_eq_self_of_head? (by rwa [List.head?_reverse]), List.reverse_reverse]

/-! ### The ends of joined parts -/

theorem head?_join {first : List Char} (hne : first ≠ []) (rest : List (List Char)) :
    (join mark (first :: rest)).head? = first.head? := by
  cases rest with
  | nil => rfl
  | cons second rest =>
      rw [join_cons_cons]
      exact List.head?_append_of_ne_nil first hne

theorem join_ne_nil {first : List Char} (hne : first ≠ []) (rest : List (List Char)) :
    join mark (first :: rest) ≠ [] := by
  intro hnil
  have hhead : (join mark (first :: rest)).head? = first.head? := head?_join hne rest
  rw [hnil] at hhead
  exact hne (List.head?_eq_none_iff.mp hhead.symm)

theorem join_append_singleton (parts : List (List Char)) (hne : parts ≠ []) (last : List Char) :
    join mark (parts ++ [last]) = join mark parts ++ mark :: last := by
  induction parts with
  | nil => exact absurd rfl hne
  | cons first rest ih =>
      cases rest with
      | nil => rfl
      | cons second rest =>
          rw [List.cons_append, List.cons_append, join_cons_cons, join_cons_cons, List.append_assoc,
            List.cons_append, ← ih (List.cons_ne_nil _ _)]
          rfl

theorem getLast?_join {last : List Char} (hne : last ≠ []) (parts : List (List Char)) :
    (join mark (parts ++ [last])).getLast? = last.getLast? := by
  by_cases hparts : parts = []
  · rw [hparts]
    rfl
  · rw [join_append_singleton parts hparts, List.getLast?_append_of_ne_nil _ (List.cons_ne_nil _ _),
      List.getLast?_cons_of_ne_nil hne]

/-- Between outer parts that are not empty, joining starts and ends without the mark. -/
theorem trimEnds_join {parts : List (List Char)} (hparts : ∀ part ∈ parts, mark ∉ part)
    (hfirst : parts.head? ≠ some []) (hlast : parts.getLast? ≠ some []) :
    trimEnds mark (join mark parts) = join mark parts := by
  apply trimEnds_eq_self
  · cases parts with
    | nil => exact (Option.some_ne_none mark).symm
    | cons first rest =>
        rw [head?_join fun heq => hfirst (congrArg some heq)]
        exact fun h => hparts first List.mem_cons_self (List.mem_of_head? h)
  · rcases List.eq_nil_or_concat parts with rfl | ⟨front, last, rfl⟩
    · exact (Option.some_ne_none mark).symm
    · rw [List.concat_eq_append] at hparts hlast ⊢
      have hne : last ≠ [] := fun heq => hlast (by rw [heq, List.getLast?_concat])
      rw [getLast?_join hne]
      exact fun h => hparts last (by simp) (List.mem_of_getLast? h)

/-- A text that does not start with the mark has a first part. -/
theorem head?_split_ne (hne : cs ≠ []) (h : cs.head? ≠ some mark) :
    (split mark cs).head? ≠ some [] := by
  intro hsplit
  obtain ⟨rest, hparts⟩ := List.head?_eq_some_iff.mp hsplit
  have hcs := join_split mark cs
  rw [hparts] at hcs
  cases rest with
  | nil => exact hne hcs.symm
  | cons second rest => exact h (by rw [← hcs, join_cons_cons]; rfl)

theorem getLast?_split_ne (hne : cs ≠ []) (h : cs.getLast? ≠ some mark) :
    (split mark cs).getLast? ≠ some [] := by
  intro hsplit
  obtain ⟨front, hparts⟩ := List.getLast?_eq_some_iff.mp hsplit
  have hcs := join_split mark cs
  rw [hparts] at hcs
  by_cases hfront : front = []
  · rw [hfront] at hcs
    exact hne hcs.symm
  · rw [join_append_singleton front hfront] at hcs
    exact h (by rw [← hcs, List.getLast?_concat])

/-! ### Pairs written back -/

section Pairs

variable {first second new : Char}

theorem replacePair_cons_of_ne {c : Char} (h : c ≠ first) (rest : List Char) :
    replacePair first second new (c :: rest) = c :: replacePair first second new rest := by
  cases rest with
  | nil => rfl
  | cons next rest => rw [replacePair, if_neg fun heq => h heq.1]

theorem replacePair_cons_cons (rest : List Char) :
    replacePair first second new (first :: second :: rest) =
      new :: replacePair first second new rest := by
  rw [replacePair, if_pos ⟨rfl, rfl⟩]

theorem mem_of_mem_replacePair {c : Char} (h : c ∈ replacePair first second new cs) :
    c = new ∨ c ∈ cs := by
  induction cs using replacePair.induct first second with
  | case1 a b rest hpair ih =>
      rw [replacePair, if_pos hpair, List.mem_cons] at h
      rcases h with rfl | h
      · exact .inl rfl
      · exact (ih h).imp_right fun hrest => List.mem_cons_of_mem a (List.mem_cons_of_mem b hrest)
  | case2 a b rest hpair ih =>
      rw [replacePair, if_neg hpair, List.mem_cons] at h
      rcases h with rfl | h
      · exact .inr List.mem_cons_self
      · exact (ih h).imp_right (List.mem_cons_of_mem a)
  | case3 cs hshort =>
      rw [replacePair] at h
      · exact .inr h
      · exact hshort

theorem replacePair_eq_nil_iff : replacePair first second new cs = [] ↔ cs = [] := by
  rcases cs with _ | ⟨a, _ | ⟨b, rest⟩⟩
  · rfl
  · simp [replacePair]
  · by_cases hpair : a = first ∧ b = second <;> simp [replacePair, hpair]

end Pairs

end Text

namespace Reference

/-! ### Escaped segments -/

/-- The text with its tildes escaped, and nothing else: what undoing the slashes leaves. -/
def escapeTilde (c : Char) : List Char :=
  if c = '~' then ['~', '0'] else [c]

theorem replacePair_escapeChar (cs : List Char) :
    Text.replacePair '~' '1' '/' (cs.flatMap escapeChar) = cs.flatMap escapeTilde := by
  induction cs with
  | nil => rfl
  | cons c rest ih =>
      rw [List.flatMap_cons, List.flatMap_cons]
      by_cases htilde : c = '~'
      · subst htilde
        -- The `0` keeps the tilde from being read with what follows it.
        have hkept : Text.replacePair '~' '1' '/' ('0' :: rest.flatMap escapeChar) =
            '0' :: Text.replacePair '~' '1' '/' (rest.flatMap escapeChar) :=
          Text.replacePair_cons_of_ne (by decide) _
        change Text.replacePair '~' '1' '/' ('~' :: '0' :: rest.flatMap escapeChar) = _
        rw [Text.replacePair, if_neg (by decide), hkept, ih]
        rfl
      · by_cases hslash : c = '/'
        · subst hslash
          change Text.replacePair '~' '1' '/' ('~' :: '1' :: rest.flatMap escapeChar) = _
          rw [Text.replacePair_cons_cons, ih]
          rfl
        · rw [escapeChar, escapeTilde, if_neg htilde, if_neg hslash, if_neg htilde,
            List.singleton_append, Text.replacePair_cons_of_ne htilde, ih, List.singleton_append]

theorem replacePair_escapeTilde (cs : List Char) :
    Text.replacePair '~' '0' '~' (cs.flatMap escapeTilde) = cs := by
  induction cs with
  | nil => rfl
  | cons c rest ih =>
      rw [List.flatMap_cons]
      by_cases htilde : c = '~'
      · subst htilde
        change Text.replacePair '~' '0' '~' ('~' :: '0' :: rest.flatMap escapeTilde) = _
        rw [Text.replacePair_cons_cons, ih]
      · rw [escapeTilde, if_neg htilde, List.singleton_append, Text.replacePair_cons_of_ne htilde, ih]

theorem unescape_escape (segment : String) : unescape (escape segment).toList = segment.toList := by
  rw [escape, String.toList_ofList, unescape, replacePair_escapeChar, replacePair_escapeTilde]

/-- Escaping writes tildes and digits, and takes every slash away. -/
theorem mem_escape_cases {c : Char} {segment : String} (h : c ∈ (escape segment).toList) :
    c ∈ ['~', '0', '1'] ∨ c ∈ segment.toList ∧ c ≠ '/' := by
  rw [escape, String.toList_ofList, List.mem_flatMap] at h
  obtain ⟨written, hwritten, hc⟩ := h
  rw [escapeChar] at hc
  have hzero : ['~', '0'] ⊆ ['~', '0', '1'] := by decide
  have hone : ['~', '1'] ⊆ ['~', '0', '1'] := by decide
  split at hc
  · exact .inl (hzero hc)
  · split at hc
    · exact .inl (hone hc)
    next hslash =>
      obtain rfl := List.mem_singleton.mp hc
      exact .inr ⟨hwritten, hslash⟩

theorem slash_notMem_escape (segment : String) : '/' ∉ (escape segment).toList := by
  intro h
  rcases mem_escape_cases h with hmark | ⟨-, hne⟩
  · exact absurd hmark (by decide)
  · exact hne rfl

theorem hash_notMem_escape {segment : String} (h : '#' ∉ segment.toList) :
    '#' ∉ (escape segment).toList := by
  intro hmem
  rcases mem_escape_cases hmem with hmark | ⟨hsegment, -⟩
  · exact absurd hmark (by decide)
  · exact h hsegment

theorem escape_eq_nil_iff {segment : String} : (escape segment).toList = [] ↔ segment = "" := by
  rw [escape, String.toList_ofList, List.flatMap_eq_nil_iff, ← String.toList_eq_nil_iff,
    List.eq_nil_iff_forall_not_mem]
  refine forall_congr' fun c => imp_congr_right fun _ => iff_false_intro ?_
  rw [escapeChar]
  split
  · exact List.cons_ne_nil _ _
  · split <;> exact List.cons_ne_nil _ _

/-- Undoing escapes writes slashes and tildes only. -/
theorem hash_notMem_unescape {cs : List Char} (h : '#' ∉ cs) : '#' ∉ unescape cs := by
  intro hmem
  rcases Text.mem_of_mem_replacePair hmem with heq | hmem
  · exact absurd heq (by decide)
  rcases Text.mem_of_mem_replacePair hmem with heq | hmem
  · exact absurd heq (by decide)
  · exact h hmem

theorem unescape_eq_nil_iff {cs : List Char} : unescape cs = [] ↔ cs = [] := by
  rw [unescape, Text.replacePair_eq_nil_iff, Text.replacePair_eq_nil_iff]

/-- The parts of a path as they are written. -/
def escapedParts (segments : List String) : List (List Char) :=
  segments.map fun segment => (escape segment).toList

theorem slash_notMem_of_mem_escapedParts {segments : List String} :
    ∀ part ∈ escapedParts segments, '/' ∉ part := by
  rintro part hpart
  obtain ⟨segment, -, rfl⟩ := List.mem_map.mp hpart
  exact slash_notMem_escape segment

theorem map_escape_ne {found : Option String} (h : found ≠ some "") :
    found.map (fun segment => (escape segment).toList) ≠ some [] := by
  intro hnil
  obtain ⟨segment, rfl, hempty⟩ := Option.map_eq_some_iff.mp hnil
  exact h (congrArg some (escape_eq_nil_iff.mp hempty))

theorem map_unescape_ne {found : Option (List Char)} (h : found ≠ some []) :
    found.map (fun part => String.ofList (unescape part)) ≠ some "" := by
  intro hempty
  obtain ⟨part, rfl, hnil⟩ := Option.map_eq_some_iff.mp hempty
  rw [String.ofList_eq_empty_iff, unescape_eq_nil_iff] at hnil
  exact h (congrArg some hnil)

theorem map_unescape_escapedParts (segments : List String) :
    (escapedParts segments).map (fun part => String.ofList (unescape part)) = segments := by
  rw [escapedParts, List.map_map]
  refine (List.map_congr_left fun segment _ => ?_).trans (List.map_id segments)
  rw [Function.comp_apply, unescape_escape, String.ofList_toList, id]

/-! ### The path -/

/-- What is read from some text. A schema's name is not empty and no text holds a `#`; the path does
not start or end in an empty segment, though it may hold one. -/
structure Proper (r : Reference) : Prop where
  named : ∀ name, r.schema = some name → name ≠ "" ∧ '#' ∉ name.toList
  unmarked : ∀ segment ∈ r.segments, '#' ∉ segment.toList
  first : r.segments.head? ≠ some ""
  last : r.segments.getLast? ≠ some ""

/-- The path as it is written, every segment after a slash. -/
def written (segments : List String) : List Char :=
  segments.flatMap fun segment => '/' :: (escape segment).toList

theorem toList_pointer (r : Reference) : r.pointer.toList = '#' :: written r.segments := by
  have hfold : ∀ (segments : List String) (start : String),
      (segments.foldl (fun text segment => text ++ "/" ++ escape segment) start).toList =
        start.toList ++ written segments := by
    intro segments
    induction segments with
    | nil => intro start; simp [written]
    | cons segment rest ih =>
        intro start
        rw [List.foldl_cons, ih]
        simp [written]
  exact hfold r.segments "#"

theorem written_eq_join (segment : String) (rest : List String) :
    written (segment :: rest) = '/' :: Text.join '/' (escapedParts (segment :: rest)) := by
  induction rest generalizing segment with
  | nil => simp [written, escapedParts, Text.join]
  | cons second rest ih =>
      rw [written, List.flatMap_cons, ← written, ih second]
      rfl

theorem hash_notMem_written {segments : List String}
    (h : ∀ segment ∈ segments, '#' ∉ segment.toList) : '#' ∉ written segments := by
  rw [written, List.mem_flatMap]
  rintro ⟨segment, hsegment, hmem⟩
  rcases List.mem_cons.mp hmem with heq | hmem
  · exact absurd heq (by decide)
  · exact hash_notMem_escape (h segment hsegment) hmem

theorem segmentsOf_of_trimEnds_ne_nil {path : List Char} (h : Text.trimEnds '/' path ≠ []) :
    segmentsOf path =
      (Text.split '/' (Text.trimEnds '/' path)).map fun part => String.ofList (unescape part) := by
  rw [segmentsOf]
  split
  next hnil => exact absurd hnil h
  next => rfl

/-- A path that neither starts nor ends in an empty segment is read as it was written. -/
theorem segmentsOf_written {segments : List String} (hfirst : segments.head? ≠ some "")
    (hlast : segments.getLast? ≠ some "") : segmentsOf (written segments) = segments := by
  cases segments with
  | nil => rfl
  | cons segment rest =>
      have hhead : (escapedParts (segment :: rest)).head? ≠ some [] := map_escape_ne hfirst
      have htail : (escapedParts (segment :: rest)).getLast? ≠ some [] := by
        rw [escapedParts, List.getLast?_map]
        exact map_escape_ne hlast
      have hpath : Text.trimEnds '/' (written (segment :: rest)) =
          Text.join '/' (escapedParts (segment :: rest)) := by
        rw [written_eq_join, Text.trimEnds_cons_self]
        exact Text.trimEnds_join slash_notMem_of_mem_escapedParts hhead htail
      have hne : Text.join '/' (escapedParts (segment :: rest)) ≠ [] :=
        Text.join_ne_nil (fun hnil => hhead (congrArg some hnil)) _
      have hparts : Text.split '/' (Text.join '/' (escapedParts (segment :: rest))) =
          escapedParts (segment :: rest) :=
        Text.split_join (List.cons_ne_nil _ _) slash_notMem_of_mem_escapedParts
      rw [segmentsOf_of_trimEnds_ne_nil (hpath ▸ hne), hpath, hparts, map_unescape_escapedParts]

theorem unmarked_segmentsOf {path : List Char} (h : '#' ∉ path) :
    ∀ segment ∈ segmentsOf path, '#' ∉ segment.toList := by
  by_cases htrim : Text.trimEnds '/' path = []
  · simp [segmentsOf, htrim]
  · rw [segmentsOf_of_trimEnds_ne_nil htrim, List.forall_mem_map]
    intro part hpart
    rw [String.toList_ofList]
    refine hash_notMem_unescape fun hmem => h (@Text.mem_of_mem_trimEnds '/' _ _ ?_)
    rw [← Text.join_split '/' (Text.trimEnds '/' path)]
    exact Text.mem_of_mem_join hpart hmem

theorem head?_segmentsOf_ne (path : List Char) : (segmentsOf path).head? ≠ some "" := by
  by_cases htrim : Text.trimEnds '/' path = []
  · simp [segmentsOf, htrim]
  · rw [segmentsOf_of_trimEnds_ne_nil htrim, List.head?_map]
    exact map_unescape_ne (Text.head?_split_ne htrim (Text.head?_trimEnds_ne '/' path))

theorem getLast?_segmentsOf_ne (path : List Char) : (segmentsOf path).getLast? ≠ some "" := by
  by_cases htrim : Text.trimEnds '/' path = []
  · simp [segmentsOf, htrim]
  · rw [segmentsOf_of_trimEnds_ne_nil htrim, List.getLast?_map]
    exact map_unescape_ne (Text.getLast?_split_ne htrim (Text.getLast?_trimEnds_ne '/' path))

theorem proper_ofParts {schema path : List Char} (hschema : '#' ∉ schema) (hpath : '#' ∉ path) :
    (ofParts schema path).Proper where
  named name h := by
    rw [ofParts] at h
    split at h
    · cases h
    next hne =>
      cases h
      exact ⟨fun hempty => hne (String.ofList_eq_empty_iff.mp hempty), by rwa [String.toList_ofList]⟩
  unmarked := unmarked_segmentsOf hpath
  first := head?_segmentsOf_ne path
  last := getLast?_segmentsOf_ne path

/-! ### Reading what was written -/

variable {text : String} {schema path : List Char}

theorem parse_of_cutAt?_eq_some (h : Text.cutAt? '#' text.toList = some (schema, path)) :
    parse text =
      if '#' ∈ path then .error (.badReference text) else .ok (ofParts schema path) := by
  simp only [parse, h, List.contains_iff_mem]

theorem parse_of_cutAt?_eq_none (h : Text.cutAt? '#' text.toList = none) :
    parse text =
      if text = "" then .error (.badReference text) else .ok (ofParts text.toList []) := by
  simp only [parse, h]

theorem parse_eq_error_iff {e : SchemaError} :
    parse text = .error e ↔ e = .badReference text ∧ (text = "" ∨ 1 < text.toList.count '#') := by
  rcases hcut : Text.cutAt? '#' text.toList with _ | ⟨schema, path⟩
  · have hcount := List.count_eq_zero.mpr (Text.cutAt?_eq_none_iff.mp hcut)
    rw [parse_of_cutAt?_eq_none hcut, hcount]
    by_cases hempty : text = "" <;> simp [hempty, eq_comm]
  · obtain ⟨htext, hschema⟩ := Text.of_cutAt?_eq_some hcut
    have hne : text ≠ "" := fun hempty => by simp [hempty, Text.cutAt?] at hcut
    have hcount : text.toList.count '#' = path.count '#' + 1 := by
      rw [htext, List.count_append, List.count_eq_zero.mpr hschema, List.count_cons_self,
        Nat.zero_add]
    have hpath : 1 < path.count '#' + 1 ↔ '#' ∈ path := by
      rw [← List.count_pos_iff]
      omega
    rw [parse_of_cutAt?_eq_some hcut, hcount, hpath]
    by_cases hmem : '#' ∈ path <;> simp [hmem, hne, eq_comm]

theorem proper_of_parse {r : Reference} (h : parse text = .ok r) : r.Proper := by
  rcases hcut : Text.cutAt? '#' text.toList with _ | ⟨schema, path⟩
  · rw [parse_of_cutAt?_eq_none hcut] at h
    split at h
    · cases h
    · cases h
      exact proper_ofParts (Text.cutAt?_eq_none_iff.mp hcut) List.not_mem_nil
  · rw [parse_of_cutAt?_eq_some hcut] at h
    split at h
    · cases h
    next hmem =>
      cases h
      exact proper_ofParts (Text.of_cutAt?_eq_some hcut).2 hmem

/-- The parts that are read from what is written are the reference's own. -/
theorem ofParts_written {r : Reference} (h : r.Proper) :
    ofParts (r.schema.getD "").toList (written r.segments) = r := by
  rw [ofParts, segmentsOf_written h.first h.last]
  obtain ⟨_ | name, segments⟩ := r
  · rfl
  · have hne : name.toList ≠ [] := fun hnil =>
      (h.named name rfl).1 (String.toList_eq_nil_iff.mp hnil)
    rw [Option.getD_some, if_neg hne, String.ofList_toList]

theorem parse_text {r : Reference} (h : r.Proper) : parse r.text = .ok r := by
  have hname : '#' ∉ (r.schema.getD "").toList := by
    cases hschema : r.schema with
    | none => exact List.not_mem_nil
    | some name => exact (h.named name hschema).2
  have hcut : Text.cutAt? '#' r.text.toList =
      some ((r.schema.getD "").toList, written r.segments) := by
    rw [text, String.toList_append, toList_pointer, Text.cutAt?_append hname]
  rw [parse_of_cutAt?_eq_some hcut, if_neg (hash_notMem_written h.unmarked), ofParts_written h]

/-- Reading and writing references are inverse. Reading fails on the empty text and on one with a
second `#` alone; what it gives are the proper references, each of which is read again from its own
text, and so writing and reading once more changes nothing. -/
theorem parse_inverse_text :
    (∀ text e, parse text = .error e ↔
      e = .badReference text ∧ (text = "" ∨ 1 < text.toList.count '#')) ∧
    (∀ r : Reference, (∃ text, parse text = .ok r) ↔ r.Proper) ∧
    (∀ r : Reference, r.Proper → parse r.text = .ok r) ∧
    ∀ text r, parse text = .ok r → parse r.text = .ok r :=
  ⟨fun _ _ => parse_eq_error_iff,
    fun r => ⟨fun ⟨_, h⟩ => proper_of_parse h, fun h => ⟨r.text, parse_text h⟩⟩,
    fun _ => parse_text, fun _ _ h => parse_text (proper_of_parse h)⟩

/-- Slashes and tildes inside segments, an empty segment between others, and a path of slashes alone. -/
theorem parse_inverse_text_escaped :
    let r : Reference := ⟨some "Base", ["definitions", "a/b", "", "c~d"]⟩
    let whole : Reference := ⟨some "Base", []⟩
    (r.Proper ∧ r.text = "Base#/definitions/a~1b//c~0d" ∧ parse r.text = .ok r) ∧
      parse "Base#//" = .ok whole ∧ whole.text = "Base#" ∧ parse whole.text = .ok whole := by
  intro r whole
  have hproper : r.Proper :=
    { named := by rintro name ⟨⟩; decide +kernel
      unmarked := by decide +kernel
      first := by decide
      last := by decide }
  have hparse : parse "Base#//" = .ok whole := rfl
  exact ⟨⟨hproper, by decide +kernel, parse_inverse_text.2.2.1 r hproper⟩,
    hparse, by decide +kernel, parse_inverse_text.2.2.2 "Base#//" whole hparse⟩

end Reference

end Specimen
