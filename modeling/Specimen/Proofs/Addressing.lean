import Specimen.Proofs.Merging
import Specimen.Proofs.ReferenceText

/-!
# Addresses

Every node of a document can be pointed at. The keys and places on the way down to it are the
segments of a pointer, and that pointer, written out and read again, leads to the node. A pointer
that leads nowhere is reported with the first of its segments that has no child.
-/

namespace Specimen

namespace Text

/-! ### Numbers as segments -/

theorem decimalValue_eq_ofDigitChars (cs : List Char) :
    decimalValue cs = Nat.ofDigitChars 10 cs 0 := by
  have hfold : ∀ (cs : List Char) (start : Nat),
      cs.foldl (fun n c => n * 10 + (c.toNat - 48)) start = Nat.ofDigitChars 10 cs start := by
    intro cs
    induction cs with
    | nil => intro start; rfl
    | cons c rest ih =>
        intro start
        rw [List.foldl_cons, ih, Nat.mul_comm]
        rfl
  exact hfold cs 0

theorem natural?_of_digits {cs : List Char} (hne : cs ≠ []) (hdigits : ∀ c ∈ cs, c.isDigit = true) :
    natural? cs = some (decimalValue cs) := by
  have hplain : ∀ rest, cs ≠ '+' :: rest := by
    rintro rest rfl
    exact absurd (hdigits '+' List.mem_cons_self) (by decide)
  rw [natural?]
  · exact if_pos ⟨hne, List.all_eq_true.mpr hdigits⟩
  · exact hplain

theorem natural?_toDigits (n : Nat) : natural? (Nat.toDigits 10 n) = some n := by
  have hdigits : ∀ c ∈ Nat.toDigits 10 n, c.isDigit = true := fun c hc =>
    Nat.isDigit_of_mem_toDigits (by decide) (by decide) hc
  rw [natural?_of_digits Nat.toDigits_ne_nil hdigits, decimalValue_eq_ofDigitChars,
    Nat.ofDigitChars_ten_toDigits]

end Text

/-- A step as a segment of a pointer. A place is written in decimal digits. -/
def Step.text : Step → String
  | .member key => key
  | .item place => toString place

namespace Reference

theorem toList_text_item (place : Nat) :
    (Step.item place).text.toList = Nat.toDigits 10 place := by
  rw [Step.text, Nat.toString_eq_ofList_toDigits, String.toList_ofList]

theorem position?_text {place : Nat} (h : place < 0x10000000000000000) :
    position? (Step.item place).text = some place := by
  rw [position?, toList_text_item, Text.natural?_toDigits, Option.filter_some,
    if_pos (decide_eq_true h)]

theorem hash_notMem_text {step : Step} (h : ∀ key, step = .member key → '#' ∉ key.toList) :
    '#' ∉ step.text.toList := by
  cases step with
  | member key => exact h key rfl
  | item place =>
      rw [toList_text_item]
      intro hmem
      exact absurd (Nat.isDigit_of_mem_toDigits (by decide) (by decide) hmem) (by decide)

/-! ### Where segments lead -/

/-- Segments lead from a document to a node of it, one child after the other. -/
inductive Resolves : Json → List String → Json → Prop where
  | here {node : Json} : Resolves node [] node
  | member {members : List (String × Json)} {key : String} {child target : Json}
      {rest : List String} (found : Assoc.get? key members = some child)
      (leads : Resolves child rest target) : Resolves (.obj members) (key :: rest) target
  | item {items : List Json} {segment : String} {place : Nat} {child target : Json}
      {rest : List String} (number : position? segment = some place)
      (found : items[place]? = some child) (leads : Resolves child rest target) :
      Resolves (.arr items) (segment :: rest) target

/-- The ways in which a segment names no child of a node. -/
inductive Childless : Json → String → Prop where
  | missingKey {members : List (String × Json)} {key : String} (missing : key ∉ Assoc.keys members) :
      Childless (.obj members) key
  | notNumber {items : List Json} {segment : String} (none : position? segment = none) :
      Childless (.arr items) segment
  | outOfRange {items : List Json} {segment : String} {place : Nat}
      (number : position? segment = some place) (beyond : items.length ≤ place) :
      Childless (.arr items) segment
  | scalar {node : Json} {segment : String} (scalar : node.container? = none) :
      Childless node segment

variable {document node child target : Json} {segment : String} {segments rest : List String}

theorem Resolves.cons (h : child? node segment = some child) (leads : Resolves child rest target) :
    Resolves node (segment :: rest) target := by
  cases node with
  | obj members => exact .member h leads
  | arr items =>
      obtain ⟨place, hnumber, hfound⟩ := Option.bind_eq_some_iff.mp h
      exact .item hnumber hfound leads
  | _ => cases h

theorem Resolves.exists_child? (h : Resolves node (segment :: rest) target) :
    ∃ child, child? node segment = some child ∧ Resolves child rest target := by
  cases h with
  | member found leads => exact ⟨_, found, leads⟩
  | item number found leads => exact ⟨_, Option.bind_eq_some_iff.mpr ⟨_, number, found⟩, leads⟩

theorem childless_iff : Childless node segment ↔ child? node segment = none := by
  constructor
  · intro h
    cases h with
    | missingKey missing => exact Assoc.get?_eq_none_iff.mpr missing
    | notNumber none => rw [child?, none, Option.bind_none]
    | outOfRange number beyond =>
        rw [child?, number, Option.bind_some, List.getElem?_eq_none beyond]
    | scalar scalar =>
        cases node with
        | obj members => cases scalar
        | arr items => cases scalar
        | _ => rfl
  · intro h
    cases node with
    | obj members => exact .missingKey (Assoc.get?_eq_none_iff.mp h)
    | arr items =>
        cases hnumber : position? segment with
        | none => exact .notNumber hnumber
        | some place =>
            rw [child?, hnumber, Option.bind_some] at h
            exact .outOfRange hnumber (List.getElem?_eq_none_iff.mp h)
    | _ => exact .scalar rfl

theorem follow_of_child? (h : child? node segment = some child) (rest : List String) :
    follow node (segment :: rest) = follow child rest := by
  simp only [follow, h]

theorem follow_eq_ok_iff : follow document segments = .ok node ↔ Resolves document segments node := by
  induction segments generalizing document with
  | nil =>
      rw [follow, Except.ok.injEq]
      exact ⟨fun h => h ▸ .here, fun h => by cases h; rfl⟩
  | cons segment rest ih =>
      constructor
      · intro h
        cases hchild : child? document segment with
        | none => simp only [follow, hchild, reduceCtorEq] at h
        | some child =>
            rw [follow_of_child? hchild] at h
            exact .cons hchild (ih.mp h)
      · intro h
        obtain ⟨child, hchild, hleads⟩ := h.exists_child?
        rw [follow_of_child? hchild]
        exact ih.mpr hleads

theorem follow_eq_error_iff : follow document segments = .error segment ↔
    ∃ before after node, segments = before ++ segment :: after ∧ Resolves document before node ∧
      Childless node segment := by
  induction segments generalizing document with
  | nil => simp [follow]
  | cons first rest ih =>
      cases hchild : child? document first with
      | none =>
          have hfollow : follow document (first :: rest) = .error first := by
            simp only [follow, hchild]
          rw [hfollow, Except.error.injEq]
          constructor
          · rintro rfl
            exact ⟨[], rest, document, rfl, .here, childless_iff.mpr hchild⟩
          · rintro ⟨before, after, node, hsplit, hleads, -⟩
            cases before with
            | nil => exact (List.cons.inj hsplit).1
            | cons step before =>
                -- The first segment has no child, so nothing is resolved after it.
                obtain ⟨rfl, -⟩ := List.cons.inj hsplit
                obtain ⟨child, hfound, -⟩ := hleads.exists_child?
                cases hchild.symm.trans hfound
      | some child =>
          rw [follow_of_child? hchild, ih]
          constructor
          · rintro ⟨before, after, node, rfl, hleads, hend⟩
            exact ⟨first :: before, after, node, rfl, .cons hchild hleads, hend⟩
          · rintro ⟨before, after, node, hsplit, hleads, hend⟩
            cases before with
            | nil =>
                obtain ⟨rfl, -⟩ := List.cons.inj hsplit
                cases hleads
                cases (childless_iff.mp hend).symm.trans hchild
            | cons step before =>
                obtain ⟨rfl, rfl⟩ := List.cons.inj hsplit
                obtain ⟨found, hfound, hrest⟩ := hleads.exists_child?
                obtain rfl := Option.some.inj (hfound.symm.trans hchild)
                exact ⟨before, after, node, rfl, hrest, hend⟩

theorem child?_text {step : Step} (hplace : ∀ place, step = .item place → place < 0x10000000000000000)
    (h : node.child? step = some child) : child? node step.text = some child := by
  cases step with
  | member key =>
      cases node with
      | obj members => exact h
      | _ => cases h
  | item place =>
      cases node with
      | arr items => rw [child?, position?_text (hplace place rfl), Option.bind_some]; exact h
      | _ => cases h

/-- The segments of a route lead where the route does. -/
theorem resolves_text {route : Route}
    (hplaces : ∀ place, .item place ∈ route → place < 0x10000000000000000)
    (h : document.at? route = some node) : Resolves document (route.map Step.text) node := by
  induction route generalizing document with
  | nil =>
      obtain rfl := Option.some.inj h
      exact .here
  | cons step rest ih =>
      obtain ⟨child, hchild, hrest⟩ := Json.exists_child?_of_at?_cons h
      refine .cons (child?_text ?_ hchild) (ih ?_ hrest)
      · rintro place rfl
        exact hplaces place List.mem_cons_self
      · exact fun place hplace => hplaces place (List.mem_cons_of_mem step hplace)

/-! ### Pointers and lookups -/

theorem lookup_eq_ok_iff {r : Reference} {schema : String} :
    r.lookup document schema = .ok node ↔ Resolves document r.segments node := by
  rw [lookup, ← follow_eq_ok_iff]
  cases follow document r.segments <;> simp

theorem lookup_eq_error_iff {r : Reference} {schema : String} {e : SchemaError} :
    r.lookup document schema = .error e ↔ ∃ before segment after node,
      r.segments = before ++ segment :: after ∧ Resolves document before node ∧
        Childless node segment ∧
        e = .missingSegment schema (String.ofList ('#' :: written r.segments)) segment := by
  have hpointer : String.ofList ('#' :: written r.segments) = r.pointer := by
    rw [← toList_pointer, String.ofList_toList]
  rw [lookup, hpointer]
  cases hfollow : follow document r.segments with
  | ok node =>
      simp only [reduceCtorEq, false_iff]
      rintro ⟨before, segment, after, here, hsplit, hleads, hend, -⟩
      have herror := follow_eq_error_iff.mpr ⟨before, after, here, hsplit, hleads, hend⟩
      cases hfollow.symm.trans herror
  | error segment =>
      rw [Except.error.injEq]
      constructor
      · rintro rfl
        obtain ⟨before, after, node, hsplit, hleads, hend⟩ := follow_eq_error_iff.mp hfollow
        exact ⟨before, segment, after, node, hsplit, hleads, hend, rfl⟩
      · rintro ⟨before, other, after, node, hsplit, hleads, hend, rfl⟩
        have herror := follow_eq_error_iff.mpr ⟨before, after, node, hsplit, hleads, hend⟩
        obtain rfl := Except.error.inj (hfollow.symm.trans herror)
        rfl

theorem parse_written {segments : List String} (hmarks : ∀ segment ∈ segments, '#' ∉ segment.toList)
    (hfirst : segments.head? ≠ some "") (hlast : segments.getLast? ≠ some "") :
    parse (String.ofList ('#' :: written segments)) = .ok ⟨none, segments⟩ := by
  have hproper : (⟨none, segments⟩ : Reference).Proper :=
    { named := by rintro name ⟨⟩
      unmarked := hmarks
      first := hfirst
      last := hlast }
  have htext : (⟨none, segments⟩ : Reference).text = String.ofList ('#' :: written segments) := by
    rw [← String.toList_inj, text, String.toList_append, toList_pointer, String.toList_ofList]
    rfl
  rw [← htext]
  exact parse_text hproper

/-- Every node is found again from its address, and a lookup that fails names the first segment
without a child. The address is read from the keys and places on the way down, as far as no key holds
a `#` and the path does not start or end in an empty key; places are such as 64 bits can count. -/
theorem lookup_address :
    (∀ (document node : Json) (route : Route) (schema : String),
      document.at? route = some node →
      (∀ place, .item place ∈ route → place < 0x10000000000000000) →
      (∀ key, .member key ∈ route → '#' ∉ key.toList) →
      (route.map Step.text).head? ≠ some "" → (route.map Step.text).getLast? ≠ some "" →
      ∃ r, parse (String.ofList ('#' :: written (route.map Step.text))) = .ok r ∧
        r.lookup document schema = .ok node) ∧
    ∀ (r : Reference) (document : Json) (schema : String) (e : SchemaError),
      r.lookup document schema = .error e ↔ ∃ before segment after node,
        r.segments = before ++ segment :: after ∧ Resolves document before node ∧
          Childless node segment ∧
          e = .missingSegment schema (String.ofList ('#' :: written r.segments)) segment := by
  constructor
  · intro document node route schema hnode hplaces hkeys hfirst hlast
    have hmarks : ∀ segment ∈ route.map Step.text, '#' ∉ segment.toList := by
      rw [List.forall_mem_map]
      intro step hstep
      exact hash_notMem_text fun key hkey => hkeys key (hkey ▸ hstep)
    exact ⟨⟨none, route.map Step.text⟩, parse_written hmarks hfirst hlast,
      lookup_eq_ok_iff.mpr (resolves_text hplaces hnode)⟩
  · intro r document schema e
    exact lookup_eq_error_iff

/-- A document with keys that hold the marks of pointers, or look like places, and an empty one. -/
def addressed : Json :=
  .obj [("a/b", .arr [.null, .obj [("", .obj [("~1", .arr [.obj [("0", .bool true)]])])]])]

/-- Down to the member `0`, through an escaped key, a place, an empty key, a key that is written like
an escape and another place. What is missing below is named, with all that was asked for. -/
theorem lookup_address_addressed :
    let route : Route := [.member "a/b", .item 1, .member "", .member "~1", .item 0, .member "0"]
    let beyond : Reference := ⟨none, ["a/b", "+2", "c~d"]⟩
    (addressed.at? route = some (.bool true) ∧
      String.ofList ('#' :: written (route.map Step.text)) = "#/a~1b/1//~01/0/0" ∧
      ∃ r, parse "#/a~1b/1//~01/0/0" = .ok r ∧ r.lookup addressed "Base" = .ok (.bool true)) ∧
      beyond.lookup addressed "Base" = .error (.missingSegment "Base" "#/a~1b/+2/c~0d" "+2") := by
  intro route beyond
  have hroute : addressed.at? route = some (.bool true) := rfl
  have htext : String.ofList ('#' :: written (route.map Step.text)) = "#/a~1b/1//~01/0/0" := by
    decide +kernel
  have hplaces : ∀ place, .item place ∈ route → place < 0x10000000000000000 := by
    simp +contextual [route]
  have hkeys : ∀ key, .member key ∈ route → '#' ∉ key.toList := by
    simp +contextual [route]
  have hfound := lookup_address.1 addressed (.bool true) route "Base" hroute hplaces hkeys
    (by decide) (by decide)
  rw [htext] at hfound
  refine ⟨⟨hroute, htext, hfound⟩, (lookup_address.2 beyond addressed "Base" _).mpr ?_⟩
  refine ⟨["a/b"], "+2", ["c~d"], _, rfl, .member rfl .here, .outOfRange rfl (Nat.le_refl _), ?_⟩
  exact congrArg (SchemaError.missingSegment "Base" · "+2") (by decide +kernel)

end Reference

end Specimen
