import Mathlib.Tactic.MkIffOfInductiveProp
import Specimen.Proofs.Run

/-!
# Reading constraints by key

Constraints are read member by member, in the order of the members. What comes out depends only on
what stands under each of the eleven keywords, with null for absent; the order decides at most which
of several errors is met first.
-/

namespace Specimen

namespace Json

/-- What was looked up, with null counted as absent. -/
def nonNull : Option Json → Option Json
  | some .null => none
  | found => found

theorem nonNull_nonNull (found : Option Json) : nonNull (nonNull found) = nonNull found := by
  cases found with
  | none => rfl
  | some value => cases value <;> rfl

/-- The value under a key, with null counted as absent. -/
def value? (key : String) (node : Json) : Option Json :=
  nonNull (node.get? key)

theorem present?_eq_value? (keyword : Keyword) (node : Json) :
    node.present? keyword = node.value? keyword.text := by
  rw [present?, value?]
  cases node.get? keyword.text with
  | none => rfl
  | some value => cases value <;> rfl

end Json

namespace Constraints

/-- The keywords that constraints are read from. -/
def keywords : List String :=
  ["minimum", "maximum", "exclusiveMinimum", "exclusiveMaximum", "multipleOf", "minLength",
    "maxLength", "pattern", "format", "minItems", "maxItems"]

/-- One field after its keyword was looked up: as before if the keyword is absent, and else what is
read from its value. -/
def Sets {α : Type} (read : Json → Except ConstraintError (Option α)) (found : Option Json)
    (old new : Option α) : Prop :=
  match found with
  | .none => new = old
  | some value => read value = .ok new

/-- Every field is as its own keyword says. -/
@[mk_iff]
structure Reads (found : String → Option Json) (old new : Constraints) : Prop where
  minimum : Sets readNumber (found "minimum") old.minimum new.minimum
  maximum : Sets readNumber (found "maximum") old.maximum new.maximum
  exclusiveMinimum :
    Sets readExclusive (found "exclusiveMinimum") old.exclusiveMinimum new.exclusiveMinimum
  exclusiveMaximum :
    Sets readExclusive (found "exclusiveMaximum") old.exclusiveMaximum new.exclusiveMaximum
  multipleOf : Sets readNumber (found "multipleOf") old.multipleOf new.multipleOf
  minLength : Sets readCount (found "minLength") old.minLength new.minLength
  maxLength : Sets readCount (found "maxLength") old.maxLength new.maxLength
  pattern : Sets readText (found "pattern") old.pattern new.pattern
  format : Sets readText (found "format") old.format new.format
  minItems : Sets readCount (found "minItems") old.minItems new.minItems
  maxItems : Sets readCount (found "maxItems") old.maxItems new.maxItems

section Fields

variable {α : Type} {read : Json → Except ConstraintError (Option α)} {key field : String}
  {value : Json} {tail : List (String × Json)} {old mid new : Option α}

theorem sets_of_ne (h : key ≠ field) :
    Sets read (if key = field then some value else .none) old new ↔ new = old := by
  rw [if_neg h]
  rfl

/-- A key that is not among the members is found where it is put before them. -/
theorem Sets.trans (hfresh : Assoc.get? key tail = .none)
    (hfirst : Sets read (if key = field then some value else .none) old mid)
    (hrest : Sets read (Assoc.get? field tail) mid new) :
    Sets read (Assoc.get? field ((key, value) :: tail)) old new := by
  rw [Assoc.get?]
  by_cases hkey : key = field
  · rw [if_pos hkey] at hfirst ⊢
    rw [← hkey, hfresh] at hrest
    obtain rfl : new = mid := hrest
    exact hfirst
  · rw [if_neg hkey] at hfirst ⊢
    obtain rfl : mid = old := hfirst
    exact hrest

theorem Sets.first (h : Sets read (Assoc.get? field ((key, value) :: tail)) old new) :
    Sets read (if key = field then some value else .none) old (if key = field then new else old) := by
  by_cases hkey : key = field
  · rw [Assoc.get?, if_pos hkey] at h
    rw [if_pos hkey, if_pos hkey]
    exact h
  · rw [if_neg hkey, if_neg hkey]
    rfl

theorem Sets.later (hfresh : Assoc.get? key tail = .none)
    (h : Sets read (Assoc.get? field ((key, value) :: tail)) old new) :
    Sets read (Assoc.get? field tail) (if key = field then new else old) new := by
  by_cases hkey : key = field
  · rw [if_pos hkey, ← hkey, hfresh]
    rfl
  · rw [Assoc.get?, if_neg hkey] at h
    rw [if_neg hkey]
    exact h

/-- Null leaves a field without a value as it is. -/
theorem Sets.of_nonNull_eq {found other : Option Json} (hnull : read .null = .ok .none)
    (hsame : Json.nonNull found = Json.nonNull other) (h : Sets read found .none new) :
    Sets read other .none new := by
  have hread (x : Option Json) : Sets read x .none new ↔ Sets read (Json.nonNull x) .none new := by
    match x with
    | some .null =>
        change read .null = .ok new ↔ new = .none
        rw [hnull, Except.ok.injEq]
        exact eq_comm
    | .none | some (.bool _) | some (.int _) | some (.float _) | some (.str _) | some (.arr _)
    | some (.obj _) => exact Iff.rfl
  rw [hread, ← hsame, ← hread]
  exact h

end Fields

section Members

variable {key : String} {value : Json} {tail members others : List (String × Json)}
  {old mid new : Constraints}

theorem readMember_eq_ok : old.readMember key value = .ok new ↔
    Reads (fun field => if key = field then some value else .none) old new := by
  cases old
  cases new
  rw [readMember.eq_def, reads_iff]
  split
  case h_12 a b c d e f g h i j k =>
    rw [sets_of_ne a, sets_of_ne b, sets_of_ne c, sets_of_ne d, sets_of_ne e, sets_of_ne f,
      sets_of_ne g, sets_of_ne h, sets_of_ne i, sets_of_ne j, sets_of_ne k]
    simp only [Except.ok.injEq, mk.injEq]
    grind
  all_goals
    simp only [Outcome.bind_eq_ok, Outcome.pure_eq_ok, mk.injEq, reduceIte, String.reduceEq, Sets]
    grind

theorem Reads.trans (hfresh : Assoc.get? key tail = .none)
    (hfirst : Reads (fun field => if key = field then some value else .none) old mid)
    (hrest : Reads (Assoc.get? · tail) mid new) :
    Reads (Assoc.get? · ((key, value) :: tail)) old new where
  minimum := hfirst.minimum.trans hfresh hrest.minimum
  maximum := hfirst.maximum.trans hfresh hrest.maximum
  exclusiveMinimum := hfirst.exclusiveMinimum.trans hfresh hrest.exclusiveMinimum
  exclusiveMaximum := hfirst.exclusiveMaximum.trans hfresh hrest.exclusiveMaximum
  multipleOf := hfirst.multipleOf.trans hfresh hrest.multipleOf
  minLength := hfirst.minLength.trans hfresh hrest.minLength
  maxLength := hfirst.maxLength.trans hfresh hrest.maxLength
  pattern := hfirst.pattern.trans hfresh hrest.pattern
  format := hfirst.format.trans hfresh hrest.format
  minItems := hfirst.minItems.trans hfresh hrest.minItems
  maxItems := hfirst.maxItems.trans hfresh hrest.maxItems

/-- The constraints with the field of one key taken over from others. -/
def update (key : String) (old new : Constraints) : Constraints where
  minimum := if key = "minimum" then new.minimum else old.minimum
  maximum := if key = "maximum" then new.maximum else old.maximum
  exclusiveMinimum := if key = "exclusiveMinimum" then new.exclusiveMinimum else old.exclusiveMinimum
  exclusiveMaximum := if key = "exclusiveMaximum" then new.exclusiveMaximum else old.exclusiveMaximum
  multipleOf := if key = "multipleOf" then new.multipleOf else old.multipleOf
  minLength := if key = "minLength" then new.minLength else old.minLength
  maxLength := if key = "maxLength" then new.maxLength else old.maxLength
  pattern := if key = "pattern" then new.pattern else old.pattern
  format := if key = "format" then new.format else old.format
  minItems := if key = "minItems" then new.minItems else old.minItems
  maxItems := if key = "maxItems" then new.maxItems else old.maxItems

theorem Reads.first (h : Reads (Assoc.get? · ((key, value) :: tail)) old new) :
    Reads (fun field => if key = field then some value else .none) old (update key old new) where
  minimum := h.minimum.first
  maximum := h.maximum.first
  exclusiveMinimum := h.exclusiveMinimum.first
  exclusiveMaximum := h.exclusiveMaximum.first
  multipleOf := h.multipleOf.first
  minLength := h.minLength.first
  maxLength := h.maxLength.first
  pattern := h.pattern.first
  format := h.format.first
  minItems := h.minItems.first
  maxItems := h.maxItems.first

theorem Reads.later (hfresh : Assoc.get? key tail = .none)
    (h : Reads (Assoc.get? · ((key, value) :: tail)) old new) :
    Reads (Assoc.get? · tail) (update key old new) new where
  minimum := h.minimum.later hfresh
  maximum := h.maximum.later hfresh
  exclusiveMinimum := h.exclusiveMinimum.later hfresh
  exclusiveMaximum := h.exclusiveMaximum.later hfresh
  multipleOf := h.multipleOf.later hfresh
  minLength := h.minLength.later hfresh
  maxLength := h.maxLength.later hfresh
  pattern := h.pattern.later hfresh
  format := h.format.later hfresh
  minItems := h.minItems.later hfresh
  maxItems := h.maxItems.later hfresh

theorem Reads.eq_of_nil (h : Reads (Assoc.get? · []) old new) : old = new := by
  cases old
  cases new
  obtain ⟨rfl, rfl, rfl, rfl, rfl, rfl, rfl, rfl, rfl, rfl, rfl⟩ := h
  rfl

/-- With distinct keys the order of the members does not matter to a reading that succeeds. -/
theorem readMembers_eq_ok (hdistinct : (Assoc.keys members).Nodup) :
    old.readMembers members = .ok new ↔ Reads (Assoc.get? · members) old new := by
  induction members generalizing old with
  | nil =>
      rw [readMembers, Except.ok.injEq]
      constructor
      · rintro rfl
        constructor <;> rfl
      · exact Reads.eq_of_nil
  | cons member rest ih =>
      obtain ⟨key, value⟩ := member
      simp only [Assoc.keys, List.map_cons, List.nodup_cons] at hdistinct
      have hfresh : Assoc.get? key rest = .none := by
        rw [← Option.not_isSome_iff_eq_none, Assoc.get?_isSome_iff]
        exact hdistinct.1
      have ih {old : Constraints} := @ih old hdistinct.2
      rw [readMembers]
      constructor
      · intro h
        cases hfirst : old.readMember key value with
        | error e =>
            rw [hfirst] at h
            cases h
        | ok mid =>
            rw [hfirst] at h
            exact (readMember_eq_ok.mp hfirst).trans hfresh (ih.mp h)
      · intro h
        rw [readMember_eq_ok.mpr h.first]
        exact ih.mpr (h.later hfresh)

theorem Reads.of_nonNull_eq {found other : String → Option Json}
    (hsame : ∀ key ∈ keywords, Json.nonNull (found key) = Json.nonNull (other key))
    (h : Reads found Constraints.none new) : Reads other Constraints.none new where
  minimum := h.minimum.of_nonNull_eq rfl (hsame _ (by decide))
  maximum := h.maximum.of_nonNull_eq rfl (hsame _ (by decide))
  exclusiveMinimum := h.exclusiveMinimum.of_nonNull_eq rfl (hsame _ (by decide))
  exclusiveMaximum := h.exclusiveMaximum.of_nonNull_eq rfl (hsame _ (by decide))
  multipleOf := h.multipleOf.of_nonNull_eq rfl (hsame _ (by decide))
  minLength := h.minLength.of_nonNull_eq rfl (hsame _ (by decide))
  maxLength := h.maxLength.of_nonNull_eq rfl (hsame _ (by decide))
  pattern := h.pattern.of_nonNull_eq rfl (hsame _ (by decide))
  format := h.format.of_nonNull_eq rfl (hsame _ (by decide))
  minItems := h.minItems.of_nonNull_eq rfl (hsame _ (by decide))
  maxItems := h.maxItems.of_nonNull_eq rfl (hsame _ (by decide))

/-- Two objects with the same values under the keywords for constraints, null counted as absent, have
the same constraints. -/
theorem ofNode_eq_ok_of_value?_eq (hdistinct : (Assoc.keys members).Nodup)
    (hdistinct' : (Assoc.keys others).Nodup)
    (hsame : ∀ key ∈ keywords, (Json.obj members).value? key = (Json.obj others).value? key)
    (h : ofNode (.obj members) = .ok new) : ofNode (.obj others) = .ok new := by
  rw [ofNode] at h ⊢
  cases hread : readMembers none members with
  | error e =>
      rw [hread] at h
      cases h
  | ok found =>
      rw [hread] at h
      cases h
      have hreads := ((readMembers_eq_ok hdistinct).mp hread).of_nonNull_eq hsame
      rw [(readMembers_eq_ok hdistinct').mpr hreads]

end Members

end Constraints

end Specimen
