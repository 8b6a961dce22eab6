import Specimen.Proofs.Lockstep

/-!
# Qualified pointers

A local pointer can be qualified by the name of the document it stands in. Two values of which one
has some of its local pointers qualified stay so when members are looked up, taken away or written,
and when such values are laid over each other.
-/

namespace Specimen

/-- The text of a local pointer and the same with a name before it. A name with a mark in it cannot
be written in a pointer. -/
def Reference.Qualified (name text qualified : String) : Prop :=
  '#' ∉ name.toList ∧ ∃ path, text.toList = '#' :: path ∧
    qualified.toList = name.toList ++ '#' :: path

/-- A member whose text under `$ref` may be qualified, or whose value is related. The values of an
enumeration are not schemas, so nothing changes in them. -/
inductive Json.MemberQualifies (name : String) (Q : Json → Json → Prop) :
    String × Json → String × Json → Prop where
  | reference {text qualified : String} (written : Reference.Qualified name text qualified) :
      MemberQualifies name Q (Keyword.ref.text, .str text) (Keyword.ref.text, .str qualified)
  | values {values : List Json} :
      MemberQualifies name Q (Keyword.enum.text, .arr values) (Keyword.enum.text, .arr values)
  | below {key : String} {value qualified : Json}
      (notValues : key = Keyword.enum.text → value.items? = none) (qualifies : Q value qualified) :
      MemberQualifies name Q (key, value) (key, qualified)

/-- The second value is the first with any of its local pointers qualified by a name. -/
inductive Json.Qualifies (name : String) : Json → Json → Prop where
  | plain {value : Json} (notArray : value.items? = none)
      (notObject : ∀ members, value ≠ .obj members) : Qualifies name value value
  | array {items others : List Json} (each : List.Forall₂ (Qualifies name) items others) :
      Qualifies name (.arr items) (.arr others)
  | object {members others : List (String × Json)}
      (each : List.Forall₂ (MemberQualifies name (Qualifies name)) members others) :
      Qualifies name (.obj members) (.obj others)

/-- A local pointer is written under some `$ref` in a value, apart from enumerated values. -/
inductive Json.WritesLocal : Json → Prop where
  | reference {members : List (String × Json)} {text : String} {path : List Char}
      (member : (Keyword.ref.text, .str text) ∈ members) (isLocal : text.toList = '#' :: path) :
      WritesLocal (.obj members)
  | member {members : List (String × Json)} {key : String} {value : Json}
      (member : (key, value) ∈ members)
      (notValues : key = Keyword.enum.text → value.items? = none) (below : WritesLocal value) :
      WritesLocal (.obj members)
  | item {items : List Json} {item : Json} (member : item ∈ items) (below : WritesLocal item) :
      WritesLocal (.arr items)

namespace Json

variable {name : String}

/-- Members under the same keys, related one by one. -/
abbrev MembersQualify (name : String) (members others : List (String × Json)) : Prop :=
  List.Forall₂ (MemberQualifies name (Qualifies name)) members others

theorem memberQualifies_self {key : String} {value : Json} (h : Qualifies name value value) :
    MemberQualifies name (Qualifies name) (key, value) (key, value) := by
  cases value with
  | arr values =>
      by_cases hkey : key = Keyword.enum.text
      · rw [hkey]
        exact .values
      · exact .below (fun h => absurd h hkey) h
  | null | bool | int | float | str | obj => exact .below (fun _ => rfl) h

theorem qualifies_self (name : String) (value : Json) : Qualifies name value value := by
  induction hsize : value.size using Nat.strongRecOn generalizing value with
  | ind size ih =>
      subst hsize
      cases value with
      | arr items =>
          refine .array (List.forall₂_same.mpr fun item hitem => ?_)
          exact ih item.size (size_lt_of_mem_arr hitem) item rfl
      | obj members =>
          refine .object (List.forall₂_same.mpr fun member hmember => memberQualifies_self ?_)
          exact ih member.2.size (size_lt_of_mem_obj hmember) member.2 rfl
      | null | bool | int | float | str => exact .plain rfl (by simp)

/-- Without local pointers there is nothing to qualify. -/
theorem Qualifies.eq_of_not_writesLocal {value qualified : Json} (h : Qualifies name value qualified)
    (hlocal : ¬ value.WritesLocal) : value = qualified := by
  induction hsize : value.size using Nat.strongRecOn generalizing value qualified with
  | ind size ih =>
      subst hsize
      cases h with
      | plain => rfl
      | @array items others each =>
          have heq : List.Forall₂ Eq items others := by
            refine forall₂_imp_of_mem each fun item hitem other _ hrelated => ?_
            have hbelow : ¬ item.WritesLocal := fun hbelow => hlocal (.item hitem hbelow)
            exact ih item.size (size_lt_of_mem_arr hitem) hrelated hbelow rfl
          rw [List.forall₂_eq_eq_eq] at heq
          rw [heq]
      | @object members others each =>
          have heq : List.Forall₂ Eq members others := by
            refine forall₂_imp_of_mem each fun member hmember other _ hrelated => ?_
            cases hrelated with
            | reference written =>
                obtain ⟨-, path, htext, -⟩ := written
                exact absurd (.reference hmember htext) hlocal
            | values => rfl
            | @below key value qualified notValues qualifies =>
                have hbelow : ¬ value.WritesLocal :=
                  fun hbelow => hlocal (.member hmember notValues hbelow)
                rw [ih value.size (size_lt_of_mem_obj hmember) qualifies hbelow rfl]
          rw [List.forall₂_eq_eq_eq] at heq
          rw [heq]

theorem memberQualifies_cases {Q : Json → Json → Prop} {key : String} {value other : Json}
    (h : MemberQualifies name Q (key, value) (key, other)) :
    (∃ text qualified, key = Keyword.ref.text ∧ value = .str text ∧ other = .str qualified ∧
        Reference.Qualified name text qualified) ∨
      (∃ values, key = Keyword.enum.text ∧ value = .arr values ∧ other = .arr values) ∨
        ((key = Keyword.enum.text → value.items? = none) ∧ Q value other) := by
  cases h with
  | reference written => exact .inl ⟨_, _, rfl, rfl, rfl, written⟩
  | values => exact .inr (.inl ⟨_, rfl, rfl, rfl⟩)
  | below notValues qualifies => exact .inr (.inr ⟨notValues, qualifies⟩)

/-! ### Looking up, taking away, writing -/

section Members

variable {members others : List (String × Json)}

theorem MemberQualifies.key_eq {Q : Json → Json → Prop} {member other : String × Json}
    (h : MemberQualifies name Q member other) : member.1 = other.1 := by
  cases h with
  | reference | values | below => rfl

theorem MembersQualify.get? (h : MembersQualify name members others) (key : String) :
    Option.Rel (fun value other => MemberQualifies name (Qualifies name) (key, value) (key, other))
      (Assoc.get? key members) (Assoc.get? key others) := by
  have heach : List.Forall₂ (fun member other => member.1 = other.1 ∧
      MemberQualifies name (Qualifies name) (member.1, member.2) (member.1, other.2))
      members others := by
    refine h.imp ?_
    rintro ⟨key, value⟩ ⟨key', value'⟩ hmember
    obtain rfl : key = key' := hmember.key_eq
    exact ⟨rfl, hmember⟩
  exact rel_get?_of_forall₂ (Q := fun key value other =>
    MemberQualifies name (Qualifies name) (key, value) (key, other)) heach key

theorem MembersQualify.erase (h : MembersQualify name members others) (key : String) :
    MembersQualify name (Assoc.erase key members) (Assoc.erase key others) := by
  induction h with
  | nil => exact .nil
  | @cons member other members others hfirst hrest ih =>
      obtain ⟨name, value⟩ := member
      obtain ⟨name', value'⟩ := other
      obtain rfl : name = name' := hfirst.key_eq
      rw [Assoc.erase, Assoc.erase]
      by_cases hkey : name = key
      · rw [if_pos hkey, if_pos hkey]
        exact hrest
      · rw [if_neg hkey, if_neg hkey]
        exact .cons hfirst ih

theorem MembersQualify.put {key : String} {value other : Json}
    (h : MembersQualify name members others)
    (hmember : MemberQualifies name (Qualifies name) (key, value) (key, other)) :
    MembersQualify name (Assoc.put key value members) (Assoc.put key other others) := by
  induction h with
  | nil => exact .cons hmember .nil
  | @cons member other members others hfirst hrest ih =>
      obtain ⟨name, value⟩ := member
      obtain ⟨name', value'⟩ := other
      obtain rfl : name = name' := hfirst.key_eq
      rw [Assoc.put, Assoc.put]
      by_cases hkey : name = key
      · rw [if_pos hkey, if_pos hkey, hkey]
        exact .cons hmember hrest
      · rw [if_neg hkey, if_neg hkey]
        exact .cons hfirst ih

end Members

section Values

variable {value other above above' : Json}

theorem Qualifies.get? (h : Qualifies name value other) (key : String) :
    Option.Rel (fun value other => MemberQualifies name (Qualifies name) (key, value) (key, other))
      (value.get? key) (other.get? key) := by
  cases h with
  | plain notArray notObject =>
      cases value with
      | obj members => exact absurd rfl (notObject members)
      | null | bool | int | float | str | arr => exact .none
  | array => exact .none
  | object each => exact MembersQualify.get? each key

theorem Qualifies.without (h : Qualifies name value other) (key : String) :
    Qualifies name (value.without key) (other.without key) := by
  cases h with
  | plain notArray notObject =>
      cases value with
      | obj members => exact absurd rfl (notObject members)
      | null | bool | int | float | str | arr => exact .plain notArray notObject
  | array each => exact .array each
  | object each => exact .object (MembersQualify.erase each key)

theorem Qualifies.put {key : String} {member member' : Json} (h : Qualifies name value other)
    (hmember : MemberQualifies name (Qualifies name) (key, member) (key, member')) :
    Qualifies name (value.put key member) (other.put key member') := by
  cases h with
  | plain notArray notObject =>
      cases value with
      | obj members => exact absurd rfl (notObject members)
      | null | bool | int | float | str | arr => exact .plain notArray notObject
  | array each => exact .array each
  | object each => exact .object (MembersQualify.put each hmember)

theorem Qualifies.items?_eq_none (h : Qualifies name value other) (hvalue : value.items? = none) :
    other.items? = none := by
  cases h with
  | plain => exact hvalue
  | array => cases hvalue
  | object => rfl

/-! ### Laying over -/

theorem merge_of_plain (base : Json) {overlay : Json} (notArray : overlay.items? = none)
    (notObject : ∀ members, overlay ≠ .obj members) : base.merge overlay = overlay := by
  cases overlay with
  | obj members => exact absurd rfl (notObject members)
  | arr items => cases notArray
  | null | bool | int | float | str => rfl

theorem merge_arr {base : Json} (h : base.items? = none) (items : List Json) :
    base.merge (.arr items) = .arr items := by
  cases base with
  | arr => cases h
  | null | bool | int | float | str | obj => rfl

theorem arr_merge (items : List Json) {overlay : Json} (h : overlay.items? = none) :
    (Json.arr items).merge overlay = overlay := by
  cases overlay with
  | arr => cases h
  | null | bool | int | float | str | obj => rfl

theorem str_merge (text : String) (overlay : Json) : (Json.str text).merge overlay = overlay := by
  cases overlay with
  | null | bool | int | float | str | arr | obj => rfl

theorem items?_merge {base overlay : Json} (h : overlay.items? = none) :
    (base.merge overlay).items? = none := by
  cases overlay with
  | arr => cases h
  | null | bool | int | float | str => rfl
  | obj => cases base <;> rfl

/-- Where a member is laid over one of the same key, the two stay related. -/
theorem MemberQualifies.merge {key : String}
    (h : MemberQualifies name (Qualifies name) (key, value) (key, other))
    (habove : MemberQualifies name (Qualifies name) (key, above) (key, above'))
    (hmerge : ∀ value other, Qualifies name above above' → Qualifies name value other →
      Qualifies name (value.merge above) (other.merge above')) :
    MemberQualifies name (Qualifies name) (key, value.merge above) (key, other.merge above') := by
  rcases memberQualifies_cases habove with ⟨text, qualified, rfl, rfl, rfl, written⟩ |
      ⟨values, rfl, rfl, rfl⟩ | ⟨notAbove, qabove⟩
  · exact .reference written
  · rcases memberQualifies_cases h with ⟨text, qualified, hkey, -⟩ | ⟨items, -, rfl, rfl⟩ |
        ⟨notValues, qvalue⟩
    · exact absurd hkey (by decide)
    · exact .values
    · rw [merge_arr (notValues rfl), merge_arr (qvalue.items?_eq_none (notValues rfl))]
      exact .values
  · rcases memberQualifies_cases h with ⟨text, qualified, rfl, rfl, rfl, written⟩ |
        ⟨items, rfl, rfl, rfl⟩ | ⟨notValues, qvalue⟩
    · rw [str_merge, str_merge]
      exact .below notAbove qabove
    · rw [arr_merge _ (notAbove rfl), arr_merge _ (qabove.items?_eq_none (notAbove rfl))]
      exact .below notAbove qabove
    · exact .below (fun hkey => items?_merge (notAbove hkey)) (hmerge _ _ qabove qvalue)

end Values

mutual

theorem Qualifies.merge {value other above above' : Json} (h : Qualifies name value other)
    (habove : Qualifies name above above') :
    Qualifies name (value.merge above) (other.merge above') := by
  match above, above', habove with
  | .obj above, .obj above', .object each =>
      cases h with
      | object each' => exact .object (MembersQualify.merge each' each)
      | array => exact .object each
      | plain notArray notObject =>
          cases value with
          | obj members => exact absurd rfl (notObject members)
          | null | bool | int | float | str | arr => exact .object each
  | .arr above, .arr above', .array each =>
      cases h with
      | array each' => exact .array (qualifies_mergeItems each' each)
      | object => exact .array each
      | plain notArray notObject =>
          rw [merge_arr notArray, merge_arr notArray]
          exact .array each
  | above, _, .plain notArray notObject =>
      rw [merge_of_plain _ notArray notObject, merge_of_plain _ notArray notObject]
      exact .plain notArray notObject
termination_by sizeOf above

theorem MembersQualify.merge {members others above above' : List (String × Json)}
    (h : MembersQualify name members others) (habove : MembersQualify name above above') :
    MembersQualify name (mergeMembers members above) (mergeMembers others above') := by
  match above, above', habove with
  | [], _, .nil => exact h
  | (key, value) :: rest, (key', value') :: rest', .cons hfirst hrest =>
      obtain rfl : key = key' := hfirst.key_eq
      rw [mergeMembers, mergeMembers]
      rcases rel_cases (h.get? key) with ⟨habsent, habsent'⟩ | ⟨old, old', hold, hold', hrelated⟩
      · rw [habsent, habsent']
        exact MembersQualify.merge (h.put hfirst) hrest
      · rw [hold, hold']
        have hmerged := hrelated.merge hfirst fun _ _ habove hvalue =>
          Qualifies.merge hvalue habove
        exact MembersQualify.merge (h.put hmerged) hrest
termination_by sizeOf above

theorem qualifies_mergeItems {items others above above' : List Json}
    (h : List.Forall₂ (Qualifies name) items others)
    (habove : List.Forall₂ (Qualifies name) above above') :
    List.Forall₂ (Qualifies name) (mergeItems items above) (mergeItems others above') := by
  match items, others, above, above', h, habove with
  | items, others, [], _, h, .nil => simpa only [mergeItems] using h
  | [], _, _ :: _, _ :: _, .nil, habove => exact habove
  | _ :: _, _ :: _, _ :: _, _ :: _, .cons hfirst hrest, .cons habove hrest' =>
      exact .cons (Qualifies.merge hfirst habove) (qualifies_mergeItems hrest hrest')
termination_by sizeOf above

end

end Json

end Specimen
