import Specimen.Proofs.LocalPointers
import Specimen.Proofs.Merging
import Specimen.Proofs.ReadConstraints

/-!
# Nodes that are read alike

Compiling looks members up by key and counts null as absent. Two nodes are read alike when the same
keywords have values on both, the same ones up to schemas below that are read alike again; in which
order they stand, and what stands under other keys, is not read. One difference shows later: a null
that only one of two nodes has erases what it is laid over.
-/

namespace Specimen

namespace Json

/-! ### Values that are read alike -/

/-- The keys that compiling reads. -/
def readKeys : List String :=
  Keyword.precedence.map Keyword.text ++ Constraints.keywords

/-- Two values of a combinator hold related schemas branch by branch, or are one value that is no
list. -/
inductive BranchesAlike (N : Json → Json → Prop) : Json → Json → Prop where
  | each {branches others : List Json} (each : List.Forall₂ N branches others) :
      BranchesAlike N (.arr branches) (.arr others)
  | same {value : Json} (plain : value.items? = none) : BranchesAlike N value value

/-- Two properties of one name with related schemas. -/
inductive FieldAlike (N : Json → Json → Prop) : String × Json → String × Json → Prop where
  | related {name : String} {property other : Json} (related : N property other) :
      FieldAlike N (name, property) (name, other)

/-- Two values of `properties` hold related schemas under the same names, or are one value that is
no object. -/
inductive FieldsAlike (N : Json → Json → Prop) : Json → Json → Prop where
  | each {properties others : List (String × Json)} (distinct : (Assoc.keys properties).Nodup)
      (each : List.Forall₂ (FieldAlike N) properties others) :
      FieldsAlike N (.obj properties) (.obj others)
  | same {value : Json} (notObject : ∀ properties, value ≠ .obj properties) :
      FieldsAlike N value value

/-- Two values under one key have related schemas at the same places, and are the same where no
schema stands. -/
inductive MemberAlike (N : Json → Json → Prop) : String → Json → Json → Prop where
  | branches {keyword : Keyword} {value other : Json}
      (combinator : keyword ∈ [Keyword.anyOf, .allOf, .oneOf]) (alike : BranchesAlike N value other) :
      MemberAlike N keyword.text value other
  | properties {value other : Json} (alike : FieldsAlike N value other) :
      MemberAlike N Keyword.properties.text value other
  | items {value other : Json} (alike : ItemsAlike N value other) :
      MemberAlike N Keyword.items.text value other
  | other {key : String} {value : Json}
      (plain : key ∉ ["anyOf", "allOf", "oneOf", "properties", "items"]) :
      MemberAlike N key value value

/-- Two lookups find values that go together, or nothing both. -/
inductive FoundAlike (N : Json → Json → Prop) :
    String × Option Json → String × Option Json → Prop where
  | none {key : String} : FoundAlike N (key, none) (key, none)
  | some {key : String} {value other : Json} (alike : MemberAlike N key value other) :
      FoundAlike N (key, some value) (key, some other)

/-- Two nodes have values under the same keywords, null counted as absent, and those go together. A
null of the second node stands in the first as well. -/
inductive ReadAlike : Json → Json → Prop where
  | plain {node : Json} (notObject : ∀ members, node ≠ .obj members) : ReadAlike node node
  | object {members others : List (String × Json)} (distinct : (Assoc.keys members).Nodup)
      (distinct' : (Assoc.keys others).Nodup)
      (nulls : ∀ key ∈ readKeys, Assoc.get? key others = some .null →
        Assoc.get? key members = some .null)
      (each : ∀ key ∈ readKeys, FoundAlike ReadAlike (key, (Json.obj members).value? key)
        (key, (Json.obj others).value? key)) :
      ReadAlike (.obj members) (.obj others)

theorem fieldAlike_iff {N : Json → Json → Prop} {property other : String × Json} :
    FieldAlike N property other ↔ property.1 = other.1 ∧ N property.2 other.2 := by
  constructor
  · rintro ⟨related⟩
    exact ⟨rfl, related⟩
  · obtain ⟨name, value⟩ := property
    obtain ⟨name', value'⟩ := other
    rintro ⟨hname, related⟩
    obtain rfl : name = name' := hname
    exact .related related

section Members

variable {N M : Json → Json → Prop} {key : String} {value other : Json}

theorem MemberAlike.fields (h : MemberAlike N Keyword.properties.text value other) :
    FieldsAlike N value other := by
  generalize hkey : Keyword.properties.text = key at h
  cases h with
  | properties alike => exact alike
  | items => exact absurd hkey (by decide)
  | branches combinator =>
      simp only [List.mem_cons, List.not_mem_nil, or_false] at combinator
      rcases combinator with rfl | rfl | rfl <;> exact absurd hkey (by decide)
  | other plain =>
      rw [← hkey] at plain
      exact absurd plain (by decide)

theorem MemberAlike.itemsAlike (h : MemberAlike N Keyword.items.text value other) :
    ItemsAlike N value other := by
  generalize hkey : Keyword.items.text = key at h
  cases h with
  | items alike => exact alike
  | properties => exact absurd hkey (by decide)
  | branches combinator =>
      simp only [List.mem_cons, List.not_mem_nil, or_false] at combinator
      rcases combinator with rfl | rfl | rfl <;> exact absurd hkey (by decide)
  | other plain =>
      rw [← hkey] at plain
      exact absurd plain (by decide)

theorem MemberAlike.branchesAlike {keyword : Keyword}
    (hkeyword : keyword ∈ [Keyword.anyOf, .allOf, .oneOf])
    (h : MemberAlike N keyword.text value other) : BranchesAlike N value other := by
  generalize hkey : keyword.text = key at h
  cases h with
  | branches combinator alike => exact alike
  | properties | items =>
      simp only [List.mem_cons, List.not_mem_nil, or_false] at hkeyword
      rcases hkeyword with rfl | rfl | rfl <;> exact absurd hkey (by decide)
  | other plain =>
      rw [← hkey] at plain
      simp only [List.mem_cons, List.not_mem_nil, or_false] at hkeyword
      rcases hkeyword with rfl | rfl | rfl <;> exact absurd plain (by decide)

theorem MemberAlike.eq (hkey : key ∉ ["anyOf", "allOf", "oneOf", "properties", "items"])
    (h : MemberAlike N key value other) : value = other := by
  cases h with
  | other => rfl
  | properties | items => exact absurd hkey (by decide)
  | branches combinator =>
      simp only [List.mem_cons, List.not_mem_nil, or_false] at combinator
      rcases combinator with rfl | rfl | rfl <;> exact absurd hkey (by decide)

end Members

/-! ### Erasing -/

/-- Related schemas at the same place of three values of a keyword. -/
inductive ErasedIn (R : Json → Json → Json → Prop) : String → Json → Json → Json → Prop where
  | branch {keyword : Keyword} {old laid kept : List Json} {place : Nat} {base overlay rest : Json}
      (combinator : keyword ∈ [Keyword.anyOf, .allOf, .oneOf]) (under : old[place]? = some base)
      (above : laid[place]? = some overlay) (stripped : kept[place]? = some rest)
      (below : R base overlay rest) :
      ErasedIn R keyword.text (.arr old) (.arr laid) (.arr kept)
  | property {old laid kept : List (String × Json)} {name : String} {base overlay rest : Json}
      (under : Assoc.get? name old = some base) (above : Assoc.get? name laid = some overlay)
      (stripped : Assoc.get? name kept = some rest) (below : R base overlay rest) :
      ErasedIn R Keyword.properties.text (.obj old) (.obj laid) (.obj kept)
  | place {old laid kept : List Json} {place : Nat} {base overlay rest : Json}
      (under : old[place]? = some base) (above : laid[place]? = some overlay)
      (stripped : kept[place]? = some rest) (below : R base overlay rest) :
      ErasedIn R Keyword.items.text (.arr old) (.arr laid) (.arr kept)
  | element {base overlay rest : Json} (below : R base overlay rest) :
      ErasedIn R Keyword.items.text base overlay rest

/-- Laid over a base, a node erases a member by a null which another node in its place does not have:
here, or in a schema below that both lay over one of the base. -/
inductive Erases : Json → Json → Json → Prop where
  | here {base overlay stripped : Json} {key : String} (read : key ∈ readKeys)
      (null : overlay.get? key = some .null) (removed : stripped.get? key = none)
      (erased : base.value? key ≠ none) : Erases base overlay stripped
  | deeper {base overlay stripped old laid kept : Json} {key : String}
      (under : base.get? key = some old) (above : overlay.get? key = some laid)
      (left : stripped.get? key = some kept) (erased : ErasedIn Erases key old laid kept) :
      Erases base overlay stripped

/-! ### Looking up, taking away, writing -/

theorem foundAlike_iff {N : Json → Json → Prop} {key : String} {found other : Option Json} :
    FoundAlike N (key, found) (key, other) ↔ Option.Rel (MemberAlike N key) found other := by
  constructor
  · rintro (_ | alike)
    · exact .none
    · exact .some alike
  · rintro (alike | _)
    · exact .some alike
    · exact .none

section Nodes

variable {node other : Json}

theorem mem_readKeys (keyword : Keyword) : keyword.text ∈ readKeys := by
  cases keyword <;> decide

theorem ReadAlike.value? (h : ReadAlike node other) {key : String} (hkey : key ∈ readKeys) :
    Option.Rel (MemberAlike ReadAlike key) (node.value? key) (other.value? key) := by
  cases h with
  | object _ _ _ each => exact foundAlike_iff.mp (each key hkey)
  | plain notObject =>
      cases node with
      | obj members => exact absurd rfl (notObject members)
      | null | bool | int | float | str | arr => exact .none

theorem ReadAlike.present? (h : ReadAlike node other) (keyword : Keyword) :
    Option.Rel (MemberAlike ReadAlike keyword.text) (node.present? keyword)
      (other.present? keyword) := by
  rw [present?_eq_value?, present?_eq_value?]
  exact h.value? (mem_readKeys keyword)

theorem ReadAlike.without (h : ReadAlike node other) (key : String) :
    ReadAlike (node.without key) (other.without key) := by
  cases h with
  | plain notObject =>
      cases node with
      | obj members => exact absurd rfl (notObject members)
      | null | bool | int | float | str | arr => exact .plain notObject
  | @object members others distinct distinct' nulls each =>
      have hnone {entries : List (String × Json)} (hdistinct : (Assoc.keys entries).Nodup) :
          Assoc.get? key (Assoc.erase key entries) = none := Assoc.get?_erase_self hdistinct
      refine .object (Assoc.nodup_keys_erase distinct) (Assoc.nodup_keys_erase distinct') ?_ ?_
      · intro asked hasked hnull
        by_cases hkey : asked = key
        · rw [hkey, hnone distinct'] at hnull
          cases hnull
        · rw [Assoc.get?_erase_of_ne hkey] at hnull ⊢
          exact nulls asked hasked hnull
      · intro asked hasked
        have hfound := each asked hasked
        rw [Json.value?, Json.value?] at hfound ⊢
        rw [Json.get?, Json.get?] at hfound ⊢
        by_cases hkey : asked = key
        · rw [hkey, hnone distinct, hnone distinct']
          exact .none
        · rw [Assoc.get?_erase_of_ne hkey, Assoc.get?_erase_of_ne hkey]
          exact hfound

theorem ReadAlike.put (h : ReadAlike node other) {key : String} {value value' : Json}
    (hvalue : value ≠ .null) (hvalue' : value' ≠ .null)
    (halike : MemberAlike ReadAlike key value value') :
    ReadAlike (node.put key value) (other.put key value') := by
  cases h with
  | plain notObject =>
      cases node with
      | obj members => exact absurd rfl (notObject members)
      | null | bool | int | float | str | arr => exact .plain notObject
  | @object members others distinct distinct' nulls each =>
      have hpresent {value : Json} (hvalue : value ≠ .null) : nonNull (some value) = some value := by
        cases value with
        | null => exact absurd rfl hvalue
        | bool | int | float | str | arr | obj => rfl
      refine .object (Assoc.nodup_keys_put distinct) (Assoc.nodup_keys_put distinct') ?_ ?_
      · intro asked hasked hnull
        by_cases hkey : asked = key
        · rw [hkey, Assoc.get?_put_self] at hnull
          exact absurd (Option.some.inj hnull) hvalue'
        · rw [Assoc.get?_put_of_ne hkey] at hnull ⊢
          exact nulls asked hasked hnull
      · intro asked hasked
        have hfound := each asked hasked
        rw [Json.value?, Json.value?] at hfound ⊢
        rw [Json.get?, Json.get?] at hfound ⊢
        by_cases hkey : asked = key
        · rw [hkey, Assoc.get?_put_self, Assoc.get?_put_self, hpresent hvalue, hpresent hvalue']
          exact .some halike
        · rw [Assoc.get?_put_of_ne hkey, Assoc.get?_put_of_ne hkey]
          exact hfound

end Nodes

/-! ### Laying over -/

section Merging

variable {N : Json → Json → Prop}

theorem forall₂_mergeItems {items others above above' : List Json}
    (h : List.Forall₂ N items others) (habove : List.Forall₂ N above above')
    (hmerge : ∀ (place : Nat) base base' overlay overlay', items[place]? = some base →
      above[place]? = some overlay → above'[place]? = some overlay' → N base base' →
        N overlay overlay' → N (base.merge overlay) (base'.merge overlay')) :
    List.Forall₂ N (mergeItems items above) (mergeItems others above') := by
  induction habove generalizing items others with
  | nil => simpa only [mergeItems] using h
  | @cons overlay overlay' _ _ hfirst hrest ih =>
      cases h with
      | nil => exact .cons hfirst hrest
      | @cons base base' _ _ hbase hbelow =>
          exact .cons (hmerge 0 base base' overlay overlay' rfl rfl rfl hbase hfirst)
            (ih hbelow fun place => hmerge (place + 1))

theorem forall₂_mergeMembers {members others above above' : List (String × Json)}
    (hdistinct : (Assoc.keys members).Nodup) (habove : (Assoc.keys above).Nodup)
    (hmembers : List.Forall₂ (FieldAlike N) members others)
    (hlaid : List.Forall₂ (FieldAlike N) above above')
    (hmerge : ∀ name base base' overlay overlay', Assoc.get? name members = some base →
      Assoc.get? name above = some overlay → Assoc.get? name above' = some overlay' →
        N base base' → N overlay overlay' → N (base.merge overlay) (base'.merge overlay')) :
    List.Forall₂ (FieldAlike N) (mergeMembers members above) (mergeMembers others above') := by
  have hmembers := hmembers.imp fun _ _ h => fieldAlike_iff.mp h
  have hlaid := hlaid.imp fun _ _ h => fieldAlike_iff.mp h
  have hkeys := keys_eq_of_forall₂ hmembers
  have hlaidKeys := keys_eq_of_forall₂ hlaid
  have habove' := hlaidKeys ▸ habove
  have hmergedKeys : Assoc.keys (mergeMembers members above) =
      Assoc.keys (mergeMembers others above') := by
    rw [keys_mergeMembers habove, keys_mergeMembers habove', hkeys, hlaidKeys]
  have hmerged := Assoc.forall₂_of_get? (Q := N) hmergedKeys
    (nodup_keys_mergeMembers hdistinct) (by
      intro name
      rw [get?_mergeMembers habove, get?_mergeMembers habove']
      have hunder := rel_get?_of_forall₂ (Q := fun _ => N) hmembers name
      have hover := rel_get?_of_forall₂ (Q := fun _ => N) hlaid name
      rcases rel_cases hover with ⟨hnone, hnone'⟩ | ⟨overlay, overlay', hget, hget', hrelated⟩
      · rw [hnone, hnone']
        rcases rel_cases hunder with ⟨hbare, hbare'⟩ | ⟨base, base', hbase, hbase', hbelow⟩
        · rw [hbare, hbare']
          exact .none
        · rw [hbase, hbase']
          exact .some hbelow
      · rw [hget, hget']
        rcases rel_cases hunder with ⟨hbare, hbare'⟩ | ⟨base, base', hbase, hbase', hbelow⟩
        · rw [hbare, hbare']
          exact .some hrelated
        · rw [hbase, hbase']
          exact .some (hmerge name base base' overlay overlay' hbase hget hget' hbelow hrelated))
  exact hmerged.imp fun _ _ h => fieldAlike_iff.mpr h

theorem merge_of_notObject {base : Json} (h : ∀ members, base ≠ .obj members)
    (above : List (String × Json)) : base.merge (.obj above) = .obj above := by
  cases base with
  | obj members => exact absurd rfl (h members)
  | null | bool | int | float | str | arr => rfl

theorem obj_merge_of_notObject {overlay : Json} (h : ∀ members, overlay ≠ .obj members)
    (members : List (String × Json)) : (Json.obj members).merge overlay = overlay := by
  cases overlay with
  | obj above => exact absurd rfl (h above)
  | null | bool | int | float | str | arr => rfl

theorem merge_ne_obj {overlay : Json} (h : ∀ members, overlay ≠ .obj members) (base : Json) :
    ∀ members, base.merge overlay ≠ .obj members := by
  intro members
  cases overlay with
  | obj above => exact absurd rfl (h above)
  | null | bool | int | float | str => simp [merge]
  | arr above => cases base <;> simp [merge]

theorem items?_eq_none_of_plain {value : Json} (h : ∀ places, value ≠ .arr places) :
    value.items? = none := by
  cases value with
  | arr places => exact absurd rfl (h places)
  | null | bool | int | float | str | obj => rfl

theorem ne_arr_of_items? {value : Json} (h : value.items? = none) :
    ∀ places, value ≠ .arr places := by
  rintro places rfl
  cases h

variable {key : String} {old old' value value' : Json}

theorem BranchesAlike.merge (h : BranchesAlike N old old') (habove : BranchesAlike N value value')
    (hmerge : ∀ items above above', old = .arr items → value = .arr above → value' = .arr above' →
      ∀ (place : Nat) base base' overlay overlay', items[place]? = some base →
        above[place]? = some overlay → above'[place]? = some overlay' → N base base' →
          N overlay overlay' → N (base.merge overlay) (base'.merge overlay')) :
    BranchesAlike N (old.merge value) (old'.merge value') := by
  cases habove with
  | @each above above' each =>
      cases h with
      | @each items _ under =>
          exact .each (forall₂_mergeItems under each (hmerge items above above' rfl rfl rfl))
      | same plain =>
          rw [merge_arr plain, merge_arr plain]
          exact .each each
  | same plain =>
      cases h with
      | each =>
          rw [arr_merge _ plain, arr_merge _ plain]
          exact .same plain
      | same => exact .same (items?_merge plain)

theorem FieldsAlike.merge (h : FieldsAlike N old old') (habove : FieldsAlike N value value')
    (hmerge : ∀ members above above', old = .obj members → value = .obj above →
      value' = .obj above' → ∀ name base base' overlay overlay',
        Assoc.get? name members = some base → Assoc.get? name above = some overlay →
          Assoc.get? name above' = some overlay' → N base base' → N overlay overlay' →
            N (base.merge overlay) (base'.merge overlay')) :
    FieldsAlike N (old.merge value) (old'.merge value') := by
  cases habove with
  | @each above above' distinct each =>
      cases h with
      | @each members _ distinct' under =>
          exact .each (nodup_keys_mergeMembers distinct') (forall₂_mergeMembers distinct' distinct
            under each (hmerge members above above' rfl rfl rfl))
      | same notObject =>
          rw [merge_of_notObject notObject, merge_of_notObject notObject]
          exact .each distinct each
  | same notObject =>
      cases h with
      | each =>
          rw [obj_merge_of_notObject notObject, obj_merge_of_notObject notObject]
          exact .same notObject
      | same => exact .same (merge_ne_obj notObject _)

end Merging

end Json

theorem ItemsAlike.merge {N : Json → Json → Prop} {old old' value value' : Json}
    (h : ItemsAlike N old old') (habove : ItemsAlike N value value')
    (hplaces : ∀ items above above', old = .arr items → value = .arr above → value' = .arr above' →
      ∀ (place : Nat) base base' overlay overlay', items[place]? = some base →
        above[place]? = some overlay → above'[place]? = some overlay' → N base base' →
          N overlay overlay' → N (base.merge overlay) (base'.merge overlay'))
    (helement : N old old' → N value value' → N (old.merge value) (old'.merge value')) :
    ItemsAlike N (old.merge value) (old'.merge value') := by
  cases habove with
  | @places above above' each =>
      cases h with
      | @places items _ under =>
          exact .places (Json.forall₂_mergeItems under each
            (hplaces items above above' rfl rfl rfl))
      | element plain plain' =>
          rw [Json.merge_arr (Json.items?_eq_none_of_plain plain),
            Json.merge_arr (Json.items?_eq_none_of_plain plain')]
          exact .places each
  | element plain plain' related =>
      have hitems := Json.items?_eq_none_of_plain plain
      have hitems' := Json.items?_eq_none_of_plain plain'
      cases h with
      | places =>
          rw [Json.arr_merge _ hitems, Json.arr_merge _ hitems']
          exact .element plain plain' related
      | element _ _ under =>
          exact .element (Json.ne_arr_of_items? (Json.items?_merge hitems))
            (Json.ne_arr_of_items? (Json.items?_merge hitems')) (helement under related)

namespace Json

section Members

variable {N : Json → Json → Prop} {R : Json → Json → Json → Prop} {key : String}
  {old old' value value' : Json}

/-- Where one value is laid over another under the same key, they stay alike if nothing is erased and
what is laid over each other below stays alike. -/
theorem MemberAlike.merge (h : MemberAlike N key old old') (habove : MemberAlike N key value value')
    (hkept : ¬ ErasedIn R key old value value')
    (hmerge : ∀ base base' overlay overlay', overlay.size ≤ value.size → N base base' →
      N overlay overlay' → ¬ R base overlay overlay' →
        N (base.merge overlay) (base'.merge overlay')) :
    MemberAlike N key (old.merge value) (old'.merge value') := by
  cases habove with
  | other plain =>
      rw [h.eq plain]
      exact .other plain
  | branches combinator alike =>
      refine .branches combinator ((h.branchesAlike combinator).merge alike ?_)
      rintro items above above' rfl rfl rfl place base base' overlay overlay' hbase hlaid hlaid' hb ho
      exact hmerge _ _ _ _ (Nat.le_of_lt (size_lt_of_mem_arr (List.mem_of_getElem? hlaid))) hb ho
        fun herased => hkept (.branch combinator hbase hlaid hlaid' herased)
  | properties alike =>
      refine .properties (h.fields.merge alike ?_)
      rintro members above above' rfl rfl rfl name base base' overlay overlay' hbase hlaid hlaid' hb ho
      exact hmerge _ _ _ _ (Nat.le_of_lt (size_lt_of_mem_obj (Assoc.mem_of_get? hlaid))) hb ho
        fun herased => hkept (.property hbase hlaid hlaid' herased)
  | items alike =>
      refine .items (h.itemsAlike.merge alike ?_ ?_)
      · rintro items above above' rfl rfl rfl place base base' overlay overlay' hbase hlaid hlaid' hb ho
        exact hmerge _ _ _ _ (Nat.le_of_lt (size_lt_of_mem_arr (List.mem_of_getElem? hlaid))) hb ho
          fun herased => hkept (.place hbase hlaid hlaid' herased)
      · exact fun hb ho => hmerge _ _ _ _ (Nat.le_refl _) hb ho fun herased =>
          hkept (.element herased)

end Members

section Merging

variable {base base' overlay overlay' : Json}

theorem nonNull_some {value : Json} (h : value ≠ .null) : nonNull (some value) = some value := by
  cases value with
  | null => exact absurd rfl h
  | bool | int | float | str | arr | obj => rfl

theorem nonNull_eq_some {found : Option Json} {value : Json} (h : nonNull found = some value) :
    found = some value ∧ value ≠ .null := by
  match found with
  | none => cases h
  | some .null => cases h
  | some (.bool _) | some (.int _) | some (.float _) | some (.str _) | some (.arr _)
  | some (.obj _) =>
      cases h
      exact ⟨rfl, by simp⟩

theorem nonNull_eq_none {found : Option Json} (h : nonNull found = none) :
    found = none ∨ found = some .null := by
  match found with
  | none => exact .inl rfl
  | some .null => exact .inr rfl
  | some (.bool _) | some (.int _) | some (.float _) | some (.str _) | some (.arr _)
  | some (.obj _) => cases h

theorem merge_ne_null {value : Json} (h : value ≠ .null) (old : Json) :
    old.merge value ≠ .null := by
  cases value with
  | null => exact absurd rfl h
  | bool | int | float | str => simp [merge]
  | arr => cases old <;> simp [merge]
  | obj => cases old <;> simp [merge]

theorem null_merge (value : Json) : Json.null.merge value = value := by
  cases value <;> rfl

/-- What is found under a key once a value is laid over it, null counted as absent on both sides. -/
theorem nonNull_laidOver_some (found : Option Json) {value : Json} (h : value ≠ .null) :
    nonNull (laidOver found (some value)) =
      laidOver (nonNull found) (some value) := by
  match found with
  | none => exact nonNull_some h
  | some .null =>
      change nonNull (some (Json.null.merge value)) = some value
      rw [null_merge, nonNull_some h]
  | some (.bool _) | some (.int _) | some (.float _) | some (.str _) | some (.arr _)
  | some (.obj _) => exact nonNull_some (merge_ne_null h _)

theorem laidOver_null (found : Option Json) : laidOver found (some .null) = some .null := by
  cases found <;> rfl

/-- What is found in an object laid over another, with the one on the other side. -/
theorem foundAlike_merge {key : String} {found found' laid laid' : Option Json}
    (hunder : Option.Rel (MemberAlike ReadAlike key) (nonNull found) (nonNull found'))
    (hlaid : Option.Rel (MemberAlike ReadAlike key) (nonNull laid) (nonNull laid'))
    (hnull : laid' = some .null → laid = some .null)
    (hkept : laid = some .null → laid' = none → nonNull found = none)
    (hmerge : ∀ old old' value value', found = some old → laid = some value → laid' = some value' →
      MemberAlike ReadAlike key old old' → MemberAlike ReadAlike key value value' →
        MemberAlike ReadAlike key (old.merge value) (old'.merge value')) :
    Option.Rel (MemberAlike ReadAlike key) (nonNull (laidOver found laid))
      (nonNull (laidOver found' laid')) := by
  rcases rel_cases hlaid with ⟨hnone, hnone'⟩ | ⟨value, value', hvalue, hvalue', hrelated⟩
  · rcases nonNull_eq_none hnone' with rfl | rfl
    · rcases nonNull_eq_none hnone with rfl | rfl
      · rw [laidOver_none, laidOver_none]
        exact hunder
      · have hfound := hkept rfl rfl
        rw [hfound] at hunder
        rw [laidOver_null, laidOver_none]
        exact hunder
    · rw [hnull rfl, laidOver_null, laidOver_null]
      exact .none
  · obtain ⟨rfl, hpresent⟩ := nonNull_eq_some hvalue
    obtain ⟨rfl, hpresent'⟩ := nonNull_eq_some hvalue'
    rw [nonNull_laidOver_some _ hpresent, nonNull_laidOver_some _ hpresent']
    rcases rel_cases hunder with ⟨hbare, hbare'⟩ | ⟨old, old', hold, hold', hbelow⟩
    · rw [hbare, hbare']
      exact .some hrelated
    · rw [hold, hold']
      exact .some (hmerge old old' value value' (nonNull_eq_some hold).1 rfl rfl hbelow hrelated)

/-- A null found after laying over was found on one of the sides before. -/
theorem laidOver_eq_null {found found' laid laid' : Option Json}
    (hunder : found' = some .null → found = some .null)
    (hnull : laid' = some .null → laid = some .null) (habsent : laid' = none → nonNull laid = none)
    (h : laidOver found' laid' = some .null) : laidOver found laid = some .null := by
  match laid' with
  | none =>
      rw [laidOver_none] at h
      rcases nonNull_eq_none (habsent rfl) with rfl | rfl
      · rw [laidOver_none]
        exact hunder h
      · exact laidOver_null found
  | some value =>
      by_cases hvalue : value = .null
      · rw [hnull (congrArg some hvalue), laidOver_null]
      · have hpresent := nonNull_laidOver_some found' hvalue
        rw [h] at hpresent
        cases hfound : nonNull found' with
        | none =>
            rw [hfound] at hpresent
            cases hpresent
        | some old =>
            rw [hfound] at hpresent
            cases hpresent

/-- Nodes that are read alike, laid over nodes that are read alike, make nodes that are read alike,
unless a null that only one of them has erases something. -/
theorem ReadAlike.merge (h : ReadAlike base base') (habove : ReadAlike overlay overlay')
    (hkept : ¬ Erases base overlay overlay') :
    ReadAlike (base.merge overlay) (base'.merge overlay') := by
  induction hsize : overlay.size using Nat.strongRecOn generalizing base base' overlay overlay' with
  | ind size ih =>
      subst hsize
      cases habove with
      | plain notObject =>
          cases h with
          | plain => exact .plain (merge_ne_obj notObject _)
          | object =>
              rw [obj_merge_of_notObject notObject, obj_merge_of_notObject notObject]
              exact .plain notObject
      | @object above above' laid laid' nulls each =>
          cases h with
          | plain notObject =>
              rw [merge_of_notObject notObject, merge_of_notObject notObject]
              exact .object laid laid' nulls each
          | @object members others distinct distinct' nulls' each' =>
              refine .object (nodup_keys_mergeMembers distinct) (nodup_keys_mergeMembers distinct')
                ?_ ?_
              · intro key hkey hnull
                rw [get?_mergeMembers laid'] at hnull
                rw [get?_mergeMembers laid]
                apply laidOver_eq_null (nulls' key hkey) (nulls key hkey) _ hnull
                intro habsent
                have hrelated := foundAlike_iff.mp (each key hkey)
                rw [Json.value?, Json.value?, Json.get?, Json.get?, habsent] at hrelated
                rcases rel_cases hrelated with ⟨hnone, -⟩ | ⟨_, _, -, hnone, -⟩
                · exact hnone
                · cases hnone
              · intro key hkey
                rw [foundAlike_iff, Json.value?, Json.value?, Json.get?, Json.get?, get?_mergeMembers laid,
                  get?_mergeMembers laid']
                apply foundAlike_merge (foundAlike_iff.mp (each' key hkey))
                  (foundAlike_iff.mp (each key hkey)) (nulls key hkey)
                · intro hnull hremoved
                  by_contra herased
                  exact hkept (.here hkey hnull hremoved herased)
                · intro old old' value value' hold hvalue hvalue' hunder hover
                  refine hunder.merge hover (fun herased => hkept (.deeper hold hvalue hvalue' herased)) ?_
                  intro base base' overlay overlay' hle hbase hoverlay herases
                  have hlt := size_lt_of_mem_obj (Assoc.mem_of_get? hvalue)
                  exact ih overlay.size (Nat.lt_of_le_of_lt hle hlt) hbase hoverlay herases rfl

end Merging

end Json

end Specimen
