import Specimen.Proofs.Laying
import Specimen.Proofs.Namesakes
import Specimen.Proofs.Nulls

/-!
# Reworded schemas

Members are looked up by key, a value that is no object compiles like an object without keywords, and
a list of one type like that type. So a schema can be worded anew without being read differently. The
two wordings can still part where one node is laid over another, because laying over does not read:
it replaces whatever is no object by whatever is laid there, and goes through lists place by place.
Which nodes clash in this way is said here once for all wordings.
-/

namespace Specimen

/-! ### Lookups in single nodes -/

namespace Json

section Lookups

variable {node base overlay : Json} {key other : String}

theorem get?_of_notObject (h : ∀ members, node ≠ .obj members) (key : String) :
    node.get? key = none := by
  cases node with
  | obj members => exact absurd rfl (h members)
  | null | bool | int | float | str | arr => rfl

theorem without_of_notObject (h : ∀ members, node ≠ .obj members) (key : String) :
    node.without key = node := by
  cases node with
  | obj members => exact absurd rfl (h members)
  | null | bool | int | float | str | arr => rfl

theorem merge_of_overlay_notObject (h : ∀ members, base ≠ .obj members)
    (hoverlay : overlay.IsObject) : base.merge overlay = overlay := by
  obtain ⟨above, rfl, -⟩ := hoverlay
  exact merge_of_notObject h above

theorem IsObject.without (h : node.IsObject) (key : String) : (node.without key).IsObject := by
  obtain ⟨members, rfl, hdistinct⟩ := h
  exact ⟨_, rfl, Assoc.nodup_keys_erase hdistinct⟩

theorem IsObject.get?_without_self (h : node.IsObject) (key : String) :
    (node.without key).get? key = none := by
  obtain ⟨members, rfl, hdistinct⟩ := h
  exact Assoc.get?_erase_self hdistinct

theorem IsObject.get?_without_of_ne (h : node.IsObject) (hne : other ≠ key) :
    (node.without key).get? other = node.get? other := by
  obtain ⟨members, rfl, -⟩ := h
  exact Assoc.get?_erase_of_ne hne members

theorem IsObject.put (h : node.IsObject) (key : String) (value : Json) :
    (node.put key value).IsObject := by
  obtain ⟨members, rfl, hdistinct⟩ := h
  exact ⟨_, rfl, Assoc.nodup_keys_put hdistinct⟩

theorem IsObject.get?_put_self (h : node.IsObject) (key : String) (value : Json) :
    (node.put key value).get? key = some value := by
  obtain ⟨members, rfl, -⟩ := h
  exact Assoc.get?_put_self key value members

/-- Over any node, an object makes an object. -/
theorem IsObject.laidOver (hoverlay : overlay.IsObject)
    (hbase : (∀ members, base ≠ .obj members) ∨ base.IsObject) :
    (base.merge overlay).IsObject ∧ ∀ key,
      (base.merge overlay).get? key = Json.laidOver (base.get? key) (overlay.get? key) := by
  rcases hbase with hbase | hbase
  · rw [merge_of_overlay_notObject hbase hoverlay]
    refine ⟨hoverlay, fun key => ?_⟩
    rw [get?_of_notObject hbase]
    cases overlay.get? key <;> rfl
  · exact hbase.merge hoverlay

end Lookups

end Json

/-! ### Wordings -/

/-- What may change when a node is worded anew, besides the order of its members. -/
structure Leeway where
  /-- The keys whose members stay. -/
  keys : List String
  /-- A value that is no object may become an object without any of the keys. -/
  blanks : Prop
  /-- A list of one type may become that type. -/
  names : Prop

namespace Json

variable (leeway : Leeway)

/-- What is found under a key before and after a node is worded anew. -/
inductive FoundReworded (N : Json → Json → Prop) :
    String → Option Json → Option Json → Prop where
  | absent {key : String} : FoundReworded N key none none
  | present {key : String} {value other : Json} (alike : MemberAlike N key value other)
      (null : value = .null ↔ other = .null) : FoundReworded N key (some value) (some other)
  | named {name : String} (allowed : leeway.names) :
      FoundReworded N Keyword.type.text (some (.arr [.str name])) (some (.str name))

/-- The second node is the first one worded anew, and so are the schemas in it. -/
inductive Reworded : Json → Json → Prop where
  | plain {node other : Json} (notObject : ∀ members, node ≠ .obj members)
      (notObject' : ∀ members, other ≠ .obj members) : Reworded node other
  | blank {node other : Json} (allowed : leeway.blanks)
      (notObject : ∀ members, node ≠ .obj members) (object : other.IsObject)
      (bare : ∀ key ∈ leeway.keys, other.get? key = none) : Reworded node other
  | object {node other : Json} (object : node.IsObject) (object' : other.IsObject)
      (each : ∀ key ∈ leeway.keys,
        FoundReworded leeway Reworded key (node.get? key) (other.get? key)) :
      Reworded node other

/-- Types that come out differently when some are laid over others: of a longer list the overlay
replaces one type if it is a list and all of them if it is a name, and a list stays under an empty
one where a name does not. -/
inductive TypesClash : Option Json → Option Json → Option Json → Prop where
  | longer {first second : Json} {rest : List Json} {name : String} :
      TypesClash (some (.arr (first :: second :: rest))) (some (.arr [.str name]))
        (some (.str name))
  | emptied {name : String} {kept : Option Json} :
      TypesClash (some (.arr [.str name])) (some (.arr [])) kept

/-- A node clashes with its other wording when laid over a base: a value that is no object covers
members that an object in its place lets through, types come out differently, or the like in schemas
below. -/
inductive Clashes : Json → Json → Json → Prop where
  | covered {base overlay reworded : Json} {key : String} (allowed : leeway.blanks)
      (notObject : ∀ members, overlay ≠ .obj members) (object : reworded.IsObject)
      (read : key ∈ leeway.keys) (covers : base.get? key ≠ none) : Clashes base overlay reworded
  | types {base overlay reworded : Json} (allowed : leeway.names)
      (clash : TypesClash (base.get? Keyword.type.text) (overlay.get? Keyword.type.text)
        (reworded.get? Keyword.type.text)) : Clashes base overlay reworded
  | deeper {base overlay reworded old laid kept : Json} {key : String}
      (under : base.get? key = some old) (above : overlay.get? key = some laid)
      (replaced : reworded.get? key = some kept) (clash : ErasedIn Clashes key old laid kept) :
      Clashes base overlay reworded

section Rewording

variable {leeway} {N : Json → Json → Prop} {node other : Json} {key : String}

theorem foundReworded_of_rel {found found' : Option Json}
    (h : Option.Rel (fun value other => FoundReworded leeway N key (some value) (some other))
      found found') : FoundReworded leeway N key found found' := by
  cases h with
  | some related => exact related
  | none => exact .absent

/-- Objects are wordings of each other if their members are, one by one. -/
theorem reworded_of_forall₂ {members others : List (String × Json)}
    (distinct : (Assoc.keys members).Nodup) (distinct' : (Assoc.keys others).Nodup)
    (h : List.Forall₂ (fun member other => member.1 = other.1 ∧
      FoundReworded leeway (Reworded leeway) member.1 (some member.2) (some other.2))
      members others) : Reworded leeway (.obj members) (.obj others) :=
  .object ⟨_, rfl, distinct⟩ ⟨_, rfl, distinct'⟩ fun key _ =>
    foundReworded_of_rel (rel_get?_of_forall₂ (Q := fun key value other =>
      FoundReworded leeway (Reworded leeway) key (some value) (some other)) h key)

theorem Reworded.found (h : Reworded leeway node other) (hkey : key ∈ leeway.keys) :
    FoundReworded leeway (Reworded leeway) key (node.get? key) (other.get? key) := by
  cases h with
  | plain notObject notObject' =>
      rw [get?_of_notObject notObject, get?_of_notObject notObject']
      exact .absent
  | blank _ notObject _ bare =>
      rw [get?_of_notObject notObject, bare key hkey]
      exact .absent
  | object _ _ each => exact each key hkey

theorem Reworded.left (h : Reworded leeway node other) :
    (∀ members, node ≠ .obj members) ∨ node.IsObject := by
  cases h with
  | plain notObject | blank _ notObject => exact .inl notObject
  | object object => exact .inr object

theorem Reworded.right (h : Reworded leeway node other) :
    (∀ members, other ≠ .obj members) ∨ other.IsObject := by
  cases h with
  | plain _ notObject' => exact .inl notObject'
  | blank _ _ object | object _ object => exact .inr object

theorem Reworded.without (h : Reworded leeway node other) (key : String) :
    Reworded leeway (node.without key) (other.without key) := by
  cases h with
  | plain notObject notObject' =>
      rw [without_of_notObject notObject, without_of_notObject notObject']
      exact .plain notObject notObject'
  | blank allowed notObject object bare =>
      rw [without_of_notObject notObject]
      refine .blank allowed notObject (object.without key) fun asked hasked => ?_
      by_cases hkey : asked = key
      · rw [hkey, object.get?_without_self]
      · rw [object.get?_without_of_ne hkey, bare asked hasked]
  | object object object' each =>
      refine .object (object.without key) (object'.without key) fun asked hasked => ?_
      by_cases hkey : asked = key
      · rw [hkey, object.get?_without_self, object'.get?_without_self]
        exact .absent
      · rw [object.get?_without_of_ne hkey, object'.get?_without_of_ne hkey]
        exact each asked hasked

/-- Writing the same value into a node that has a member before. -/
theorem Reworded.put (h : Reworded leeway node other) {value : Json}
    (hobject : node.get? key ≠ none) (hplain : key ∉ ["anyOf", "allOf", "oneOf", "properties",
      "items"]) : Reworded leeway (node.put key value) (other.put key value) := by
  cases h with
  | plain notObject | blank _ notObject =>
      rw [get?_of_notObject notObject] at hobject
      exact absurd rfl hobject
  | object object object' each =>
      refine .object (object.put key value) (object'.put key value) fun asked hasked => ?_
      by_cases hkey : asked = key
      · rw [hkey, object.get?_put_self, object'.get?_put_self]
        exact .present (.other hplain) Iff.rfl
      · rw [get?_put_of_ne hkey, get?_put_of_ne hkey]
        exact each asked hasked

/-! ### Laying over -/

theorem merge_eq_null_iff (old value : Json) : old.merge value = .null ↔ value = .null := by
  constructor
  · intro h
    by_contra hvalue
    exact merge_ne_null hvalue old h
  · rintro rfl
    rfl

theorem singleton_merge (name : String) {value : Json} (h : value ≠ .arr []) :
    (Json.arr [.str name]).merge value = value := by
  cases value with
  | arr above =>
      cases above with
      | nil => exact absurd rfl h
      | cons first rest =>
          have hrest : mergeItems [] rest = rest := by cases rest <;> rfl
          rw [Json.merge, mergeItems, str_merge, hrest]
  | null | bool | int | float | str | obj => rfl

/-- Under one key, wordings laid over wordings are wordings again unless types clash. -/
theorem FoundReworded.merge {found found' laid laid' : Option Json}
    (h : FoundReworded leeway N key found found') (habove : FoundReworded leeway N key laid laid')
    (htypes : leeway.names → key = Keyword.type.text → ¬ TypesClash found laid laid')
    (hmerge : ∀ old old' value value', found = some old → laid = some value → laid' = some value' →
      MemberAlike N key old old' → MemberAlike N key value value' →
        MemberAlike N key (old.merge value) (old'.merge value')) :
    FoundReworded leeway N key (laidOver found laid) (laidOver found' laid') := by
  cases habove with
  | absent =>
      rw [laidOver_none, laidOver_none]
      exact h
  | @present _ value value' alike null =>
      cases h with
      | absent => exact .present alike null
      | @present _ old old' below _ =>
          refine .present (hmerge old old' value value' rfl rfl rfl below alike) ?_
          rw [merge_eq_null_iff, merge_eq_null_iff]
          exact null
      | @named name allowed =>
          obtain rfl := alike.eq (by decide)
          have hfilled : value ≠ .arr [] := by
            rintro rfl
            exact htypes allowed rfl .emptied
          rw [laidOver, laidOver, singleton_merge name hfilled, str_merge]
          exact .present (.other (by decide)) Iff.rfl
  | @named name allowed =>
      cases h with
      | absent => exact .named allowed
      | @present _ old old' below _ =>
          obtain rfl := below.eq (by decide)
          cases old with
          | arr items =>
              rcases items with _ | ⟨first, _ | ⟨second, rest⟩⟩
              · exact .named allowed
              · exact .named allowed
              · exact absurd .longer (htypes allowed rfl)
          | null | bool | int | float | str | obj => exact .named allowed
      | named => exact .named allowed

theorem ErasedIn.exists_below {R : Json → Json → Json → Prop} {old laid kept : Json}
    (h : ErasedIn R key old laid kept) :
    ∃ base overlay rest, overlay.size ≤ laid.size ∧ R base overlay rest := by
  cases h with
  | branch _ _ above _ below | place _ above _ below =>
      exact ⟨_, _, _, Nat.le_of_lt (size_lt_of_mem_arr (List.mem_of_getElem? above)), below⟩
  | property _ above _ below =>
      exact ⟨_, _, _, Nat.le_of_lt (size_lt_of_mem_obj (Assoc.mem_of_get? above)), below⟩
  | element below => exact ⟨_, _, _, Nat.le_refl _, below⟩

/-- Nothing clashes if values stay values and lists stay lists. -/
theorem not_clashes (hblanks : ¬ leeway.blanks) (hnames : ¬ leeway.names)
    (base overlay reworded : Json) : ¬ Clashes leeway base overlay reworded := by
  induction hsize : overlay.size using Nat.strongRecOn generalizing base overlay reworded with
  | ind size ih =>
      subst hsize
      rintro (⟨allowed⟩ | ⟨allowed⟩ | ⟨_, above, _, clash⟩)
      · exact hblanks allowed
      · exact hnames allowed
      · obtain ⟨_, _, _, hle, hbelow⟩ := clash.exists_below
        exact ih _ (Nat.lt_of_le_of_lt hle (size_lt_of_get? above)) _ _ _ rfl hbelow

variable {base base' overlay overlay' : Json}

/-- Wordings laid over wordings are wordings again unless the overlays clash. -/
theorem Reworded.merge (h : Reworded leeway base base') (habove : Reworded leeway overlay overlay')
    (hkept : ¬ Clashes leeway base overlay overlay') :
    Reworded leeway (base.merge overlay) (base'.merge overlay') := by
  induction hsize : overlay.size using Nat.strongRecOn generalizing base base' overlay overlay' with
  | ind size ih =>
      subst hsize
      cases habove with
      | plain notObject notObject' =>
          exact .plain (merge_ne_obj notObject _) (merge_ne_obj notObject' _)
      | blank allowed notObject object bare =>
          obtain ⟨hmerged, hget⟩ := object.laidOver h.right
          refine .blank allowed (merge_ne_obj notObject _) hmerged fun key hkey => ?_
          have hfound := h.found hkey
          have habsent : base.get? key = none := by
            by_contra hcovers
            exact hkept (.covered allowed notObject object hkey hcovers)
          rw [habsent] at hfound
          rw [hget, bare key hkey, laidOver_none]
          cases hfound' : base'.get? key with
          | none => rfl
          | some value =>
              rw [hfound'] at hfound
              cases hfound
      | object object object' each =>
          obtain ⟨hmerged, hget⟩ := object.laidOver h.left
          obtain ⟨hmerged', hget'⟩ := object'.laidOver h.right
          refine .object hmerged hmerged' fun key hkey => ?_
          rw [hget, hget']
          apply (h.found hkey).merge (each key hkey)
          · rintro allowed rfl clash
            exact hkept (.types allowed clash)
          · intro old old' value value' hold hvalue hvalue' hunder hover
            refine hunder.merge hover
              (fun hclash => hkept (.deeper hold hvalue hvalue' hclash)) ?_
            intro base base' overlay overlay' hle hbase hoverlay hclash
            have hlt := size_lt_of_get? hvalue
            exact ih overlay.size (Nat.lt_of_le_of_lt hle hlt) hbase hoverlay hclash rfl

end Rewording

/-! ### Compiling wordings -/

section Compiling

variable {leeway : Leeway} {node other : Json} {key : String}

/-- A schema is a wording of itself. -/
theorem reworded_self (leeway : Leeway) {node : Json} (h : node.WellFormed) :
    Reworded leeway node node := by
  induction hsize : node.size using Nat.strongRecOn generalizing node with
  | ind size ih =>
      subst hsize
      cases node with
      | null | bool | int | float | str | arr => exact .plain (by simp) (by simp)
      | obj members =>
          obtain ⟨hdistinct, hmembers⟩ := wellFormed_obj_iff.mp h
          refine .object ⟨_, rfl, hdistinct⟩ ⟨_, rfl, hdistinct⟩ fun key _ => ?_
          cases hget : (Json.obj members).get? key with
          | none => exact .absent
          | some value =>
              have hmember := Assoc.mem_of_get? hget
              have hvalue := hmembers _ hmember
              refine .present ((memberAlike_eq key hvalue).imp_of_size hvalue ?_) Iff.rfl
              rintro part _ hle hpart rfl
              exact ih part.size (Nat.lt_of_le_of_lt hle (size_lt_of_mem_obj hmember)) hpart rfl

theorem Reworded.value? (h : Reworded leeway node other) (hkey : key ∈ leeway.keys)
    (htype : key ≠ Keyword.type.text) :
    Option.Rel (MemberAlike (Reworded leeway) key) (node.value? key) (other.value? key) := by
  have hfound := h.found hkey
  rw [Json.value?, Json.value?]
  generalize node.get? key = found at hfound
  generalize other.get? key = found' at hfound
  cases hfound with
  | absent => exact .none
  | @present _ value value' alike null =>
      by_cases hvalue : value = .null
      · rw [null.mp hvalue, hvalue]
        exact .none
      · rw [nonNull_some hvalue, nonNull_some fun hvalue' => hvalue (null.mpr hvalue')]
        exact .some alike
  | named => exact absurd rfl htype

/-- The types of two wordings: the same, or a list of one type and that type. -/
theorem Reworded.types (h : Reworded leeway node other) (hkey : Keyword.type.text ∈ leeway.keys) :
    node.present? .type = other.present? .type ∨ ∃ name,
      node.present? .type = some (.arr [.str name]) ∧ other.present? .type = some (.str name) := by
  have hfound := h.found hkey
  rw [present?_eq_value?, present?_eq_value?, Json.value?, Json.value?]
  generalize node.get? Keyword.type.text = found at hfound
  generalize other.get? Keyword.type.text = found' at hfound
  cases hfound with
  | absent => exact .inl rfl
  | present alike _ =>
      obtain rfl := alike.eq (by decide)
      exact .inl rfl
  | named => exact .inr ⟨_, rfl, rfl⟩

theorem ofType_singleton (name : String) :
    Kind.ofType (.arr [.str name]) = Kind.ofType (.str name) := by
  rw [Kind.ofType, Kind.ofType, List.mapM_cons, TypeName.readEntry]
  cases TypeName.read name with
  | error e => rfl
  | ok type => rfl

theorem Reworded.related_kinds (h : Reworded leeway node other)
    (hkeys : ∀ key ∈ readKeys, key ∈ leeway.keys) :
    Outcome.Related (fun _ _ => True) (Kind.ReadAlike (Reworded leeway)) (classify node)
      (classify other) := by
  apply related_classify
  intro keyword
  have hkey := hkeys _ (mem_readKeys keyword)
  by_cases htype : keyword = .type
  · subst htype
    rcases h.types hkey with hsame | ⟨name, hlist, hname⟩
    · rw [hsame]
      exact rel_self (fun value => readAlike_ofType value) _
    · rw [hlist, hname]
      refine .some ?_
      rw [Kind.ofKeyword, Kind.ofKeyword, ofType_singleton]
      exact readAlike_ofType _
  · rw [present?_eq_value?, present?_eq_value?]
    exact rel_imp (h.value? hkey (Keyword.text_ne htype)) fun _ _ hmember => hmember.ofKeyword

theorem Reworded.agrees_types (h : Reworded leeway node other)
    (hkey : Keyword.type.text ∈ leeway.keys) :
    Agrees AnyErrors (Scope.declaredTypes node) (Scope.declaredTypes other) := by
  rcases h.types hkey with hsame | ⟨name, hlist, hname⟩
  · rw [declaredTypes_eq_of_present? hsame]
    exact agrees_self (fun _ => trivial) _
  · have hread : Scope.declaredTypes node = Scope.declaredTypes other := by
      rw [Scope.declaredTypes, Scope.declaredTypes, get?_of_present? hlist, get?_of_present? hname]
      change (do return some (← [name].mapM TypeName.read)) = do return some [← TypeName.read name]
      rw [List.mapM_cons]
      cases TypeName.read name with
      | error e => rfl
      | ok type => rfl
    rw [hread]
    exact agrees_self (fun _ => trivial) _

theorem Reworded.agrees_constraints (h : Reworded leeway node other)
    (hkeys : ∀ key ∈ readKeys, key ∈ leeway.keys) :
    Agrees AnyErrors (Constraints.ofNode node) (Constraints.ofNode other) := by
  have hsame : ∀ key ∈ Constraints.keywords, node.value? key = other.value? key := by
    intro key hkey
    have htype : ∀ key ∈ Constraints.keywords, key ≠ Keyword.type.text := by decide
    have hread := hkeys key (List.mem_append_right _ hkey)
    rcases rel_cases (h.value? hread (htype key hkey)) with
      ⟨habsent, habsent'⟩ | ⟨value, value', hvalue, hvalue', hrelated⟩
    · rw [habsent, habsent']
    · rw [hvalue, hvalue', hrelated.eq (constraints_plain key hkey)]
  have hplain {node : Json} (h : ∀ members, node ≠ .obj members) :
      Constraints.ofNode node = Constraints.ofNode (.obj []) := by
    cases node with
    | obj members => exact absurd rfl (h members)
    | null | bool | int | float | str | arr => rfl
  cases h with
  | plain notObject notObject' =>
      rw [hplain notObject, hplain notObject']
      exact agrees_self (fun _ => trivial) _
  | blank _ notObject object =>
      obtain ⟨members, rfl, hdistinct⟩ := object
      rw [hplain notObject]
      apply agrees_ofNode (show (Assoc.keys []).Nodup from List.nodup_nil) hdistinct
      intro key hkey
      rw [← hsame key hkey, Json.value?, Json.value?, get?_of_notObject notObject]
      rfl
  | object object object' =>
      obtain ⟨members, rfl, hdistinct⟩ := object
      obtain ⟨others, rfl, hdistinct'⟩ := object'
      exact agrees_ofNode hdistinct hdistinct' hsame

theorem reworded_emptySchema (leeway : Leeway) : Reworded leeway (.obj []) (.obj []) :=
  .object ⟨_, rfl, List.nodup_nil⟩ ⟨_, rfl, List.nodup_nil⟩ fun _ _ => .absent

/-- Compiling keeps up wordings that keep all members it reads, as long as nothing clashes. -/
theorem congruence_reworded (hkeys : ∀ key ∈ readKeys, key ∈ leeway.keys) :
    Congruence (Reworded leeway) (Clashes leeway) where
  without h key := h.without key
  withType h union type := by
    obtain ⟨_, _, hget⟩ := Kind.get?_of_classify union
    exact h.put (by simp [hget]) (by decide)
  merge h above kept := h.merge above kept
  kinds h := h.related_kinds hkeys
  types h := h.agrees_types (hkeys _ (mem_readKeys .type))
  parts {node other} h type := by
    have hpresent (keyword : Keyword) (htype : keyword ≠ .type) :
        Option.Rel (MemberAlike (Reworded leeway) keyword.text) (node.present? keyword)
          (other.present? keyword) := by
      rw [present?_eq_value?, present?_eq_value?]
      exact h.value? (hkeys _ (mem_readKeys keyword)) (Keyword.text_ne htype)
    exact partsCorrespond_of_alike
      (rel_imp (hpresent .properties (by simp)) fun _ _ hmember => hmember.fields.propertiesAlike)
      (rel_imp (hpresent .items (by simp)) fun _ _ hmember => hmember.itemsAlike)
      (h.agrees_constraints hkeys) (reworded_emptySchema leeway) type

end Compiling

end Json

/-! ### Running what wordings compile to -/

/-- Wherever the first of two nodes lays a schema over a base, it does not clash with the one that
the second lays there. -/
def NothingClashes (leeway : Leeway) (catalog : Catalog) (current : String) (node other : Json) :
    Prop :=
  ∀ base overlay reworded, LaysOver catalog current node other base overlay reworded →
    ¬ Json.Clashes leeway base overlay reworded

/-- Two generators cannot be told apart but by the errors of failing runs: by values, by opinions on
values, and by values under any overrides. -/
structure Generator.Indistinct (catalog : Catalog) (g h : Generator) : Prop where
  produced (depth : Nat) :
    Run.Agree (Halt.Related AnyErrors) Eq (g.produce catalog depth) (h.produce catalog depth)
  validated (value : Json) : g.validate value = h.validate value
  materialized (stores : Stores) (depth : Nat) (schema : Json) :
    Run.Agree (Halt.Related AnyErrors) Eq (materialize ⟨catalog, stores⟩ depth schema g)
      (materialize ⟨catalog, stores⟩ depth schema h)

section Running

variable {catalog : Catalog} {start : String} {root root' : Json}

theorem Lockstep.indistinct {N : String → Json → String → Json → Prop}
    (hlock : Lockstep catalog catalog AnyErrors N) {g h : Generator}
    (hlocked : LockedFrom N catalog.library g h) : Generator.Indistinct catalog g h where
  produced depth :=
    Run.agree_bind (hlock.generate (fun _ => trivial) rfl depth g h hlocked)
      (hlock.resolve (fun _ => trivial) rfl depth)
  validated := hlock.validate (fun _ => trivial) rfl hlocked
  materialized _ depth schema :=
    Draft.Built.materialize (Halt.related_self fun _ => trivial)
      (hlock.generate (fun _ => trivial) rfl) (hlock.resolve (fun _ => trivial) rfl) depth schema
      hlocked

/-- Two wordings of a schema compile both or fail both, and what they compile to cannot be told
apart, as long as nothing clashes where nodes are laid over others. -/
theorem Json.Reworded.indistinct {leeway : Leeway} (hkeys : ∀ key ∈ readKeys, key ∈ leeway.keys)
    (hcatalog : catalog.WellFormed) (h : root.Reworded leeway root')
    (hkept : ∀ current node node', ReachedTogether catalog start root root' current node node' →
      NothingClashes leeway catalog current node node') :
    Outcome.Related AnyErrors (Generator.Indistinct catalog)
      (Scope.compile ⟨start, catalog.library⟩ root)
      (Scope.compile ⟨start, catalog.library⟩ root') := by
  have hlock : Lockstep catalog catalog AnyErrors
      (Together (Json.Reworded leeway) catalog start root root') :=
    (Json.congruence_reworded hkeys).lockstep
      (fun _ _ _ hfound => Json.reworded_self leeway (hcatalog.resolve hfound)) hkept
  have hstart : Together (Json.Reworded leeway) catalog start root root' start root start root' :=
    ⟨rfl, h, .root⟩
  exact (hlock.compile (fun _ => trivial) catalog.library hstart).imp (fun _ _ he => he)
    fun _ _ hlocked => hlock.indistinct hlocked

end Running

namespace Sample

def objectNode : Json :=
  .obj [("type", .str "object")]

/-- The choice of a branch that is laid over the type object. -/
def either (branches : List Json) : Json :=
  .obj [("type", .str "object"), ("anyOf", .arr branches)]

/-- Nodes that are closed under parts and lay nothing over another node. -/
structure Settled (nodes : Json → Prop) : Prop where
  part {node part : Json} (hnode : nodes node) (isPart : node.Part part) : nodes part
  kind {node : Json} {kind : Kind} (hnode : nodes node) (classified : classify node = .ok kind) :
    kind = .empty ∨ ∃ type, kind = .single type

/-- Below a choice of settled nodes nothing else is reached. -/
theorem reached_either {catalog : Catalog} {start current : String} {branches : List Json}
    {root' node node' : Json} {nodes : Json → Prop} (hsettled : Settled nodes)
    (hbranches : ∀ branch ∈ branches, nodes (objectNode.merge branch))
    (h : ReachedTogether catalog start (either branches) root' current node node') :
    node = either branches ∨ nodes node := by
  induction h with
  | root => exact .inl rfl
  | part _ pair ih =>
      rcases ih with rfl | hnode
      · cases pair.part with
        | candidate classified candidates member =>
            cases branches with
            | nil => cases classified
            | cons first rest =>
                cases classified
                cases candidates
                obtain ⟨branch, hbranch, rfl⟩ := List.mem_map.mp member
                exact .inr (hbranches branch hbranch)
        | merged classified => cases branches <;> cases classified
        | property classified object => cases branches <;> cases classified; cases object
        | place classified array => cases branches <;> cases classified; cases array
        | element classified array => cases branches <;> cases classified; cases array
      · exact .inr (hsettled.part hnode pair.part)
  | target _ left right parsed found found' ih =>
      rcases ih with rfl | hnode
      · cases branches <;> cases left
      · rcases hsettled.kind hnode left with hkind | ⟨_, hkind⟩ <;> cases hkind

/-- An object does not clash with another one over a type. -/
theorem not_clashes_objectNode {leeway : Leeway} {overlay reworded : Json}
    (h : overlay.IsObject) : ¬ Json.Clashes leeway objectNode overlay reworded := by
  rintro (⟨-, notObject, -, -, -⟩ | ⟨-, clash⟩ | ⟨under, -, -, clash⟩)
  · obtain ⟨members, rfl, -⟩ := h
    exact notObject members rfl
  · cases clash
  · cases clash with
    | branch combinator =>
        simp only [List.mem_cons, List.not_mem_nil, or_false] at combinator
        rcases combinator with rfl | rfl | rfl <;> cases under
    | property | place | element => cases under

/-- Branches that are objects are laid over a type without clashes. -/
theorem nothingClashes_either {leeway : Leeway} {catalog : Catalog} {start current : String}
    {branches : List Json} {root' node node' : Json} {nodes : Json → Prop}
    (hsettled : Settled nodes)
    (hbranches : ∀ branch ∈ branches, branch.IsObject ∧ nodes (objectNode.merge branch))
    (h : ReachedTogether catalog start (either branches) root' current node node') :
    NothingClashes leeway catalog current node node' := by
  intro base overlay reworded hlays
  rcases reached_either hsettled (fun branch hbranch => (hbranches branch hbranch).2) h with
    rfl | hnode
  · cases hlays with
    | anyOf left _ pair =>
        cases branches with
        | nil => cases left
        | cons first rest =>
            cases left
            exact not_clashes_objectNode (hbranches _ (List.of_mem_zip pair).1).1
    | oneOf left | allOf left | siblings left => cases branches <;> cases left
  · cases hlays with
    | anyOf left | oneOf left | allOf left | siblings left =>
        rcases hsettled.kind hnode left with hkind | ⟨_, hkind⟩ <;> cases hkind

end Sample

end Specimen
