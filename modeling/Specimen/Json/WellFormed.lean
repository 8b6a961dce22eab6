import Specimen.Json.Merge

/-!
# Well-formed values

Well-formedness goes to the parts of a value and is kept by taking a member away, writing one and
merging, so that it holds of every node a well-formed schema is compiled through. A well-formed
value is equal to itself; one that holds what is not a number would not be.
-/

namespace Specimen

namespace Json

theorem wellFormedItems_iff {items : List Json} :
    WellFormedItems items ↔ ∀ item ∈ items, item.WellFormed := by
  induction items with
  | nil => simp [WellFormedItems]
  | cons item rest ih => simp [WellFormedItems, ih]

theorem wellFormedMembers_iff {members : List (String × Json)} :
    WellFormedMembers members ↔ ∀ member ∈ members, member.2.WellFormed := by
  induction members with
  | nil => simp [WellFormedMembers]
  | cons member rest ih =>
    obtain ⟨name, value⟩ := member
    simp only [WellFormedMembers, ih, List.forall_mem_cons]

theorem wellFormed_arr_iff {items : List Json} :
    (Json.arr items).WellFormed ↔ ∀ item ∈ items, item.WellFormed := by
  rw [WellFormed, wellFormedItems_iff]

theorem wellFormed_obj_iff {members : List (String × Json)} :
    (Json.obj members).WellFormed ↔
      (Assoc.keys members).Nodup ∧ ∀ member ∈ members, member.2.WellFormed := by
  rw [WellFormed, wellFormedMembers_iff]

namespace WellFormed

variable {node value : Json} {key : String}

theorem get? (h : node.WellFormed) (hget : node.get? key = some value) : value.WellFormed := by
  cases node with
  | obj members => exact (wellFormed_obj_iff.1 h).2 _ (Assoc.mem_of_get? hget)
  | _ => cases hget

theorem without (h : node.WellFormed) (key : String) : (node.without key).WellFormed := by
  cases node with
  | obj members =>
    rw [wellFormed_obj_iff] at h
    refine wellFormed_obj_iff.2 ⟨Assoc.nodup_keys_erase h.1, ?_⟩
    intro member hmember
    exact h.2 member ((Assoc.erase_sublist key members).subset hmember)
  | _ => exact h

theorem put_members {members : List (String × Json)} (h : (Json.obj members).WellFormed)
    (key : String) (hvalue : value.WellFormed) :
    (Json.obj (Assoc.put key value members)).WellFormed := by
  rw [wellFormed_obj_iff] at h
  refine wellFormed_obj_iff.2 ⟨Assoc.nodup_keys_put h.1, ?_⟩
  intro member hmember
  rcases Assoc.mem_put hmember with hold | rfl
  · exact h.2 member hold
  · exact hvalue

theorem put (h : node.WellFormed) (key : String) (hvalue : value.WellFormed) :
    (node.put key value).WellFormed := by
  cases node with
  | obj members => exact h.put_members key hvalue
  | _ => exact h

end WellFormed

mutual

theorem wellFormed_merge {base overlay : Json} (hbase : base.WellFormed)
    (hoverlay : overlay.WellFormed) : (base.merge overlay).WellFormed := by
  match overlay with
  | .obj above =>
    cases base with
    | obj members =>
      exact wellFormed_mergeMembers hbase (wellFormed_obj_iff.1 hoverlay).2
    | _ => exact hoverlay
  | .arr above =>
    cases base with
    | arr items =>
      rw [wellFormed_arr_iff] at hbase hoverlay
      exact wellFormed_arr_iff.2 (wellFormed_mergeItems hbase hoverlay)
    | _ => exact hoverlay
  | .null | .bool _ | .int _ | .float _ | .str _ => exact hoverlay
termination_by structural overlay

theorem wellFormed_mergeMembers {members above : List (String × Json)}
    (hmembers : (Json.obj members).WellFormed) (habove : ∀ member ∈ above, member.2.WellFormed) :
    (Json.obj (mergeMembers members above)).WellFormed := by
  match above with
  | [] => exact hmembers
  | (key, value) :: rest =>
    have hvalue := habove (key, value) List.mem_cons_self
    have hrest := fun member hmember => habove member (List.mem_cons_of_mem _ hmember)
    rw [mergeMembers]
    cases hold : Assoc.get? key members with
    | none => exact wellFormed_mergeMembers (hmembers.put_members key hvalue) hrest
    | some old =>
      have hmerged : (old.merge value).WellFormed :=
        wellFormed_merge (hmembers.get? hold) hvalue
      exact wellFormed_mergeMembers (hmembers.put_members key hmerged) hrest
termination_by structural above

theorem wellFormed_mergeItems {items above : List Json} (hitems : ∀ item ∈ items, item.WellFormed)
    (habove : ∀ item ∈ above, item.WellFormed) :
    ∀ item ∈ mergeItems items above, item.WellFormed := by
  match items, above with
  | items, [] =>
    cases items <;> exact hitems
  | [], value :: above => exact habove
  | item :: items, value :: above =>
    rw [List.forall_mem_cons] at hitems habove
    rw [mergeItems, List.forall_mem_cons]
    exact ⟨wellFormed_merge hitems.1 habove.1, wellFormed_mergeItems hitems.2 habove.2⟩
termination_by structural above

end

theorem wellFormed_foldl_merge {nodes : List Json} {base : Json} (hbase : base.WellFormed)
    (hnodes : ∀ node ∈ nodes, node.WellFormed) : (nodes.foldl merge base).WellFormed := by
  induction nodes generalizing base with
  | nil => exact hbase
  | cons node rest ih =>
    rw [List.forall_mem_cons] at hnodes
    exact ih (wellFormed_merge hbase hnodes.1) hnodes.2

end Json

theorem Double.equal_self {x : Double} (h : x.isFinite = true) : x.equal x = true := by
  have hnan : x.isNaN = false := by
    simp only [isFinite, isNaN, decide_eq_true_eq, decide_eq_false_iff_not] at *
    omega
  simp [equal, hnan]

namespace Json

mutual

theorem equal_self {node : Json} (h : node.WellFormed) : node.equal node = true := by
  match node with
  | .null => rfl
  | .bool _ | .int _ | .str _ => simp [equal]
  | .float x => exact Double.equal_self h
  | .arr items =>
    rw [wellFormed_arr_iff] at h
    exact equalItems_self h
  | .obj members =>
    rw [wellFormed_obj_iff] at h
    have hmembers : equalMembers members members = true := by
      apply equalMembers_of_get? h.2
      intro key value hmem
      exact Assoc.get?_of_mem h.1 hmem
    simp [equal, hmembers]
termination_by structural node

theorem equalItems_self {items : List Json} (h : ∀ item ∈ items, item.WellFormed) :
    equalItems items items = true := by
  match items with
  | [] => rfl
  | item :: rest =>
    rw [List.forall_mem_cons] at h
    rw [equalItems, equal_self h.1, equalItems_self h.2]
    rfl
termination_by structural items

theorem equalMembers_of_get? {members others : List (String × Json)}
    (h : ∀ member ∈ members, member.2.WellFormed)
    (hget : ∀ key value, (key, value) ∈ members → Assoc.get? key others = some value) :
    equalMembers members others = true := by
  match members with
  | [] => rfl
  | (key, value) :: rest =>
    rw [List.forall_mem_cons] at h
    have hvalue : value.equal value = true := equal_self h.1
    have hrest : equalMembers rest others = true :=
      equalMembers_of_get? h.2 fun key value hmem => hget key value (List.mem_cons_of_mem _ hmem)
    simp only [equalMembers, hget key value List.mem_cons_self, hvalue, hrest, Bool.and_self]
termination_by structural members

end

end Json

end Specimen
