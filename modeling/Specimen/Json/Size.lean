import Specimen.Json.Merge

/-!
# Sizes

Removing a member takes its size away, writing one exchanges sizes, and a merge is never larger than
its two sides together. These are the measures by which compiling a schema ends.
-/

namespace Specimen

namespace Json

theorem size_pos (node : Json) : 0 < node.size := by
  cases node <;> simp only [size] <;> omega

theorem size_le_sizeItems {node : Json} {items : List Json} (h : node ∈ items) :
    node.size ≤ sizeItems items := by
  induction items with
  | nil => simp at h
  | cons item rest ih =>
    simp only [sizeItems]
    rcases List.mem_cons.1 h with rfl | h
    · omega
    · have := ih h
      omega

theorem size_le_sizeMembers {key : String} {node : Json} {members : List (String × Json)}
    (h : (key, node) ∈ members) : node.size ≤ sizeMembers members := by
  induction members with
  | nil => simp at h
  | cons member rest ih =>
    obtain ⟨name, value⟩ := member
    simp only [sizeMembers]
    rcases List.mem_cons.1 h with heq | h
    · simp only [Prod.mk.injEq] at heq
      rw [heq.2]
      omega
    · have := ih h
      omega

theorem size_lt_of_mem_arr {node : Json} {items : List Json} (h : node ∈ items) :
    node.size < (arr items).size := by
  have := size_le_sizeItems h
  simp only [size]
  omega

theorem size_lt_of_mem_obj {key : String} {node : Json} {members : List (String × Json)}
    (h : (key, node) ∈ members) : node.size < (obj members).size := by
  have := size_le_sizeMembers h
  simp only [size]
  omega

theorem sizeMembers_erase {key : String} {value : Json} {members : List (String × Json)}
    (h : Assoc.get? key members = some value) :
    sizeMembers (Assoc.erase key members) + value.size = sizeMembers members := by
  induction members with
  | nil => simp at h
  | cons member rest ih =>
    obtain ⟨name, old⟩ := member
    by_cases hk : name = key
    · simp only [Assoc.get?, hk, if_true, Option.some.injEq] at h
      simp only [Assoc.erase, hk, if_true, sizeMembers, h]
      omega
    · simp only [Assoc.get?, hk, if_false] at h
      have := ih h
      simp only [Assoc.erase, hk, if_false, sizeMembers]
      omega

theorem sizeMembers_put_of_some {key : String} {old : Json} {members : List (String × Json)}
    (h : Assoc.get? key members = some old) (value : Json) :
    sizeMembers (Assoc.put key value members) + old.size = sizeMembers members + value.size := by
  induction members with
  | nil => simp at h
  | cons member rest ih =>
    obtain ⟨name, found⟩ := member
    by_cases hk : name = key
    · simp only [Assoc.get?, hk, if_true, Option.some.injEq] at h
      simp only [Assoc.put, hk, if_true, sizeMembers, h]
      omega
    · simp only [Assoc.get?, hk, if_false] at h
      have := ih h
      simp only [Assoc.put, hk, if_false, sizeMembers]
      omega

theorem sizeMembers_put_of_none {key : String} {members : List (String × Json)}
    (h : Assoc.get? key members = none) (value : Json) :
    sizeMembers (Assoc.put key value members) = sizeMembers members + value.size := by
  induction members with
  | nil => simp [Assoc.put, sizeMembers]
  | cons member rest ih =>
    obtain ⟨name, found⟩ := member
    by_cases hk : name = key
    · simp [Assoc.get?, hk] at h
    · simp only [Assoc.get?, hk, if_false] at h
      have := ih h
      simp only [Assoc.put, hk, if_false, sizeMembers]
      omega

theorem size_without {key : String} {value node : Json} (h : node.get? key = some value) :
    (node.without key).size + value.size = node.size := by
  cases node with
  | obj members =>
    have := sizeMembers_erase (by simpa [get?] using h)
    simp only [without, size]
    omega
  | _ => simp [get?] at h

theorem size_put_of_some {key : String} {old node : Json} (h : node.get? key = some old)
    (value : Json) : (node.put key value).size + old.size = node.size + value.size := by
  cases node with
  | obj members =>
    have := sizeMembers_put_of_some (by simpa [get?] using h) value
    simp only [put, size]
    omega
  | _ => simp [get?] at h

theorem size_lt_of_get? {key : String} {value node : Json} (h : node.get? key = some value) :
    value.size < node.size := by
  have := size_without h
  have := size_pos (node.without key)
  omega

theorem size_lt_of_get?_obj {key : String} {node : Json} {members : List (String × Json)}
    (h : node.get? key = some (.obj members)) {member : String × Json} (hmember : member ∈ members) :
    member.2.size < node.size := by
  have hmembers := size_lt_of_get? h
  have hle := size_le_sizeMembers hmember
  simp only [size] at hmembers
  omega

theorem size_lt_of_get?_arr {key : String} {node : Json} {items : List Json}
    (h : node.get? key = some (.arr items)) {item : Json} (hitem : item ∈ items) :
    item.size < node.size := by
  have hitems := size_lt_of_get? h
  have hle := size_le_sizeItems hitem
  simp only [size] at hitems
  omega

mutual

theorem size_merge_le (base overlay : Json) :
    (base.merge overlay).size ≤ base.size + overlay.size := by
  cases overlay with
  | obj above =>
    cases base with
    | obj members =>
      have := sizeMembers_mergeMembers_le members above
      simp only [merge, size]
      omega
    | _ =>
      simp only [merge, size]
      omega
  | arr above =>
    cases base with
    | arr items =>
      have := sizeItems_mergeItems_le items above
      simp only [merge, size]
      omega
    | _ =>
      simp only [merge, size]
      omega
  | _ =>
    simp only [merge, size]
    omega
termination_by sizeOf overlay

theorem sizeMembers_mergeMembers_le (members above : List (String × Json)) :
    sizeMembers (mergeMembers members above) ≤ sizeMembers members + sizeMembers above := by
  match above with
  | [] => simp [mergeMembers, sizeMembers]
  | (key, value) :: rest =>
    cases h : Assoc.get? key members with
    | some old =>
      have hrest := sizeMembers_mergeMembers_le (Assoc.put key (merge old value) members) rest
      have hput := sizeMembers_put_of_some h (merge old value)
      have hmerge := size_merge_le old value
      simp only [mergeMembers, h, sizeMembers]
      omega
    | none =>
      have hrest := sizeMembers_mergeMembers_le (Assoc.put key value members) rest
      have hput := sizeMembers_put_of_none h value
      simp only [mergeMembers, h, sizeMembers]
      omega
termination_by sizeOf above

theorem sizeItems_mergeItems_le (items above : List Json) :
    sizeItems (mergeItems items above) ≤ sizeItems items + sizeItems above := by
  match items, above with
  | [], [] => simp [mergeItems, sizeItems]
  | item :: items, [] => simp [mergeItems, sizeItems]
  | [], value :: above => simp [mergeItems, sizeItems]
  | item :: items, value :: above =>
    have hrest := sizeItems_mergeItems_le items above
    have hmerge := size_merge_le item value
    simp only [mergeItems, sizeItems]
    omega
termination_by sizeOf above

end

theorem size_foldl_merge_le (base : Json) (nodes : List Json) :
    (nodes.foldl merge base).size ≤ base.size + sizeItems nodes := by
  induction nodes generalizing base with
  | nil => simp [sizeItems]
  | cons node rest ih =>
    have := ih (base.merge node)
    have := size_merge_le base node
    simp only [List.foldl_cons, sizeItems]
    omega

/-- The size of the largest of several values. -/
def maxSize (nodes : List Json) : Nat :=
  nodes.foldr (fun node most => Nat.max node.size most) 0

theorem maxSize_le {nodes : List Json} {bound : Nat} (h : ∀ node ∈ nodes, node.size ≤ bound) :
    maxSize nodes ≤ bound := by
  induction nodes with
  | nil => simp [maxSize]
  | cons node rest ih =>
    have hnode := h node (by simp)
    have hrest := ih fun other hother => h other (by simp [hother])
    exact Nat.max_le.2 ⟨hnode, hrest⟩

theorem maxSize_cons (node : Json) (rest : List Json) :
    node.size ≤ maxSize (node :: rest) ∧ maxSize rest ≤ maxSize (node :: rest) :=
  ⟨Nat.le_max_left .., Nat.le_max_right ..⟩

theorem maxSize_le_sizeItems (nodes : List Json) : maxSize nodes ≤ sizeItems nodes :=
  maxSize_le fun _ h => size_le_sizeItems h

theorem maxSize_le_sizeMembers (members : List (String × Json)) :
    maxSize (members.map Prod.snd) ≤ sizeMembers members := by
  apply maxSize_le
  intro node hnode
  obtain ⟨⟨key, value⟩, hmem, rfl⟩ := List.mem_map.1 hnode
  exact size_le_sizeMembers hmem

/-- A node with a list for a member is what is left without it, the list itself and its items. -/
theorem size_without_arr {key : String} {node : Json} {items : List Json}
    (h : node.get? key = some (.arr items)) :
    (node.without key).size + sizeItems items + 1 = node.size := by
  have := size_without h
  simp only [size] at this
  omega

end Json

end Specimen
