/-!
# Ordered dictionaries

A dictionary is the list of its entries in insertion order. Writing a key that is there already
keeps its place; a new key goes to the end.
-/

namespace Specimen

namespace Assoc

variable {κ α : Type} [DecidableEq κ]

def get? (key : κ) : List (κ × α) → Option α
  | [] => none
  | (name, value) :: rest => if name = key then some value else get? key rest

def contains (key : κ) (entries : List (κ × α)) : Bool :=
  (get? key entries).isSome

def put (key : κ) (value : α) : List (κ × α) → List (κ × α)
  | [] => [(key, value)]
  | (name, old) :: rest =>
    if name = key then (name, value) :: rest else (name, old) :: put key value rest

def erase (key : κ) : List (κ × α) → List (κ × α)
  | [] => []
  | (name, value) :: rest => if name = key then rest else (name, value) :: erase key rest

def keys (entries : List (κ × α)) : List κ :=
  entries.map Prod.fst

@[simp] theorem get?_nil (key : κ) : get? key ([] : List (κ × α)) = none := rfl

theorem get?_put_self (key : κ) (value : α) (entries : List (κ × α)) :
    get? key (put key value entries) = some value := by
  induction entries with
  | nil => simp [put, get?]
  | cons entry rest ih =>
    by_cases h : entry.1 = key <;> simp [put, get?, h, ih]

theorem get?_put_of_ne {key other : κ} (hne : other ≠ key) (value : α) (entries : List (κ × α)) :
    get? other (put key value entries) = get? other entries := by
  induction entries with
  | nil => simp [put, get?, Ne.symm hne]
  | cons entry rest ih =>
    by_cases h : entry.1 = key
    · simp [put, get?, h, Ne.symm hne]
    · simp [put, get?, h, ih]

theorem put_eq_self {key : κ} {value : α} {entries : List (κ × α)}
    (h : get? key entries = some value) : put key value entries = entries := by
  induction entries with
  | nil => cases h
  | cons entry rest ih =>
    obtain ⟨name, old⟩ := entry
    by_cases hk : name = key
    · simp only [get?, hk, if_true, Option.some.injEq] at h
      simp [put, hk, h]
    · simp only [get?, hk, if_false] at h
      simp [put, hk, ih h]

theorem get?_isSome_iff (key : κ) (entries : List (κ × α)) :
    (get? key entries).isSome ↔ key ∈ keys entries := by
  induction entries with
  | nil => simp [keys]
  | cons entry rest ih =>
    by_cases h : entry.1 = key
    · simp [get?, keys, h]
    · simp only [keys] at ih
      simp [get?, keys, h, ih, Ne.symm h]

theorem mem_of_get? {key : κ} {value : α} {entries : List (κ × α)}
    (h : get? key entries = some value) : (key, value) ∈ entries := by
  induction entries with
  | nil => simp at h
  | cons entry rest ih =>
    by_cases hk : entry.1 = key
    · simp only [get?, hk, if_true, Option.some.injEq] at h
      subst hk
      subst h
      exact List.mem_cons_self ..
    · simp only [get?, hk, if_false] at h
      exact List.mem_cons_of_mem _ (ih h)

/-- With distinct keys every entry is the one that is found. -/
theorem get?_of_mem {key : κ} {value : α} {entries : List (κ × α)} (hnodup : (keys entries).Nodup)
    (h : (key, value) ∈ entries) : get? key entries = some value := by
  induction entries with
  | nil => cases h
  | cons entry rest ih =>
    simp only [keys, List.map_cons, List.nodup_cons] at hnodup
    rcases List.mem_cons.1 h with rfl | h
    · simp [get?]
    · have hne : entry.1 ≠ key := by
        rintro rfl
        exact hnodup.1 (List.mem_map.2 ⟨_, h, rfl⟩)
      simp only [get?, hne, if_false]
      exact ih hnodup.2 h

theorem mem_put {key : κ} {value : α} {entries : List (κ × α)} {entry : κ × α}
    (h : entry ∈ put key value entries) : entry ∈ entries ∨ entry = (key, value) := by
  induction entries with
  | nil => exact .inr (List.mem_singleton.1 h)
  | cons first rest ih =>
    by_cases hk : first.1 = key
    · simp only [put, hk, if_true] at h
      rcases List.mem_cons.1 h with h | h
      · exact .inr h
      · exact .inl (List.mem_cons_of_mem _ h)
    · simp only [put, hk, if_false] at h
      rcases List.mem_cons.1 h with h | h
      · exact .inl (h ▸ List.mem_cons_self ..)
      · exact (ih h).imp (List.mem_cons_of_mem _) id

theorem nodup_keys_put {key : κ} {value : α} {entries : List (κ × α)}
    (h : (keys entries).Nodup) : (keys (put key value entries)).Nodup := by
  induction entries with
  | nil => simp [put, keys]
  | cons entry rest ih =>
    simp only [keys, List.map_cons, List.nodup_cons] at h
    by_cases hk : entry.1 = key
    · simp only [put, hk, if_true, keys, List.map_cons, List.nodup_cons]
      exact hk ▸ h
    · simp only [put, hk, if_false, keys, List.map_cons, List.nodup_cons]
      refine ⟨?_, ih h.2⟩
      intro hmem
      obtain ⟨other, hother, heq⟩ := List.mem_map.1 hmem
      rcases mem_put hother with hold | rfl
      · exact h.1 (List.mem_map.2 ⟨other, hold, heq⟩)
      · exact hk heq.symm

theorem get?_eq_none_iff {key : κ} {entries : List (κ × α)} :
    get? key entries = none ↔ key ∉ keys entries := by
  rw [← Option.not_isSome_iff_eq_none, get?_isSome_iff]

theorem keys_put (key : κ) (value : α) (entries : List (κ × α)) :
    keys (put key value entries) =
      if key ∈ keys entries then keys entries else keys entries ++ [key] := by
  induction entries with
  | nil => simp [put, keys]
  | cons entry rest ih =>
    by_cases hkey : entry.1 = key
    · simp [put, keys, hkey]
    · simp only [keys] at ih
      by_cases hmem : key ∈ rest.map Prod.fst <;> simp [put, keys, hkey, Ne.symm hkey, ih, hmem]

theorem get?_erase_self {key : κ} {entries : List (κ × α)} (hdistinct : (keys entries).Nodup) :
    get? key (erase key entries) = none := by
  induction entries with
  | nil => rfl
  | cons entry rest ih =>
    simp only [keys, List.map_cons, List.nodup_cons] at hdistinct
    by_cases hkey : entry.1 = key
    · rw [erase, if_pos hkey, get?_eq_none_iff]
      exact hkey ▸ hdistinct.1
    · rw [erase, if_neg hkey, get?, if_neg hkey]
      exact ih hdistinct.2

theorem get?_erase_of_ne {key other : κ} (hne : other ≠ key) (entries : List (κ × α)) :
    get? other (erase key entries) = get? other entries := by
  induction entries with
  | nil => rfl
  | cons entry rest ih =>
    by_cases hkey : entry.1 = key
    · rw [erase, if_pos hkey, get?, if_neg (hkey ▸ hne.symm)]
    · rw [erase, if_neg hkey, get?, get?, ih]

theorem erase_put_self (key : κ) (value : α) (entries : List (κ × α)) :
    erase key (put key value entries) = erase key entries := by
  induction entries with
  | nil => simp [put, erase]
  | cons entry rest ih =>
    by_cases hkey : entry.1 = key <;> simp [put, erase, hkey, ih]

theorem erase_put_of_ne {key other : κ} (hne : key ≠ other) (value : α) (entries : List (κ × α)) :
    erase other (put key value entries) = put key value (erase other entries) := by
  induction entries with
  | nil => rw [erase, put, erase, if_neg hne, erase]
  | cons entry rest ih =>
    by_cases hkey : entry.1 = key
    · have hother : entry.1 ≠ other := fun heq => hne (hkey.symm.trans heq)
      rw [put, if_pos hkey, erase, if_neg hother, erase, if_neg hother, put, if_pos hkey]
    · by_cases hother : entry.1 = other
      · rw [put, if_neg hkey, erase, if_pos hother, erase, if_pos hother]
      · rw [put, if_neg hkey, erase, if_neg hother, erase, if_neg hother, put, if_neg hkey, ih]

theorem erase_eq_self {key : κ} {entries : List (κ × α)} (h : get? key entries = none) :
    erase key entries = entries := by
  induction entries with
  | nil => rfl
  | cons entry rest ih =>
    by_cases hkey : entry.1 = key
    · simp [get?, hkey] at h
    · rw [get?, if_neg hkey] at h
      rw [erase, if_neg hkey, ih h]

theorem erase_sublist (key : κ) (entries : List (κ × α)) :
    (erase key entries).Sublist entries := by
  induction entries with
  | nil => exact .slnil
  | cons entry rest ih =>
    by_cases hk : entry.1 = key
    · simp [erase, hk]
    · simpa [erase, hk] using ih

theorem nodup_keys_erase {key : κ} {entries : List (κ × α)} (h : (keys entries).Nodup) :
    (keys (erase key entries)).Nodup :=
  h.sublist ((erase_sublist key entries).map _)

end Assoc

end Specimen
