import Mathlib.Data.List.Forall2
import Specimen.Json.WellFormed

/-!
# Merging, place by place

A merge is read through what it leaves below it. Two containers of one kind are gone into: an object
has, under every key, what the two sides have there laid over each other, with the keys of the base
first; an array has the same at every place. Anything else of the overlay stands as it is. By
induction on a route down into the two sides this says what a merged value has everywhere.
-/

namespace Specimen

namespace Assoc

variable {κ α β : Type} [DecidableEq κ]

/-- Entries under the same distinct keys go together if what is found under every key does. -/
theorem forall₂_of_get? {Q : α → β → Prop} {entries : List (κ × α)} {others : List (κ × β)}
    (hkeys : keys entries = keys others) (hdistinct : (keys entries).Nodup)
    (h : ∀ key, Option.Rel Q (get? key entries) (get? key others)) :
    List.Forall₂ (fun entry other => entry.1 = other.1 ∧ Q entry.2 other.2) entries others := by
  induction entries generalizing others with
  | nil =>
      cases others with
      | nil => exact .nil
      | cons => cases hkeys
  | cons entry rest ih =>
      cases others with
      | nil => cases hkeys
      | cons entry' rest' =>
          obtain ⟨hfirst, hrest⟩ := List.cons.inj hkeys
          have hsame : entry.1 = entry'.1 := hfirst
          simp only [keys, List.map_cons, List.nodup_cons] at hdistinct
          have hfound := h entry.1
          rw [get?, get?, if_pos rfl, if_pos hsame.symm] at hfound
          cases hfound with
          | some related =>
              refine .cons ⟨hsame, related⟩ (ih hrest hdistinct.2 fun key => ?_)
              by_cases hkey : entry.1 = key
              · have hfresh : get? key rest = none := by
                  rw [get?_eq_none_iff, ← hkey]
                  exact hdistinct.1
                have hfresh' : get? key rest' = none := by
                  rw [get?_eq_none_iff, ← hkey]
                  exact fun hmem => hdistinct.1 (hrest ▸ hmem)
                rw [hfresh, hfresh']
                exact .none
              · have hfound := h key
                rwa [get?, get?, if_neg hkey, if_neg (hsame ▸ hkey)] at hfound

theorem eq_of_get? {entries others : List (κ × α)} (hkeys : keys entries = keys others)
    (hdistinct : (keys entries).Nodup) (h : ∀ key, get? key entries = get? key others) :
    entries = others := by
  have hsame : ∀ key, Option.Rel (· = ·) (get? key entries) (get? key others) := by
    intro key
    rw [h key]
    cases get? key others with
    | none => exact .none
    | some value => exact .some rfl
  have heach := forall₂_of_get? hkeys hdistinct hsame
  rw [← List.forall₂_eq_eq_eq]
  exact heach.imp fun _ _ hentry => Prod.ext hentry.1 hentry.2

end Assoc

namespace Json

/-- What is found under a key after one object is laid over another, from what was found before. -/
def laidOver : Option Json → Option Json → Option Json
  | found, none => found
  | none, some value => some value
  | some old, some value => some (old.merge value)

theorem laidOver_none (found : Option Json) : laidOver found none = found := by
  cases found <;> rfl

theorem get?_mergeMembers {members above : List (String × Json)}
    (hdistinct : (Assoc.keys above).Nodup) (key : String) :
    Assoc.get? key (mergeMembers members above) =
      laidOver (Assoc.get? key members) (Assoc.get? key above) := by
  induction above generalizing members with
  | nil => rfl
  | cons entry rest ih =>
      obtain ⟨written, value⟩ := entry
      simp only [Assoc.keys, List.map_cons, List.nodup_cons] at hdistinct
      rw [mergeMembers, ih hdistinct.2, Assoc.get?]
      by_cases hkey : written = key
      · have hfresh : Assoc.get? key rest = none := by
          rw [Assoc.get?_eq_none_iff, ← hkey]
          exact hdistinct.1
        rw [if_pos hkey, hfresh, hkey, Assoc.get?_put_self]
        cases Assoc.get? key members <;> rfl
      · rw [if_neg hkey, Assoc.get?_put_of_ne (fun heq => hkey heq.symm)]

/-- The keys of the base keep their places, and new ones follow in the order of the overlay. -/
theorem keys_mergeMembers {members above : List (String × Json)}
    (hdistinct : (Assoc.keys above).Nodup) :
    Assoc.keys (mergeMembers members above) =
      Assoc.keys members ++ (Assoc.keys above).filter (· ∉ Assoc.keys members) := by
  induction above generalizing members with
  | nil => simp [mergeMembers, Assoc.keys]
  | cons entry rest ih =>
      obtain ⟨written, value⟩ := entry
      have hparts : written ∉ Assoc.keys rest ∧ (Assoc.keys rest).Nodup :=
        List.nodup_cons.mp hdistinct
      have hkeys : Assoc.keys ((written, value) :: rest) = written :: Assoc.keys rest := rfl
      rw [mergeMembers, ih hparts.2, Assoc.keys_put, hkeys]
      by_cases hmem : written ∈ Assoc.keys members
      · rw [if_pos hmem, List.filter_cons_of_neg (by simpa using hmem)]
      · rw [if_neg hmem, List.filter_cons_of_pos (by simpa using hmem), List.append_assoc,
          List.singleton_append]
        congr 2
        apply List.filter_congr
        intro key hkey
        have hne : key ≠ written := fun heq => hparts.1 (heq ▸ hkey)
        simp [hne]

theorem nodup_keys_mergeMembers {members above : List (String × Json)}
    (h : (Assoc.keys members).Nodup) : (Assoc.keys (mergeMembers members above)).Nodup := by
  induction above generalizing members with
  | nil => exact h
  | cons entry rest ih =>
      rw [mergeMembers]
      exact ih (Assoc.nodup_keys_put h)

theorem getElem?_mergeItems (items above : List Json) (place : Nat) :
    (mergeItems items above)[place]? = laidOver items[place]? above[place]? := by
  induction above generalizing items place with
  | nil => cases items <;> rw [mergeItems, List.getElem?_nil, laidOver_none]
  | cons value above ih =>
      cases items with
      | nil =>
          rw [mergeItems, List.getElem?_nil]
          · cases (value :: above)[place]? <;> rfl
          · rintro ⟨⟩
      | cons item items =>
          rw [mergeItems]
          cases place with
          | zero => rfl
          | succ place => exact ih items place

end Json

/-! ### Routes into a value -/

/-- The two kinds of values that have others in them. -/
inductive Container where
  | object
  | array
  deriving DecidableEq, Repr

/-- A step down into a value: to the member under a key, or to the item at a place. -/
inductive Step where
  | member (key : String)
  | item (place : Nat)
  deriving DecidableEq, Repr

/-- Steps down into a value, one after the other. -/
abbrev Route := List Step

/-- What a step goes into. -/
def Step.container : Step → Container
  | .member _ => .object
  | .item _ => .array

namespace Json

def container? : Json → Option Container
  | .obj _ => some .object
  | .arr _ => some .array
  | _ => none

/-- The keys of an object in their order. -/
def keys : Json → List String
  | .obj members => Assoc.keys members
  | _ => []

/-- The item of an array at a place. -/
def item? (place : Nat) : Json → Option Json
  | .arr items => items[place]?
  | _ => none

/-- What a step into a value leads to. -/
def child? (node : Json) : Step → Option Json
  | .member key => node.get? key
  | .item place => node.item? place

/-- What a route into a value leads to. -/
def at? (node : Json) : Route → Option Json
  | [] => some node
  | step :: rest =>
    match node.child? step with
    | some child => child.at? rest
    | none => none

/-- Two values are containers of one kind, so that merging goes into both. -/
def Meets (base overlay : Json) : Prop :=
  ∃ kind, base.container? = some kind ∧ overlay.container? = some kind

variable {node base overlay child : Json} {step : Step} {front rest : Route}

theorem container?_of_child? (h : node.child? step = some child) :
    node.container? = some step.container := by
  cases step with
  | member key =>
      cases node with
      | obj members => rfl
      | _ => cases h
  | item place =>
      cases node with
      | arr items => rfl
      | _ => cases h

theorem meets_of_child? {below above : Json} (hbase : base.child? step = some below)
    (hoverlay : overlay.child? step = some above) : base.Meets overlay :=
  ⟨step.container, container?_of_child? hbase, container?_of_child? hoverlay⟩

theorem WellFormed.child? (h : node.WellFormed) (hchild : node.child? step = some child) :
    child.WellFormed := by
  cases step with
  | member key => exact h.get? hchild
  | item place =>
      cases node with
      | arr items => exact wellFormed_arr_iff.mp h child (List.mem_of_getElem? hchild)
      | _ => cases hchild

theorem at?_cons_of_some (h : node.child? step = some child) (rest : Route) :
    node.at? (step :: rest) = child.at? rest := by
  simp only [at?, h]

theorem at?_cons_of_none (h : node.child? step = none) (rest : Route) :
    node.at? (step :: rest) = none := by
  simp only [at?, h]

theorem exists_child?_of_at?_cons {found : Json} (h : node.at? (step :: rest) = some found) :
    ∃ child, node.child? step = some child ∧ child.at? rest = some found := by
  cases hchild : node.child? step with
  | none => simp [at?_cons_of_none hchild] at h
  | some child => exact ⟨child, rfl, at?_cons_of_some hchild rest ▸ h⟩

theorem at?_append {here : Json} (h : node.at? front = some here) (rest : Route) :
    node.at? (front ++ rest) = here.at? rest := by
  induction front generalizing node with
  | nil =>
      obtain rfl := Option.some.inj h
      rfl
  | cons step front ih =>
      obtain ⟨child, hchild, hfront⟩ := exists_child?_of_at?_cons h
      rw [List.cons_append, at?_cons_of_some hchild]
      exact ih hfront

theorem WellFormed.at? {route : Route} {found : Json} (h : node.WellFormed)
    (hfound : node.at? route = some found) : found.WellFormed := by
  induction route generalizing node with
  | nil => exact Option.some.inj hfound ▸ h
  | cons step rest ih =>
      obtain ⟨child, hchild, hrest⟩ := exists_child?_of_at?_cons hfound
      exact ih (h.child? hchild) hrest

theorem exists_at?_of_append {found : Json} (h : node.at? (front ++ rest) = some found) :
    ∃ here, node.at? front = some here := by
  induction front generalizing node with
  | nil => exact ⟨node, rfl⟩
  | cons step front ih =>
      obtain ⟨child, hchild, hrest⟩ := exists_child?_of_at?_cons h
      obtain ⟨here, hhere⟩ := ih hrest
      exact ⟨here, by rw [at?_cons_of_some hchild, hhere]⟩

/-! ### One step into a merged value -/

theorem merge_of_not_meets (h : ¬ base.Meets overlay) : base.merge overlay = overlay := by
  cases overlay with
  | obj above =>
      cases base with
      | obj members => exact absurd ⟨.object, rfl, rfl⟩ h
      | _ => rfl
  | arr above =>
      cases base with
      | arr items => exact absurd ⟨.array, rfl, rfl⟩ h
      | _ => rfl
  | _ => rfl

theorem merge_of_container?_eq_none (h : overlay.container? = none) (base : Json) :
    base.merge overlay = overlay := by
  apply merge_of_not_meets
  rintro ⟨kind, -, hkind⟩
  cases h.symm.trans hkind

theorem container?_merge (base overlay : Json) :
    (base.merge overlay).container? = overlay.container? := by
  cases overlay with
  | obj above => cases base <;> rfl
  | arr above => cases base <;> rfl
  | _ => rfl

/-- Below containers of one kind merging lays over each other what the two have. -/
theorem child?_merge (hmeets : base.Meets overlay) (hoverlay : overlay.WellFormed) (step : Step) :
    (base.merge overlay).child? step = laidOver (base.child? step) (overlay.child? step) := by
  obtain ⟨kind, hbase, habove⟩ := hmeets
  cases base with
  | obj members =>
      cases hbase
      cases overlay with
      | obj above =>
          cases step with
          | member key => exact get?_mergeMembers (wellFormed_obj_iff.mp hoverlay).1 key
          | item place => rfl
      | _ => cases habove
  | arr items =>
      cases hbase
      cases overlay with
      | arr above =>
          cases step with
          | member key => rfl
          | item place => exact getElem?_mergeItems items above place
      | _ => cases habove
  | _ => cases hbase

theorem keys_merge (hmeets : base.Meets overlay) (hoverlay : overlay.WellFormed) :
    (base.merge overlay).keys = base.keys ++ overlay.keys.filter (· ∉ base.keys) := by
  obtain ⟨kind, hbase, habove⟩ := hmeets
  cases base with
  | obj members =>
      cases hbase
      cases overlay with
      | obj above => exact keys_mergeMembers (wellFormed_obj_iff.mp hoverlay).1
      | _ => cases habove
  | arr items =>
      cases hbase
      cases overlay with
      | arr above => rfl
      | _ => cases habove
  | _ => cases hbase

/-! ### Routes into a merged value -/

/-- Where both sides have something, the merge has the two laid over each other. -/
theorem at?_merge_of_both (hoverlay : overlay.WellFormed) {route : Route} {below above : Json}
    (hbelow : base.at? route = some below) (habove : overlay.at? route = some above) :
    (base.merge overlay).at? route = some (below.merge above) := by
  induction route generalizing base overlay with
  | nil =>
      obtain rfl := Option.some.inj hbelow
      obtain rfl := Option.some.inj habove
      rfl
  | cons step rest ih =>
      obtain ⟨under, hunder, hbelow⟩ := exists_child?_of_at?_cons hbelow
      obtain ⟨laid, hover, habove⟩ := exists_child?_of_at?_cons habove
      have hmerged : (base.merge overlay).child? step = some (under.merge laid) := by
        rw [child?_merge (meets_of_child? hunder hover) hoverlay, hunder, hover, laidOver]
      rw [at?_cons_of_some hmerged]
      exact ih (hoverlay.child? hover) hbelow habove

/-- Where only the overlay has something, the merge has it. -/
theorem at?_merge_of_overlay (hoverlay : overlay.WellFormed) {route : Route} {above : Json}
    (hbelow : base.at? route = none) (habove : overlay.at? route = some above) :
    (base.merge overlay).at? route = some above := by
  induction route generalizing base overlay with
  | nil => cases hbelow
  | cons step rest ih =>
      obtain ⟨laid, hover, hrest⟩ := exists_child?_of_at?_cons habove
      by_cases hmeets : base.Meets overlay
      · have hmerged := child?_merge hmeets hoverlay step
        cases hunder : base.child? step with
        | none =>
            rw [hunder, hover, laidOver] at hmerged
            rw [at?_cons_of_some hmerged, hrest]
        | some under =>
            rw [hunder, hover, laidOver] at hmerged
            rw [at?_cons_of_some hmerged]
            exact ih (hoverlay.child? hover) (at?_cons_of_some hunder rest ▸ hbelow) hrest
      · rw [merge_of_not_meets hmeets, habove]

/-- Past what the overlay reaches, the merge has what the base has if the two are containers of one
kind where the overlay ends, and nothing otherwise. -/
theorem at?_merge_beyond (base : Json) (hoverlay : overlay.WellFormed) {here : Json}
    (hhere : overlay.at? front = some here) (hend : here.child? step = none) (rest : Route) :
    ((∃ below, base.at? front = some below ∧ below.Meets here) →
      (base.merge overlay).at? (front ++ step :: rest) = base.at? (front ++ step :: rest)) ∧
    ((¬ ∃ below, base.at? front = some below ∧ below.Meets here) →
      (base.merge overlay).at? (front ++ step :: rest) = none) := by
  have hstop := at?_cons_of_none hend rest
  cases hbelow : base.at? front with
  | none =>
      have hmerged := at?_merge_of_overlay hoverlay hbelow hhere
      refine ⟨?_, fun _ => by rw [at?_append hmerged, hstop]⟩
      rintro ⟨below, hnone, -⟩
      cases hnone
  | some below =>
      have hmerged := at?_merge_of_both hoverlay hbelow hhere
      rw [at?_append hmerged, at?_append hbelow]
      constructor
      · rintro ⟨other, hother, hmeets⟩
        obtain rfl := Option.some.inj hother
        have hchild : (below.merge here).child? step = below.child? step := by
          rw [child?_merge hmeets (hoverlay.at? hhere), hend, laidOver_none]
        simp only [at?, hchild]
      · intro hapart
        have hmeets : ¬ below.Meets here := fun hmeets => hapart ⟨below, rfl, hmeets⟩
        rw [merge_of_not_meets hmeets, hstop]

/-! ### What a merged value has at a route -/

/-- The longest part of a route, from its start, at which a value has something. -/
structure Furthest (node : Json) (route front : Route) : Prop where
  starts : front <+: route
  reached : ∃ here, node.at? front = some here
  longest : ∀ longer, longer <+: route → (∃ here, node.at? longer = some here) → longer <+: front

theorem exists_end_of_at?_eq_none {route : Route} (h : node.at? route = none) :
    ∃ front step rest here, route = front ++ step :: rest ∧ node.at? front = some here ∧
      here.child? step = none := by
  induction route generalizing node with
  | nil => cases h
  | cons step rest ih =>
      cases hchild : node.child? step with
      | none => exact ⟨[], step, rest, node, rfl, rfl, hchild⟩
      | some child =>
          rw [at?_cons_of_some hchild] at h
          obtain ⟨front, last, rest, here, rfl, hhere, hend⟩ := ih h
          exact ⟨step :: front, last, rest, here, rfl, at?_cons_of_some hchild front ▸ hhere, hend⟩

theorem furthest_of_end {here : Json} (hhere : node.at? front = some here)
    (hend : here.child? step = none) (rest : Route) :
    node.Furthest (front ++ step :: rest) front where
  starts := List.prefix_append front (step :: rest)
  reached := ⟨here, hhere⟩
  longest := by
    rintro longer hlonger ⟨found, hfound⟩
    rcases Nat.lt_or_ge front.length longer.length with hlt | hle
    · -- a longer part would take the step that leads nowhere
      have hstep : front ++ [step] <+: front ++ step :: rest := ⟨rest, by simp⟩
      have hpast : front ++ [step] <+: longer :=
        List.prefix_of_prefix_length_le hstep hlonger (by rwa [List.length_append])
      obtain ⟨more, rfl⟩ := hpast
      obtain ⟨next, hnext⟩ := exists_at?_of_append hfound
      rw [at?_append hhere, at?_cons_of_none hend] at hnext
      cases hnext
    · exact List.prefix_of_prefix_length_le hlonger (List.prefix_append _ _) hle

/-- What a value laid over another leaves at a route: what the overlay has there stays, a container
of its kind if it is a container and itself if not; past what the overlay reaches, what the base has
stays if both are containers of one kind where the overlay ends, and nothing is there otherwise; and
where both are objects, the keys of the base come first and the new ones of the overlay follow. -/
structure OverlaidAt (base overlay merged : Json) (route : Route) : Prop where
  written : ∀ value, overlay.at? route = some value →
    ∃ found, merged.at? route = some found ∧ found.container? = value.container? ∧
      (value.container? = none → found = value)
  beyond : overlay.at? route = none →
    ∃ front here, overlay.Furthest route front ∧ overlay.at? front = some here ∧
      ((∃ below, base.at? front = some below ∧ below.Meets here) →
        merged.at? route = base.at? route) ∧
      ((¬ ∃ below, base.at? front = some below ∧ below.Meets here) → merged.at? route = none)
  ordered : ∀ members above, base.at? route = some (.obj members) →
    overlay.at? route = some (.obj above) →
    ∃ result, merged.at? route = some (.obj result) ∧
      Assoc.keys result = Assoc.keys members ++ (Assoc.keys above).filter (· ∉ Assoc.keys members)

/-- The overlay wins wherever it has something, nothing of the base is lost but by being replaced,
and nothing else is there. -/
theorem overlaidAt_merge (base : Json) (hoverlay : overlay.WellFormed) (route : Route) :
    OverlaidAt base overlay (base.merge overlay) route where
  written := by
    intro value hvalue
    cases hbelow : base.at? route with
    | none =>
        exact ⟨value, at?_merge_of_overlay hoverlay hbelow hvalue, rfl, fun _ => rfl⟩
    | some below =>
        exact ⟨below.merge value, at?_merge_of_both hoverlay hbelow hvalue,
          container?_merge below value, fun hplain => merge_of_container?_eq_none hplain below⟩
  beyond := by
    intro habsent
    obtain ⟨front, step, rest, here, rfl, hhere, hend⟩ := exists_end_of_at?_eq_none habsent
    obtain ⟨hkept, hgone⟩ := at?_merge_beyond base hoverlay hhere hend rest
    exact ⟨front, here, furthest_of_end hhere hend rest, hhere, hkept, hgone⟩
  ordered := by
    intro members above hmembers habove
    have hdistinct := (wellFormed_obj_iff.mp (hoverlay.at? habove)).1
    exact ⟨mergeMembers members above, at?_merge_of_both hoverlay hmembers habove,
      keys_mergeMembers hdistinct⟩

/-- A member that only the base has stays, and so does an item past the end of the overlay. -/
theorem overlaidAt_merge_arrays :
    let base : Json := .obj [("a", .arr [.int 1, .int 2]), ("b", .null)]
    let overlay : Json := .obj [("c", .str "new"), ("a", .arr [.int 3])]
    overlay.WellFormed ∧
      OverlaidAt base overlay (base.merge overlay) [.member "a", .item 1] ∧
      (base.merge overlay).at? [.member "a", .item 1] = some (.int 2) := by
  intro base overlay
  have hoverlay : overlay.WellFormed := by
    simp [overlay, WellFormed, WellFormedItems, WellFormedMembers, Assoc.keys, Double.minInt64]
  exact ⟨hoverlay, overlaidAt_merge base hoverlay _, by rfl⟩

end Json

end Specimen
