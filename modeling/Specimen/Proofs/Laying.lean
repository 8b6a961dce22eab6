import Specimen.Proofs.Reading

/-!
# Nodes laid over each other

Several nodes laid over each other from left to right make one node. Under a key it has what the
nodes have under that key, laid over each other again, and an array has at a place what the arrays
have there. So merging goes down through properties and items node by node, as long as objects meet
objects and arrays meet arrays.
-/

namespace Specimen

namespace Json

/-- Nodes laid over each other from left to right; nothing when there are none. -/
def laid? (nodes : List Json) : Option Json :=
  nodes.foldl (fun found node => laidOver found (some node)) none

/-- The same as a node, null when there are none. -/
def laid (nodes : List Json) : Json :=
  (laid? nodes).getD .null

/-- What some nodes have under a key, in their order. -/
def under (key : String) (nodes : List Json) : List Json :=
  nodes.filterMap (Json.get? key)

/-- What some arrays have at a place, in their order. -/
def placed (place : Nat) (arrays : List Json) : List Json :=
  arrays.filterMap (Json.item? place)

/-- What some nodes have as the schema of a property, in their order. -/
def propertySchemas (name : String) (nodes : List Json) : List Json :=
  under name (under Keyword.properties.text nodes)

/-- What some nodes have as the schema of a place, in their order. -/
def placeSchemas (place : Nat) (nodes : List Json) : List Json :=
  placed place (under Keyword.items.text nodes)

/-- What some nodes have as `items`, in their order. -/
def itemSchemas (nodes : List Json) : List Json :=
  under Keyword.items.text nodes

/-- An object with distinct keys. -/
def IsObject (node : Json) : Prop :=
  ∃ members, node = .obj members ∧ (Assoc.keys members).Nodup

def IsArray (node : Json) : Prop :=
  ∃ items, node = .arr items

theorem foldl_laidOver (base : Json) (overlays : List Json) :
    overlays.foldl (fun found node => laidOver found (some node)) (some base) =
      some (overlays.foldl merge base) := by
  induction overlays generalizing base with
  | nil => rfl
  | cons overlay rest ih => exact ih (base.merge overlay)

theorem laid?_cons (base : Json) (overlays : List Json) :
    laid? (base :: overlays) = some (overlays.foldl merge base) :=
  foldl_laidOver base overlays

theorem laid_cons (base : Json) (overlays : List Json) :
    laid (base :: overlays) = overlays.foldl merge base := by
  rw [laid, laid?_cons, Option.getD_some]

theorem laid?_eq_some {nodes : List Json} (h : nodes ≠ []) : laid? nodes = some (laid nodes) := by
  cases nodes with
  | nil => exact absurd rfl h
  | cons base overlays => rw [laid_cons, laid?_cons]

theorem laid_of_forall {C : Json → Prop} {nodes : List Json}
    (hmerge : ∀ base overlay, C base → C overlay → C (base.merge overlay)) (hne : nodes ≠ [])
    (hnodes : ∀ node ∈ nodes, C node) : C (laid nodes) := by
  have hfold (overlays : List Json) (base : Json) (hbase : C base)
      (hoverlays : ∀ node ∈ overlays, C node) : C (overlays.foldl merge base) := by
    induction overlays generalizing base with
    | nil => exact hbase
    | cons overlay rest ih =>
        rw [List.forall_mem_cons] at hoverlays
        exact ih _ (hmerge base overlay hbase hoverlays.1) hoverlays.2
  cases nodes with
  | nil => exact absurd rfl hne
  | cons base overlays =>
      rw [List.forall_mem_cons] at hnodes
      rw [laid_cons]
      exact hfold overlays base hnodes.1 hnodes.2

/-- What a look into a node finds that merges among nodes of one sort as the nodes do. -/
theorem look_laid {look : Json → Option Json} {C : Json → Prop} {nodes : List Json}
    (hnull : look .null = none)
    (hmerge : ∀ base overlay, C base → C overlay →
      C (base.merge overlay) ∧ look (base.merge overlay) = laidOver (look base) (look overlay))
    (hnodes : ∀ node ∈ nodes, C node) : look (laid nodes) = laid? (nodes.filterMap look) := by
  have hfold (overlays : List Json) (base : Json) (hbase : C base)
      (hoverlays : ∀ node ∈ overlays, C node) :
      look (overlays.foldl merge base) = (overlays.filterMap look).foldl
        (fun found node => laidOver found (some node)) (look base) := by
    induction overlays generalizing base with
    | nil => rfl
    | cons overlay rest ih =>
        rw [List.forall_mem_cons] at hoverlays
        obtain ⟨hmerged, hlook⟩ := hmerge base overlay hbase hoverlays.1
        rw [List.foldl_cons, ih _ hmerged hoverlays.2, hlook]
        cases hfound : look overlay with
        | none => rw [List.filterMap_cons_none hfound, laidOver_none]
        | some found => rw [List.filterMap_cons_some hfound, List.foldl_cons]
  cases nodes with
  | nil => exact hnull
  | cons base overlays =>
      rw [List.forall_mem_cons] at hnodes
      rw [laid_cons, hfold overlays base hnodes.1 hnodes.2]
      cases hfound : look base with
      | none => rw [List.filterMap_cons_none hfound, laid?]
      | some found => rw [List.filterMap_cons_some hfound, laid?, List.foldl_cons, laidOver]

theorem IsObject.merge {base overlay : Json} (hbase : base.IsObject) (hoverlay : overlay.IsObject) :
    (base.merge overlay).IsObject ∧ ∀ key,
      (base.merge overlay).get? key = laidOver (base.get? key) (overlay.get? key) := by
  obtain ⟨members, rfl, hmembers⟩ := hbase
  obtain ⟨above, rfl, habove⟩ := hoverlay
  exact ⟨⟨_, rfl, nodup_keys_mergeMembers hmembers⟩, get?_mergeMembers habove⟩

theorem IsArray.merge {base overlay : Json} (hbase : base.IsArray) (hoverlay : overlay.IsArray) :
    (base.merge overlay).IsArray ∧ ∀ place,
      (base.merge overlay).item? place = laidOver (base.item? place) (overlay.item? place) := by
  obtain ⟨items, rfl⟩ := hbase
  obtain ⟨above, rfl⟩ := hoverlay
  exact ⟨⟨_, rfl⟩, getElem?_mergeItems items above⟩

/-- Under a key, objects laid over each other have what they have there, laid over each other. -/
theorem get?_laid {nodes : List Json} (hnodes : ∀ node ∈ nodes, node.IsObject) (key : String) :
    (laid nodes).get? key = laid? (under key nodes) := by
  refine look_laid rfl ?_ hnodes
  intro base overlay hbase hoverlay
  exact ⟨(hbase.merge hoverlay).1, (hbase.merge hoverlay).2 key⟩

/-- At a place, arrays laid over each other have what they have there, laid over each other. -/
theorem item?_laid {arrays : List Json} (harrays : ∀ array ∈ arrays, array.IsArray)
    (place : Nat) : (laid arrays).item? place = laid? (placed place arrays) := by
  refine look_laid rfl ?_ harrays
  intro base overlay hbase hoverlay
  exact ⟨(hbase.merge hoverlay).1, (hbase.merge hoverlay).2 place⟩

theorem isObject_laid {nodes : List Json} (hne : nodes ≠ [])
    (hnodes : ∀ node ∈ nodes, node.IsObject) : (laid nodes).IsObject :=
  laid_of_forall (fun _ _ hbase hoverlay => (hbase.merge hoverlay).1) hne hnodes

theorem isArray_laid {arrays : List Json} (hne : arrays ≠ [])
    (harrays : ∀ array ∈ arrays, array.IsArray) : (laid arrays).IsArray :=
  laid_of_forall (fun _ _ hbase hoverlay => (hbase.merge hoverlay).1) hne harrays

theorem present?_laid {nodes : List Json} {keyword : Keyword}
    (hnodes : ∀ node ∈ nodes, node.IsObject) (hunder : under keyword.text nodes ≠ [])
    (hnull : laid (under keyword.text nodes) ≠ .null) :
    (laid nodes).present? keyword = some (laid (under keyword.text nodes)) := by
  rw [present?, get?_laid hnodes, laid?_eq_some hunder]
  cases hlaid : laid (under keyword.text nodes) with
  | null => exact absurd hlaid hnull
  | _ => rfl

section Schemas

variable {nodes : List Json} (hnodes : ∀ node ∈ nodes, node.IsObject)

include hnodes

/-- The schema of a property in nodes laid over each other is what they have there, laid over each
other. -/
theorem exists_properties_laid {name : String}
    (hfields : ∀ node ∈ under Keyword.properties.text nodes, node.IsObject)
    (hwritten : propertySchemas name nodes ≠ []) :
    ∃ properties, (laid nodes).present? .properties = some (.obj properties) ∧
      Assoc.get? name properties = some (laid (propertySchemas name nodes)) := by
  have hunder : under Keyword.properties.text nodes ≠ [] := by
    intro hnone
    rw [propertySchemas, hnone] at hwritten
    exact hwritten rfl
  obtain ⟨properties, hlaid, -⟩ := isObject_laid hunder hfields
  have hpresent := present?_laid hnodes hunder (by simp [hlaid])
  have hget := get?_laid hfields name
  rw [hlaid] at hpresent hget
  exact ⟨properties, hpresent, hget.trans (laid?_eq_some hwritten)⟩

/-- The schema of a place in nodes laid over each other is what they have there, laid over each
other. -/
theorem exists_places_laid {place : Nat}
    (harrays : ∀ node ∈ under Keyword.items.text nodes, node.IsArray)
    (hwritten : placeSchemas place nodes ≠ []) :
    ∃ places, (laid nodes).present? .items = some (.arr places) ∧
      places[place]? = some (laid (placeSchemas place nodes)) := by
  have hunder : under Keyword.items.text nodes ≠ [] := by
    intro hnone
    rw [placeSchemas, hnone] at hwritten
    exact hwritten rfl
  obtain ⟨places, hlaid⟩ := isArray_laid hunder harrays
  have hpresent := present?_laid hnodes hunder (by simp [hlaid])
  have hitem := item?_laid harrays place
  rw [hlaid] at hpresent hitem
  exact ⟨places, hpresent, hitem.trans (laid?_eq_some hwritten)⟩

theorem itemSchema_laid (hwritten : (laid nodes).present? .items ≠ none) :
    (laid nodes).itemSchema = laid (itemSchemas nodes) := by
  obtain ⟨item, hitem⟩ := Option.ne_none_iff_exists'.mp hwritten
  have hget := get?_of_present? hitem
  rw [get?_laid hnodes] at hget
  have hunder : under Keyword.items.text nodes ≠ [] := by
    intro hnone
    rw [hnone] at hget
    cases hget
  rw [laid?_eq_some hunder, Option.some.injEq] at hget
  rw [itemSchema, hitem, Option.getD_some]
  exact hget.symm

end Schemas

end Json

end Specimen
