import Specimen.Json.Basic

/-!
# Merging values

Objects merge key by key and arrays place by place, both recursively; any other overlay replaces
what was there. Merging never makes more nodes than its two sides have together.
-/

namespace Specimen

namespace Json

mutual

/-- Lays `overlay` over `base`; the overlay wins wherever the two are not both containers of one
kind. -/
def merge (base overlay : Json) : Json :=
  match overlay with
  | .obj above =>
    match base with
    | .obj members => .obj (mergeMembers members above)
    | _ => .obj above
  | .arr above =>
    match base with
    | .arr items => .arr (mergeItems items above)
    | _ => .arr above
  | node => node
termination_by structural overlay

def mergeMembers (members above : List (String × Json)) : List (String × Json) :=
  match above with
  | [] => members
  | (key, value) :: rest =>
    let merged := match Assoc.get? key members with
      | some old => merge old value
      | none => value
    mergeMembers (Assoc.put key merged members) rest
termination_by structural above

def mergeItems (items above : List Json) : List Json :=
  match items, above with
  | items, [] => items
  | [], above => above
  | item :: items, value :: above => merge item value :: mergeItems items above
termination_by structural above

end

/-- Merges nodes left to right over an empty object. -/
def mergeAll (nodes : List Json) : Json :=
  nodes.foldl merge (.obj [])

end Json

end Specimen
