import Specimen.Materialize

/-!
# Positions

The places of a value that members of objects lead to, each with the path of keys that leads there.
A parent comes before its members and these come in their order, which is the order in which
materializing looks paths up.
-/

namespace Specimen

namespace Json

mutual

/-- The positions below a value that stands at a path. -/
def positions (path : Path) (value : Json) : List (Path × Json) :=
  match value with
  | .obj members => positionsMembers path members
  | _ => []
termination_by structural value

def positionsMembers (path : Path) (members : List (String × Json)) : List (Path × Json) :=
  match members with
  | [] => []
  | (name, value) :: rest =>
    (path ++ [name], value) :: (positions (path ++ [name]) value ++ positionsMembers path rest)
termination_by structural members

end

/-- Members of objects lead from a value along a path to another value. -/
inductive Leads : Json → Path → Json → Prop where
  | here {value : Json} : Leads value [] value
  | member {members : List (String × Json)} {name : String} {value target : Json} {path : Path}
      (listed : (name, value) ∈ members) (leads : Leads value path target) :
      Leads (.obj members) (name :: path) target

theorem mem_positionsMembers_iff {path : Path} {members : List (String × Json)}
    {position : Path × Json} :
    position ∈ positionsMembers path members ↔ ∃ member ∈ members,
      position = (path ++ [member.1], member.2) ∨
        position ∈ positions (path ++ [member.1]) member.2 := by
  induction members with
  | nil => simp [positionsMembers]
  | cons member rest ih =>
      obtain ⟨name, value⟩ := member
      simp only [positionsMembers, List.mem_cons, List.mem_append, ih, exists_eq_or_imp, or_assoc]

theorem Leads.mem_positions {value target : Json} {name : String} {path above : Path}
    (h : Leads value (name :: path) target) :
    (above ++ name :: path, target) ∈ positions above value := by
  induction path generalizing value name above with
  | nil =>
      cases h with
      | member hlisted hleads =>
          cases hleads
          exact mem_positionsMembers_iff.mpr ⟨_, hlisted, .inl rfl⟩
  | cons next path ih =>
      cases h with
      | member hlisted hleads =>
          have hbelow : (above ++ [name] ++ next :: path, target) ∈ positions (above ++ [name]) _ :=
            ih hleads
          rw [List.append_assoc, List.singleton_append] at hbelow
          exact mem_positionsMembers_iff.mpr ⟨_, hlisted, .inr hbelow⟩

mutual

theorem leads_of_mem_positions {value target : Json} {above path : Path}
    (h : (path, target) ∈ positions above value) :
    ∃ name rest, path = above ++ name :: rest ∧ Leads value (name :: rest) target := by
  match value with
  | .obj members =>
      obtain ⟨name, next, rest, hlisted, rfl, hleads⟩ := leads_of_mem_positionsMembers h
      exact ⟨name, rest, rfl, .member hlisted hleads⟩
  | .null | .bool _ | .int _ | .float _ | .str _ | .arr _ => cases h
termination_by structural value

theorem leads_of_mem_positionsMembers {members : List (String × Json)} {target : Json}
    {above path : Path} (h : (path, target) ∈ positionsMembers above members) :
    ∃ name next rest, (name, next) ∈ members ∧ path = above ++ name :: rest ∧
      Leads next rest target := by
  match members with
  | [] => cases h
  | (name, value) :: others =>
      rw [positionsMembers, List.mem_cons, List.mem_append] at h
      rcases h with heq | hbelow | hothers
      · cases heq
        exact ⟨name, target, [], List.mem_cons_self, rfl, .here⟩
      · obtain ⟨next, rest, rfl, hleads⟩ := leads_of_mem_positions hbelow
        refine ⟨name, value, next :: rest, List.mem_cons_self, ?_, hleads⟩
        rw [List.append_assoc, List.singleton_append]
      · obtain ⟨other, next, rest, hlisted, hpath, hleads⟩ := leads_of_mem_positionsMembers hothers
        exact ⟨other, next, rest, List.mem_cons_of_mem _ hlisted, hpath, hleads⟩
termination_by structural members

end

/-- The positions are the places that members lead to, the value itself left out. -/
theorem mem_positions_iff {value target : Json} {above path : Path} :
    (path, target) ∈ positions above value ↔
      ∃ name rest, path = above ++ name :: rest ∧ Leads value (name :: rest) target := by
  constructor
  · exact leads_of_mem_positions
  · rintro ⟨name, rest, rfl, hleads⟩
    exact hleads.mem_positions

end Json

/-- The positions whose paths a root of a shape looks up. An array starts the paths anew at each of
its elements. -/
def RootShape.positions (shape : RootShape) (value : Json) : List (Path × Json) :=
  match shape, value with
  | .object, value => value.positions []
  | .array, .arr values => values.flatMap (Json.positions [])
  | _, _ => []

/-- No dotted path is the empty path, so that no override is written for the root itself. -/
theorem Path.ofText_ne_nil (text : String) : Path.ofText text ≠ [] := by
  intro h
  exact Text.split_ne_nil '.' text.toList (List.map_eq_nil_iff.mp h)

end Specimen
