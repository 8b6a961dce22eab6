import Specimen.Materialize
import Specimen.Proofs.Reading

/-!
# Where paths lead

Whether a path names a property is found out by a walk over the schema that takes at most so many
steps. A step goes from a reference to its target, from a node to one of its properties, which uses up
the first segment of the path, or into a branch of a combinator.
-/

namespace Specimen

namespace Catalog

/-- One step of a path that still has segments, with the node it leads to and what is left of it. -/
inductive PathStep (catalog : Catalog) (schema : String) (node : Json) (segment : String)
    (rest : Path) : String → Json → Path → Prop where
  | target {pointer : String} {reference : Reference} {found : Json}
      (refers : (node.get? Keyword.ref.text).bind Json.str? = some pointer)
      (parsed : Reference.parse pointer = .ok reference)
      (resolved : catalog.resolve (reference.schemaOr schema) reference = .ok found) :
      PathStep catalog schema node segment rest (reference.schemaOr schema)
        (found.merge (node.without Keyword.ref.text)) (segment :: rest)
  | property {property : Json} (plain : (node.get? Keyword.ref.text).bind Json.str? = none)
      (present : (node.get? Keyword.properties.text).bind (Json.get? segment) = some property) :
      PathStep catalog schema node segment rest schema property rest
  | branch {keyword : Keyword} {branches : List Json} {branch : Json}
      (plain : (node.get? Keyword.ref.text).bind Json.str? = none)
      (combinator : keyword ∈ [Keyword.anyOf, .allOf, .oneOf])
      (listed : (node.get? keyword.text).bind Json.items? = some branches)
      (member : branch ∈ branches) :
      PathStep catalog schema node segment rest schema branch (segment :: rest)

section Reaching

variable {catalog : Catalog} {schema : String} {node : Json} {segment : String} {rest : Path}

theorem reaches_nil (depth : Nat) : catalog.reaches depth schema node [] = true := by
  cases depth <;> rfl

theorem reaches_of_pointer {pointer : String} (depth : Nat)
    (h : (node.get? Keyword.ref.text).bind Json.str? = some pointer) :
    catalog.reaches (depth + 1) schema node (segment :: rest) = true ↔ ∃ reference found,
      Reference.parse pointer = .ok reference ∧
        catalog.resolve (reference.schemaOr schema) reference = .ok found ∧
          catalog.reaches depth (reference.schemaOr schema)
            (found.merge (node.without Keyword.ref.text)) (segment :: rest) = true := by
  rw [reaches, h]
  dsimp only
  cases Reference.parse pointer with
  | error e => simp
  | ok reference =>
      dsimp only
      cases hresolve : catalog.resolve (reference.schemaOr schema) reference with
      | error e => simp [hresolve]
      | ok found => simp [hresolve]

theorem reaches_of_plain (depth : Nat)
    (h : (node.get? Keyword.ref.text).bind Json.str? = none) :
    catalog.reaches (depth + 1) schema node (segment :: rest) = true ↔
      (∃ property, (node.get? Keyword.properties.text).bind (Json.get? segment) = some property ∧
        catalog.reaches depth schema property rest = true) ∨
      ∃ keyword ∈ [Keyword.anyOf, .oneOf, .allOf], ∃ branches,
        (node.get? keyword.text).bind Json.items? = some branches ∧
          ∃ branch ∈ branches, catalog.reaches depth schema branch (segment :: rest) = true := by
  rw [reaches, h]
  dsimp only
  rw [Bool.or_eq_true, List.any_eq_true]
  refine or_congr ?_ (exists_congr fun keyword => and_congr_right fun _ => ?_)
  · cases (node.get? Keyword.properties.text).bind (Json.get? segment) with
    | none => simp
    | some property => simp
  · cases (node.get? keyword.text).bind Json.items? with
    | none => simp
    | some branches => simp

/-- A path leads to a property in so many steps if it does in one less from where a step goes. -/
theorem reaches_succ_iff (depth : Nat) :
    catalog.reaches (depth + 1) schema node (segment :: rest) = true ↔
      ∃ schema' node' path', catalog.PathStep schema node segment rest schema' node' path' ∧
        catalog.reaches depth schema' node' path' = true := by
  cases hpointer : (node.get? Keyword.ref.text).bind Json.str? with
  | some pointer =>
      rw [reaches_of_pointer depth hpointer]
      constructor
      · rintro ⟨reference, found, parsed, resolved, hreaches⟩
        exact ⟨_, _, _, .target hpointer parsed resolved, hreaches⟩
      · rintro ⟨_, _, _, step, hreaches⟩
        cases step with
        | target refers parsed resolved =>
            obtain rfl := Option.some.inj (hpointer.symm.trans refers)
            exact ⟨_, _, parsed, resolved, hreaches⟩
        | property plain | branch plain =>
            rw [hpointer] at plain
            cases plain
  | none =>
      rw [reaches_of_plain depth hpointer]
      constructor
      · rintro (⟨property, present, hreaches⟩ | ⟨keyword, hkeyword, branches, listed, branch, member,
          hreaches⟩)
        · exact ⟨_, _, _, .property hpointer present, hreaches⟩
        · have hcombinator : keyword ∈ [Keyword.anyOf, .allOf, .oneOf] := by
            revert hkeyword
            cases keyword <;> decide
          exact ⟨_, _, _, .branch hpointer hcombinator listed member, hreaches⟩
      · rintro ⟨_, _, _, step, hreaches⟩
        cases step with
        | target refers =>
            rw [hpointer] at refers
            cases refers
        | property _ present => exact .inl ⟨_, present, hreaches⟩
        | @branch keyword _ _ _ combinator listed member =>
            have hkeyword : keyword ∈ [Keyword.anyOf, .oneOf, .allOf] := by
              revert combinator
              cases keyword <;> decide
            exact .inr ⟨_, hkeyword, _, listed, _, member, hreaches⟩

end Reaching

end Catalog

/-! ### Roots of a path -/

theorem RootShape.ofSchema_eq_array {schema : Json} :
    RootShape.ofSchema schema = .array ↔
      (schema.get? Keyword.type.text).bind Json.str? = some TypeName.array.text := by
  rw [RootShape.ofSchema]
  cases schema.get? Keyword.type.text with
  | none => simp
  | some type =>
      cases type with
      | str name =>
          by_cases hobject : name = TypeName.object.text
          · simp [hobject, Json.str?, TypeName.text]
          · have hne : TypeName.array.text ≠ TypeName.object.text := by decide
            by_cases harray : name = TypeName.array.text <;> simp [hobject, harray, hne, Json.str?]
      | null | bool | int | float | arr | obj => simp [Json.str?]

namespace Catalog

section Roots

variable {catalog : Catalog} {schema : String} {root : Json} {path : Path}

theorem hasPath_of_not_array (h : RootShape.ofSchema root ≠ .array) :
    catalog.hasPath schema root path = catalog.reaches (maxPathDepth + 1) schema root path := by
  rw [Ne, RootShape.ofSchema_eq_array] at h
  rw [hasPath]
  dsimp only
  rw [if_neg h]

theorem hasPath_of_bare (h : RootShape.ofSchema root = .array)
    (hitems : root.get? Keyword.items.text = none) : catalog.hasPath schema root path = false := by
  rw [RootShape.ofSchema_eq_array] at h
  rw [hasPath]
  dsimp only
  rw [if_pos h, hitems]

theorem hasPath_of_places (h : RootShape.ofSchema root = .array) {places : List Json}
    (hitems : root.get? Keyword.items.text = some (.arr places)) :
    catalog.hasPath schema root path =
      places.any fun place => catalog.reaches (maxPathDepth + 1) schema place path := by
  rw [RootShape.ofSchema_eq_array] at h
  rw [hasPath]
  dsimp only
  rw [if_pos h, hitems]

theorem hasPath_of_element (h : RootShape.ofSchema root = .array) {item : Json}
    (hitems : root.get? Keyword.items.text = some item) (plain : ∀ places, item ≠ .arr places) :
    catalog.hasPath schema root path = catalog.reaches (maxPathDepth + 1) schema item path := by
  rw [RootShape.ofSchema_eq_array] at h
  rw [hasPath]
  dsimp only
  rw [if_pos h, hitems]
  cases item with
  | arr places => exact absurd rfl (plain places)
  | null | bool | int | float | str | obj => rfl

end Roots

end Catalog

end Specimen
