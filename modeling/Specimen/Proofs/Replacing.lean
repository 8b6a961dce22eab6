import Specimen.Proofs.Compiling
import Specimen.Materialize

/-!
# Replacing a subschema

Two schemas that differ only at one path of properties, and what this means for the generators they
compile to: these differ only at the same path of fields.
-/

namespace Specimen

namespace Json

def property? (name : String) (node : Json) : Option Json :=
  (node.get? Keyword.properties.text).bind (get? name)

def setProperty (node : Json) (name : String) (schema : Json) : Json :=
  match node.get? Keyword.properties.text with
  | some properties => node.put Keyword.properties.text (properties.put name schema)
  | none => node

/-- The schema with the subschema at a path of properties exchanged; a path that leads nowhere
changes nothing. -/
def replaceAt (schema : Json) (path : Path) (replacement : Json) : Json :=
  match path with
  | [] => replacement
  | name :: path =>
    match schema.property? name with
    | some property => schema.setProperty name (property.replaceAt path replacement)
    | none => schema

/-- A node that is an object by its type, or for having properties. -/
def IsObjectNode (node : Json) : Prop :=
  classify node = .ok (.single .object) ∨ classify node = .ok .properties

/-- A path leads through properties of object nodes. -/
inductive ObjectPath : Json → Path → Prop where
  | here {node : Json} : ObjectPath node []
  | property {node property : Json} {name : String} {path : Path}
      (objectNode : node.IsObjectNode) (found : node.property? name = some property)
      (rest : ObjectPath property path) : ObjectPath node (name :: path)

theorem property?_eq_some {node schema : Json} {name : String}
    (h : node.property? name = some schema) :
    ∃ members properties, node = .obj members ∧
      Assoc.get? Keyword.properties.text members = some (.obj properties) ∧
        Assoc.get? name properties = some schema := by
  obtain ⟨properties, hproperties, hname⟩ := Option.bind_eq_some_iff.mp h
  cases node with
  | obj members =>
      cases properties with
      | obj properties => exact ⟨members, properties, rfl, hproperties, hname⟩
      | null | bool | int | float | str | arr => cases hname
  | null | bool | int | float | str | arr => cases hproperties

end Json

/-- What properties there are does not matter for the kind of a node. -/
theorem Kind.ofKeywords_put_properties {members properties : List (String × Json)}
    (h : Assoc.get? Keyword.properties.text members = some (.obj properties))
    (others : List (String × Json)) (keywords : List Keyword) :
    ofKeywords (.obj (Assoc.put Keyword.properties.text (.obj others) members)) keywords =
      ofKeywords (.obj members) keywords := by
  induction keywords with
  | nil => rfl
  | cons keyword rest ih =>
      rw [ofKeywords, ofKeywords, ih]
      by_cases heq : keyword = .properties
      · have hold : (Json.obj members).present? .properties = some (.obj properties) := by
          simp only [Json.present?, Json.get?, h]
        have hnew : (Json.obj (Assoc.put Keyword.properties.text (.obj others)
            members)).present? .properties = some (.obj others) := by
          simp only [Json.present?, Json.get?, Assoc.get?_put_self]
        rw [heq, hold, hnew]
        rfl
      · have hother := Json.present?_put_of_ne (Keyword.text_ne heq) (.obj members) (.obj others)
        rw [Json.put] at hother
        rw [hother]

theorem Json.isObjectNode_put {members properties others : List (String × Json)}
    (h : Assoc.get? Keyword.properties.text members = some (.obj properties))
    (hobject : (obj members).IsObjectNode) :
    (obj (Assoc.put Keyword.properties.text (obj others) members)).IsObjectNode := by
  unfold IsObjectNode classify at *
  rw [Kind.ofKeywords_put_properties h]
  exact hobject

/-- Two generators of objects differ at most at a path of fields. -/
inductive DifferAt : Path → Generator → Generator → Prop where
  | here {generator other : Generator} : DifferAt [] generator other
  | field {name : String} {path : Path} {before after : List (String × Generator)}
      {generator other : Generator} (below : DifferAt path generator other) :
      DifferAt (name :: path) (.object (before ++ (name, generator) :: after))
        (.object (before ++ (name, other) :: after))

namespace Scope

variable {scope : Scope} {node : Json} {generator : Generator}

theorem compile_of_isObjectNode (hobject : node.IsObjectNode) :
    scope.compile node = scope.compileObject node := by
  rcases hobject with h | h
  · rw [compile_of_classify h, compileKind, compileType]
  · rw [compile_of_classify h, compileKind, compileType]

theorem compile_object_eq_ok {members properties : List (String × Json)}
    (hobject : (Json.obj members).IsObjectNode)
    (hproperties : Assoc.get? Keyword.properties.text members = some (.obj properties))
    (h : scope.compile (.obj members) = .ok generator) :
    ∃ fields, generator = .object fields ∧ List.Forall₂ scope.FieldOf properties fields := by
  have hpresent : (Json.obj members).present? .properties = some (.obj properties) := by
    simp only [Json.present?, Json.get?, hproperties]
  rw [compile_of_isObjectNode hobject] at h
  cases compileObject_eq_ok h with
  | leaf hread hbuilds => cases hbuilds
  | bare habsent =>
      rw [hpresent] at habsent
      cases habsent
  | object hfound heach =>
      rw [hpresent] at hfound
      cases hfound
      exact ⟨_, rfl, heach⟩

theorem rightUnique_fieldOf (scope : Scope) : Relator.RightUnique scope.FieldOf := by
  rintro ⟨name, schema⟩ ⟨_, generator⟩ ⟨_, other⟩ ⟨rfl, hgenerator⟩ ⟨rfl, hother⟩
  have hsame : generator = other := Except.ok.inj (hgenerator.symm.trans hother)
  rw [hsame]

theorem fields_of_put {properties : List (String × Json)}
    {fields others : List (String × Generator)} {name : String} {schema replacement : Json}
    (hschema : Assoc.get? name properties = some schema)
    (hfields : List.Forall₂ scope.FieldOf properties fields)
    (hothers : List.Forall₂ scope.FieldOf (Assoc.put name replacement properties) others) :
    ∃ before after generator other, fields = before ++ (name, generator) :: after ∧
      others = before ++ (name, other) :: after ∧ scope.compile schema = .ok generator ∧
        scope.compile replacement = .ok other := by
  induction properties generalizing fields others with
  | nil => cases hschema
  | cons property rest ih =>
      obtain ⟨key, value⟩ := property
      obtain ⟨field, fields, hfield, hrest, rfl⟩ := List.forall₂_cons_left_iff.mp hfields
      by_cases hk : key = name
      · subst hk
        simp only [Assoc.get?, if_true, Option.some.injEq] at hschema
        simp only [Assoc.put, if_true] at hothers
        obtain ⟨other, others, hother, hsame, rfl⟩ := List.forall₂_cons_left_iff.mp hothers
        obtain rfl := List.right_unique_forall₂' (rightUnique_fieldOf scope) hrest hsame
        obtain ⟨rfl, hgenerator⟩ := hfield
        obtain ⟨hkey, hother⟩ := hother
        refine ⟨[], fields, field.2, other.2, rfl, ?_, hschema ▸ hgenerator, hother⟩
        rw [List.nil_append, hkey]
      · simp only [Assoc.get?, hk, if_false] at hschema
        simp only [Assoc.put, hk, if_false] at hothers
        obtain ⟨other, others, hother, hothersRest, rfl⟩ := List.forall₂_cons_left_iff.mp hothers
        obtain ⟨before, after, below, otherBelow, rfl, rfl, hbelow, hotherBelow⟩ :=
          ih hschema hrest hothersRest
        obtain rfl := rightUnique_fieldOf scope hfield hother
        exact ⟨field :: before, after, below, otherBelow, rfl, rfl, hbelow, hotherBelow⟩

theorem differAt_of_compile {schema replacement : Json} {path : Path} {other : Generator}
    (hpath : schema.ObjectPath path) (hcompile : scope.compile schema = .ok generator)
    (hother : scope.compile (schema.replaceAt path replacement) = .ok other) :
    DifferAt path generator other := by
  induction hpath generalizing generator other with
  | here => exact .here
  | @property node property name path hobject hfound _ ih =>
      obtain ⟨members, properties, rfl, hproperties, hname⟩ := Json.property?_eq_some hfound
      have hreplaced : (Json.obj members).replaceAt (name :: path) replacement =
          .obj (Assoc.put Keyword.properties.text
            (.obj (Assoc.put name (property.replaceAt path replacement) properties)) members) := by
        simp only [Json.replaceAt, hfound, Json.setProperty, Json.get?, hproperties, Json.put]
      rw [hreplaced] at hother
      obtain ⟨fields, rfl, hfields⟩ := compile_object_eq_ok hobject hproperties hcompile
      obtain ⟨others, rfl, hothers⟩ := compile_object_eq_ok
        (Json.isObjectNode_put hproperties hobject) (Assoc.get?_put_self ..) hother
      obtain ⟨before, after, below, otherBelow, rfl, rfl, hbelow, hotherBelow⟩ :=
        fields_of_put hname hfields hothers
      exact .field (ih hbelow hotherBelow)

end Scope

theorem RootShape.ofSchema_replaceAt {schema replacement : Json} {path : Path}
    (hpath : schema.ObjectPath path) (hne : path ≠ []) :
    ofSchema (schema.replaceAt path replacement) = ofSchema schema := by
  cases hpath with
  | here => exact absurd rfl hne
  | property _ hfound =>
      obtain ⟨members, properties, rfl, hproperties, -⟩ := Json.property?_eq_some hfound
      have htype : Keyword.type.text ≠ Keyword.properties.text := by decide
      simp only [Json.replaceAt, hfound, Json.setProperty, Json.get?, hproperties, Json.put,
        ofSchema, Assoc.get?_put_of_ne htype]

end Specimen
