import Specimen.Proofs.LeafValues
import Specimen.Proofs.Lockstep
import Specimen.Proofs.Positions

/-!
# Drafts that keep off a path

Filling in a draft goes along the members of objects: those of a value, and the fields with whatever
they generate. A draft keeps off a path if this never comes to the end of the path. Whether the drafts
of a schema do is seen step by step in the way the schema is compiled.
-/

namespace Specimen

/-- However a draft is filled in, no member stands at the end of the path. -/
def Draft.Avoids (catalog : Catalog) : Path → Draft → Prop
  | [], _ => False
  | name :: rest, .value v => ∀ target, ¬ v.Leads (name :: rest) target
  | name :: rest, .fields generators => ∀ generator, (name, generator) ∈ generators → rest ≠ [] ∧
      ∀ depth draft, generator.Drafts catalog depth draft → Avoids catalog rest draft
  | _ :: _, .items _ => True

theorem Json.Leads.exists_member {value target : Json} {name : String} {rest : Path}
    (h : value.Leads (name :: rest) target) :
    ∃ members, value = .obj members ∧ ∃ next, (name, next) ∈ members ∧ next.Leads rest target := by
  cases h with
  | member listed leads => exact ⟨_, rfl, _, listed, leads⟩

/-- The leaves of a library have no members. -/
def Library.DrawsNoObjects (library : Library) : Prop :=
  ∀ constraints type leaf, BuildsLeaf library constraints type leaf → ∀ members,
    ¬ leaf.Gives (.obj members)

theorem Library.drawsNoObjects_standard (engine : Pattern.Engine) :
    (standard engine).DrawsNoObjects := by
  intro constraints type leaf hbuilds members hgives
  have hvalue := leafValue_of_gives hbuilds hgives
  cases hvalue

/-- A property of nodes and paths that goes over from a node to what is compiled and generated for it,
as long as the path goes on. -/
structure Catalog.Detour (catalog : Catalog) (A : String → Json → Path → Prop) : Prop where
  goesOn : ∀ {schema : String} {node : Json} {path : Path}, A schema node path → path ≠ []
  target : ∀ {schema : String} {node target : Json} {path : Path} {pointer : String}
    {reference : Reference}, A schema node path → classify node = .ok (.reference pointer) →
      Reference.parse pointer = .ok reference → catalog.target schema node reference = .ok target →
        A (reference.schemaOr schema) target path
  candidate : ∀ {schema : String} {node candidate : Json} {path : Path} {kind : Kind}
    {keyword : Keyword} {nodes : List Json}, A schema node path → classify node = .ok kind →
      kind.candidates? node = some (keyword, nodes) → candidate ∈ nodes → A schema candidate path
  merged : ∀ {schema : String} {node : Json} {path : Path} {branches : List Json},
    A schema node path → classify node = .ok (.allOf branches) →
      A schema (Scope.withAllBranches node branches) path
  property : ∀ {schema : String} {node property : Json} {name : String} {rest : Path} {kind : Kind}
    {properties : List (String × Json)}, A schema node (name :: rest) → classify node = .ok kind →
      kind.type? = some .object → node.present? .properties = some (.obj properties) →
        (name, property) ∈ properties → A schema property rest
  values : ∀ {schema : String} {node value target : Json} {path : Path} {values : List Json},
    A schema node path → classify node = .ok (.enumeration values) → value ∈ values →
      ¬ value.Leads path target

namespace Catalog.Detour

variable {catalog : Catalog} {A : String → Json → Path → Prop}

/-- The drafts of such a node keep off the path, however its references and candidates are nested. The
path gets shorter from a node to its properties, and the depth from a node to its other parts. -/
theorem avoids (hdetour : catalog.Detour A) (hleaves : catalog.library.DrawsNoObjects) {path : Path}
    {schema : String} {node : Json} {generator : Generator} {depth : Nat} {draft : Draft}
    (h : A schema node path)
    (hcompile : Scope.compile ⟨schema, catalog.library⟩ node = .ok generator)
    (hdrafts : generator.Drafts catalog depth draft) : draft.Avoids catalog path := by
  induction path generalizing schema node generator depth draft with
  | nil => exact absurd rfl (hdetour.goesOn h)
  | cons name rest ih =>
      induction depth generalizing schema node generator draft with
      | zero => exact absurd hdrafts Generator.not_drafts_zero
      | succ depth ihDepth =>
          rw [Scope.compile_eq_compileKind] at hcompile
          obtain ⟨kind, hkind, hcompile⟩ := Outcome.bind_eq_ok.mp hcompile
          rw [ofSchema_eq_ok] at hkind
          have hchoice {keyword : Keyword} {nodes : List Json}
              (hcandidates : kind.candidates? node = some (keyword, nodes)) :
              draft.Avoids catalog (name :: rest) := by
            rw [Scope.compileKind_of_candidates? hcandidates] at hcompile
            obtain ⟨candidates, hall, hpicker⟩ := Outcome.bind_eq_ok.mp hcompile
            obtain ⟨picker, -, rfl⟩ := Scope.choice_eq_ok hpicker
            obtain ⟨candidate, hcandidate, hdrafts⟩ := Generator.drafts_choice hdrafts
            obtain ⟨part, hpart, hcompile⟩ :=
              exists_mem_of_forall₂ (Scope.compileAll_eq_ok hall) hcandidate
            exact ihDepth (hdetour.candidate h hkind hcandidates hpart) hcompile hdrafts
          have htyped {type : TypeName} (htype : kind.type? = some type) :
              draft.Avoids catalog (name :: rest) := by
            rw [Scope.compileKind_of_type? htype] at hcompile
            cases Scope.compileType_eq_ok hcompile with
            | leaf read builds =>
                obtain ⟨given, hgives, rfl⟩ := Generator.drafts_leaf hdrafts
                intro target hleads
                obtain ⟨members, rfl, -⟩ := hleads.exists_member
                exact hleaves _ _ _ builds members hgives
            | bare absent =>
                obtain rfl := Generator.drafts_object hdrafts
                exact fun generator hfield => absurd hfield List.not_mem_nil
            | object present each =>
                obtain rfl := Generator.drafts_object hdrafts
                intro generator hfield
                obtain ⟨⟨_, property⟩, hproperty, rfl, hcompile⟩ := exists_mem_of_forall₂ each hfield
                have hbelow := hdetour.property h hkind htype present hproperty
                exact ⟨hdetour.goesOn hbelow, fun depth draft => ih hbelow hcompile⟩
            | tuple present each =>
                obtain ⟨drafts, rfl, -⟩ := Generator.drafts_tuple hdrafts
                trivial
            | list plain read compiled built =>
                obtain ⟨drafts, rfl, -⟩ := Generator.drafts_list hdrafts
                trivial
          cases kind with
          | anyOf | oneOf | union => exact hchoice rfl
          | single | format | properties | items => exact htyped rfl
          | reference pointer =>
              obtain ⟨reference, hparse, rfl⟩ := Scope.exists_parsed_of_reference hcompile
              obtain ⟨found, hderef, hdrafts⟩ := Generator.drafts_reference hdrafts
              rw [dereference_eq_target] at hderef
              obtain ⟨target, htarget, hcompile⟩ := Outcome.bind_eq_ok.mp hderef
              exact ihDepth (hdetour.target h hkind hparse htarget) hcompile hdrafts
          | allOf branches =>
              rw [Scope.compileKind, Scope.compileAllOf_eq] at hcompile
              obtain ⟨merged, hmerged, rfl⟩ := Outcome.map_eq_ok.mp hcompile
              exact ihDepth (hdetour.merged h hkind) hmerged (Generator.drafts_allOf hdrafts)
          | enumeration values =>
              obtain ⟨types, picker, -, -, -, rfl⟩ := Scope.exists_kept_of_enumeration hcompile
              obtain ⟨value, hvalue, rfl⟩ := Generator.drafts_enumeration hdrafts
              exact fun target => hdetour.values h hkind (Scope.mem_of_mem_kept hvalue)
          | empty =>
              cases hcompile
              obtain rfl := Generator.drafts_empty hdrafts
              intro target hleads
              obtain ⟨members, hobject, next, hmember, -⟩ := hleads.exists_member
              cases hobject
              cases hmember

end Catalog.Detour

end Specimen
