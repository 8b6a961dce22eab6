import Specimen.Proofs.Content
import Specimen.Proofs.Lockstep

/-!
# Registrations

A registry keeps two dictionaries in step: the schemas as they were written and what they compile
to. What a registration comes to is up to the schema, its name and the library alone, since
references are not followed when they are compiled. So schemas of different names may be
registered in any order.
-/

namespace Specimen

/-- A schema that was to be registered under a name, and what came of it. -/
structure Registration where
  name : String
  schema : Json
  result : Except Error Unit

/-- The schema of the last successful registration of a name. -/
def LastRegistered (done : List Registration) (name : String) (schema : Json) : Prop :=
  ∃ earlier later, done = earlier ++ ⟨name, schema, .ok ()⟩ :: later ∧
    ∀ other ∈ later, other.name = name → other.result ≠ .ok ()

/-- What comes of registering a schema under a name. -/
def Library.registration (library : Library) (entry : String × Json) : Registration :=
  ⟨entry.1, entry.2, (Scope.compile ⟨entry.1, library⟩ entry.2).map fun _ => ()⟩

namespace Registry

/-- A registry without schemas. -/
def blank (library : Library) (seed : Option UInt64) (storeSizes : List (String × Nat))
    (opened : UInt64) : Registry :=
  ⟨Catalog.empty library, [], seed, storeSizes, opened⟩

/-- Registers a schema and says what came of it. -/
def register (registry : Registry) (name : String) (schema : Json) :
    Registration × Registry :=
  let (result, next) := add name schema registry
  (⟨name, schema, result⟩, next)

def registerAll (registry : Registry) : List (String × Json) → List Registration × Registry
  | [] => ([], registry)
  | (name, schema) :: rest =>
    let first := registry.register name schema
    let others := first.2.registerAll rest
    (first.1 :: others.1, others.2)

/-- The generator of every name is what the schema of the name compiles to, and there are no
others. -/
def Consistent (registry : Registry) : Prop :=
  ∀ name, Option.Rel
    (fun schema generator => Scope.compile ⟨name, registry.catalog.library⟩ schema = .ok generator)
    (registry.catalog.get? name) (registry.generator? name)

section

variable {registry : Registry} {name : String} {schema : Json}

/-! ### One registration -/

theorem register_of_ok {generator : Generator}
    (h : Scope.compile ⟨name, registry.catalog.library⟩ schema = .ok generator) :
    registry.register name schema = (⟨name, schema, .ok ()⟩, { registry with
      catalog := registry.catalog.insert name schema
      compiled := Assoc.put name generator registry.compiled }) := by
  have hget : (get : ExceptT Error (StateM Registry) Registry) registry =
      (.ok registry, registry) := rfl
  rw [register, add, Run.bind_apply, hget]
  dsimp only
  rw [h]
  rfl

theorem register_of_error {e : Error}
    (h : Scope.compile ⟨name, registry.catalog.library⟩ schema = .error e) :
    registry.register name schema = (⟨name, schema, .error e⟩, registry) := by
  have hget : (get : ExceptT Error (StateM Registry) Registry) registry =
      (.ok registry, registry) := rfl
  rw [register, add, Run.bind_apply, hget]
  dsimp only
  rw [h]
  rfl

theorem register_fst (registry : Registry) (name : String) (schema : Json) :
    (registry.register name schema).1 =
      registry.catalog.library.registration (name, schema) := by
  rw [Library.registration]
  dsimp only
  cases h : Scope.compile ⟨name, registry.catalog.library⟩ schema with
  | error e =>
      rw [register_of_error h]
      rfl
  | ok generator =>
      rw [register_of_ok h]
      rfl

/-- Registering changes nothing but the schemas and their generators. -/
theorem register_snd (registry : Registry) (name : String) (schema : Json) :
    ∃ schemas compiled, (registry.register name schema).2 =
      { registry with catalog := ⟨schemas, registry.catalog.library⟩, compiled := compiled } := by
  cases h : Scope.compile ⟨name, registry.catalog.library⟩ schema with
  | error e =>
      rw [register_of_error h]
      exact ⟨_, _, rfl⟩
  | ok generator =>
      rw [register_of_ok h]
      exact ⟨_, _, rfl⟩

theorem Consistent.register (h : registry.Consistent) (name : String) (schema : Json) :
    (registry.register name schema).2.Consistent := by
  cases hcompile : Scope.compile ⟨name, registry.catalog.library⟩ schema with
  | error e =>
      rw [register_of_error hcompile]
      exact h
  | ok generator =>
      rw [register_of_ok hcompile]
      intro other
      by_cases heq : other = name
      · subst heq
        rw [Catalog.get?, Catalog.insert, generator?, Assoc.get?_put_self, Assoc.get?_put_self]
        exact .some hcompile
      · rw [Catalog.get?, Catalog.insert, generator?, Assoc.get?_put_of_ne heq,
          Assoc.get?_put_of_ne heq]
        exact h other

/-- What stands under a name after a registration. -/
theorem get?_register {other : String} {found : Json} :
    (registry.register name schema).2.catalog.get? other = some found ↔
      ((registry.register name schema).1 = ⟨other, found, .ok ()⟩ ∨
        (registry.catalog.get? other = some found ∧
          ((registry.register name schema).1.name = other →
            (registry.register name schema).1.result ≠ .ok ()))) := by
  cases hcompile : Scope.compile ⟨name, registry.catalog.library⟩ schema with
  | error e =>
      rw [register_of_error hcompile]
      simp
  | ok generator =>
      rw [register_of_ok hcompile]
      by_cases heq : other = name
      · subst heq
        simp [Catalog.get?, Catalog.insert, Assoc.get?_put_self]
      · simp [Catalog.get?, Catalog.insert, Assoc.get?_put_of_ne heq, Ne.symm heq]

/-! ### Registrations in order -/

theorem Consistent.registerAll (h : registry.Consistent) (entries : List (String × Json)) :
    (registry.registerAll entries).2.Consistent := by
  induction entries generalizing registry with
  | nil => exact h
  | cons entry rest ih => exact ih (h.register entry.1 entry.2)

theorem registerAll_snd (registry : Registry) (entries : List (String × Json)) :
    ∃ schemas compiled, (registry.registerAll entries).2 =
      { registry with catalog := ⟨schemas, registry.catalog.library⟩, compiled := compiled } := by
  induction entries generalizing registry with
  | nil => exact ⟨_, _, rfl⟩
  | cons entry rest ih =>
      obtain ⟨schemas, compiled, hfirst⟩ := registry.register_snd entry.1 entry.2
      obtain ⟨schemas', compiled', hrest⟩ := ih (registry.register entry.1 entry.2).2
      refine ⟨schemas', compiled', ?_⟩
      rw [Registry.registerAll, hrest, hfirst]

theorem registerAll_fst (registry : Registry) (entries : List (String × Json)) :
    (registry.registerAll entries).1 = entries.map registry.catalog.library.registration := by
  induction entries generalizing registry with
  | nil => rfl
  | cons entry rest ih =>
      obtain ⟨schemas, compiled, hfirst⟩ := registry.register_snd entry.1 entry.2
      have hrest := ih (registry.register entry.1 entry.2).2
      rw [Registry.registerAll, List.map_cons, hrest, hfirst, register_fst]

theorem lastRegistered_cons {first : Registration} {rest : List Registration} :
    LastRegistered (first :: rest) name schema ↔ LastRegistered rest name schema ∨
      (first = ⟨name, schema, .ok ()⟩ ∧
        ∀ other ∈ rest, other.name = name → other.result ≠ .ok ()) := by
  constructor
  · rintro ⟨earlier, later, hdone, hlater⟩
    cases earlier with
    | nil =>
        obtain ⟨rfl, rfl⟩ := List.cons.inj hdone
        exact .inr ⟨rfl, hlater⟩
    | cons head earlier =>
        obtain ⟨rfl, rfl⟩ := List.cons.inj hdone
        exact .inl ⟨earlier, later, rfl, hlater⟩
  · rintro (⟨earlier, later, rfl, hlater⟩ | ⟨rfl, hlater⟩)
    · exact ⟨first :: earlier, later, rfl, hlater⟩
    · exact ⟨[], rest, rfl, hlater⟩

/-- A schema stands under a name if it was the last registered, or stood there and was not
replaced. -/
theorem get?_registerAll {entries : List (String × Json)} :
    (registry.registerAll entries).2.catalog.get? name = some schema ↔
      LastRegistered (registry.registerAll entries).1 name schema ∨
        (registry.catalog.get? name = some schema ∧
          ∀ other ∈ (registry.registerAll entries).1,
            other.name = name → other.result ≠ .ok ()) := by
  induction entries generalizing registry with
  | nil => simp [Registry.registerAll, LastRegistered]
  | cons entry rest ih =>
      rw [Registry.registerAll]
      dsimp only
      -- a schema stands there from the rest, from the first, or from before
      rw [ih, get?_register, lastRegistered_cons]
      simp only [List.mem_cons, forall_eq_or_imp]
      tauto

/-! ### Any order -/

/-- With distinct names every successful registration is the last of its name. -/
theorem lastRegistered_iff_mem {done : List Registration}
    (hnodup : (done.map Registration.name).Nodup) :
    LastRegistered done name schema ↔ ⟨name, schema, .ok ()⟩ ∈ done := by
  constructor
  · rintro ⟨earlier, later, rfl, -⟩
    exact List.mem_append_right _ List.mem_cons_self
  · intro h
    obtain ⟨earlier, later, rfl⟩ := List.append_of_mem h
    refine ⟨earlier, later, rfl, ?_⟩
    intro other hother hname
    rw [List.map_append, List.map_cons, List.nodup_append, List.nodup_cons] at hnodup
    exact absurd (List.mem_map.mpr ⟨other, hother, hname⟩) hnodup.2.1.1

theorem map_name_registration (library : Library) (entries : List (String × Json)) :
    (entries.map library.registration).map Registration.name = Assoc.keys entries := by
  rw [List.map_map]
  rfl

/-- With distinct names the order of registrations plays no part in what stands under a name. -/
theorem get?_registerAll_of_nodup {entries : List (String × Json)}
    (hnodup : (Assoc.keys entries).Nodup) :
    (registry.registerAll entries).2.catalog.get? name = some schema ↔
      ⟨name, schema, .ok ()⟩ ∈ entries.map registry.catalog.library.registration ∨
        (registry.catalog.get? name = some schema ∧
          ∀ other ∈ entries.map registry.catalog.library.registration,
            other.name = name → other.result ≠ .ok ()) := by
  rw [← map_name_registration registry.catalog.library] at hnodup
  rw [get?_registerAll, registerAll_fst, lastRegistered_iff_mem hnodup]

/-- Generators follow from the schemas. -/
theorem Consistent.generator?_eq {other : Registry} (h : registry.Consistent)
    (hother : other.Consistent) (hsame : registry.catalog.Same other.catalog) (name : String) :
    registry.generator? name = other.generator? name := by
  have hleft := h name
  have hright := hother name
  rw [← hsame.schemas, ← hsame.library] at hright
  rcases rel_cases hleft with ⟨habsent, hnone⟩ | ⟨schema, generator, hpresent, hsome, hcompile⟩
  · rw [habsent] at hright
    rcases rel_cases hright with ⟨-, hnone'⟩ | ⟨_, _, hpresent, -⟩
    · rw [hnone, hnone']
    · cases hpresent
  · rw [hpresent] at hright
    obtain ⟨generator', hsome', hcompile'⟩ := exists_of_rel_left hright rfl
    rw [hcompile, Except.ok.injEq] at hcompile'
    rw [hsome, hsome', hcompile']

theorem Consistent.same_of_perm (h : registry.Consistent) {entries others : List (String × Json)}
    (hperm : entries.Perm others) (hnodup : (Assoc.keys entries).Nodup) :
    (registry.registerAll entries).2.Same (registry.registerAll others).2 := by
  have hnodup' : (Assoc.keys others).Nodup := (hperm.map Prod.fst).nodup_iff.mp hnodup
  have hmem (registration : Registration) :
      registration ∈ entries.map registry.catalog.library.registration ↔
        registration ∈ others.map registry.catalog.library.registration :=
    (hperm.map _).mem_iff
  obtain ⟨_, _, hleft⟩ := registry.registerAll_snd entries
  obtain ⟨_, _, hright⟩ := registry.registerAll_snd others
  have hcatalog : (registry.registerAll entries).2.catalog.Same
      (registry.registerAll others).2.catalog := by
    constructor
    · rw [hleft, hright]
    · intro name
      apply Option.ext
      intro schema
      rw [get?_registerAll_of_nodup hnodup, get?_registerAll_of_nodup hnodup']
      simp only [hmem]
  exact ⟨hcatalog, (h.registerAll entries).generator?_eq (h.registerAll others) hcatalog,
    by rw [hleft, hright], by rw [hleft, hright], by rw [hleft, hright]⟩

theorem consistent_blank (library : Library) (seed : Option UInt64)
    (storeSizes : List (String × Nat)) (opened : UInt64) :
    (blank library seed storeSizes opened).Consistent :=
  fun _ => .none

theorem get?_registerAll_blank (library : Library) (seed : Option UInt64)
    (storeSizes : List (String × Nat)) (opened : UInt64) (entries : List (String × Json)) :
    ((blank library seed storeSizes opened).registerAll entries).2.catalog.get? name =
        some schema ↔
      LastRegistered ((blank library seed storeSizes opened).registerAll entries).1 name
        schema := by
  have hnone : (blank library seed storeSizes opened).catalog.get? name = none := rfl
  rw [get?_registerAll, hnone]
  simp

end

/-- What a registry holds is accounted for by the registrations that were made. -/
structure Records (registry : Registry) (done : List Registration) : Prop where
  named : ∀ name, name ∈ registry.catalog.names ↔ name ∈ registry.names
  compiled : ∀ {name : String} {schema : Json}, registry.catalog.get? name = some schema →
    ∃ generator, Scope.compile ⟨name, registry.catalog.library⟩ schema = .ok generator ∧
      registry.generator? name = some generator
  recorded : ∀ {name : String} {schema : Json},
    registry.catalog.get? name = some schema ↔ LastRegistered done name schema
  failed : ∀ {name : String} {schema : Json} {e : Error},
    (registry.register name schema).1.result = .error e →
      (registry.register name schema).2 = registry

/-- Nothing shows in which of two orders schemas were registered. -/
structure Interchangeable (registry : Registry) (entries others : List (String × Json)) : Prop where
  results : (registry.registerAll entries).1.Perm (registry.registerAll others).1
  content : (registry.registerAll entries).2.Same (registry.registerAll others).2
  sessions : ∀ (unseeded : Source) (depth : Nat) (operations : List Operation),
    Session.Alike (.start (registry.registerAll entries).2 unseeded depth)
      (.start (registry.registerAll others).2 unseeded depth) operations

theorem Consistent.named {registry : Registry} (h : registry.Consistent) (name : String) :
    name ∈ registry.catalog.names ↔ name ∈ registry.names := by
  have hcatalog : name ∈ registry.catalog.names ↔ (registry.catalog.get? name).isSome :=
    (Assoc.get?_isSome_iff name registry.catalog.schemas).symm
  have hcompiled : name ∈ registry.names ↔ (registry.generator? name).isSome := by
    rw [names, Overrides.sorted, List.mem_mergeSort]
    exact (Assoc.get?_isSome_iff name registry.compiled).symm
  rw [hcatalog, hcompiled]
  rcases rel_cases (h name) with ⟨habsent, hnone⟩ | ⟨_, _, hpresent, hsome, -⟩
  · rw [habsent, hnone]
    exact Iff.rfl
  · rw [hpresent, hsome]
    exact Iff.rfl

theorem Consistent.compiled {registry : Registry} (h : registry.Consistent) {name : String}
    {schema : Json} (hschema : registry.catalog.get? name = some schema) :
    ∃ generator, Scope.compile ⟨name, registry.catalog.library⟩ schema = .ok generator ∧
      registry.generator? name = some generator := by
  obtain ⟨generator, hsome, hcompile⟩ := exists_of_rel_left (h name) hschema
  exact ⟨generator, hcompile, hsome⟩

theorem register_of_result_error {registry : Registry} {name : String} {schema : Json} {e : Error}
    (h : (registry.register name schema).1.result = .error e) :
    (registry.register name schema).2 = registry := by
  cases hcompile : Scope.compile ⟨name, registry.catalog.library⟩ schema with
  | error e => rw [register_of_error hcompile]
  | ok generator =>
      rw [register_of_ok hcompile] at h
      cases h

theorem Consistent.interchangeable {registry : Registry} (h : registry.Consistent)
    {entries others : List (String × Json)} (hperm : entries.Perm others)
    (hnodup : (Assoc.keys entries).Nodup) : registry.Interchangeable entries others := by
  have hsame := h.same_of_perm hperm hnodup
  have hresults : (registry.registerAll entries).1.Perm (registry.registerAll others).1 := by
    rw [registerAll_fst, registerAll_fst]
    exact hperm.map _
  exact ⟨hresults, hsame, Session.alike_of_same hsame⟩

/-- Whatever is registered, schemas and generators stay in step, and from then on any order of
registering schemas of distinct names comes to the same. -/
theorem records_registerAll (library : Library) (seed : Option UInt64)
    (storeSizes : List (String × Nat)) (opened : UInt64) (done : List (String × Json)) :
    ((blank library seed storeSizes opened).registerAll done).2.Records
        ((blank library seed storeSizes opened).registerAll done).1 ∧
      ∀ entries others, entries.Perm others → (Assoc.keys entries).Nodup →
        ((blank library seed storeSizes opened).registerAll done).2.Interchangeable entries
          others := by
  have hconsistent := (consistent_blank library seed storeSizes opened).registerAll done
  have hrecorded : ∀ {name : String} {schema : Json}, _ ↔ LastRegistered _ name schema :=
    get?_registerAll_blank library seed storeSizes opened done
  exact ⟨⟨hconsistent.named, hconsistent.compiled, hrecorded, register_of_result_error⟩,
    fun _ _ => hconsistent.interchangeable⟩

end Registry

namespace Sample

/-- Schemas that refer to each other, and one that does not compile. -/
def linkedEntries : List (String × Json) :=
  [("row", .obj [("properties", .obj [("owner", referTo "owner#")])]),
    ("owner", .obj [("properties", .obj [("row", referTo "row#")])]),
    ("broken", .obj [("type", .str "void")])]

end Sample

theorem records_registerAll_linked :
    (Sample.linkedEntries.Perm Sample.linkedEntries.reverse ∧
      (Assoc.keys Sample.linkedEntries).Nodup) ∧
      ((Registry.blank Sample.library (some 7) [] 0).registerAll
        [("row", .obj [])]).2.Interchangeable Sample.linkedEntries
          Sample.linkedEntries.reverse := by
  have hperm : Sample.linkedEntries.Perm Sample.linkedEntries.reverse :=
    (List.reverse_perm _).symm
  have hnodup : (Assoc.keys Sample.linkedEntries).Nodup := by decide
  exact ⟨⟨hperm, hnodup⟩,
    (Registry.records_registerAll Sample.library (some 7) [] 0 [("row", .obj [])]).2 _ _ hperm
      hnodup⟩

end Specimen
