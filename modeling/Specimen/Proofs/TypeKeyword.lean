import Mathlib.Data.Set.List
import Specimen.Proofs.Compiling

/-!
# Two readings of the type keyword

The value of a `type` keyword is read in two places: where the kind of a node is found out, and
where the values of an enumeration are narrowed to the declared types. The second passes over what
is no text in a list. So the two agree unless a list has no entries, or the first of its entries
that name no type is no text.
-/

namespace Specimen

/-- The types that a kind of node lists under its `type` keyword. -/
def Kind.listed? : Kind → Option (List TypeName)
  | .single type => some [type]
  | .union types => some types
  | _ => none

/-- The types of a node that has nothing but a `type` keyword. -/
def dispatchedTypes (value : Json) : Except SchemaError (Option (List TypeName)) :=
  Kind.listed? <$> classify (.obj [(Keyword.type.text, value)])

theorem Outcome.mapM_append_of_error {ε α β : Type} {f : α → Except ε β} {before after : List α}
    {found : List β} {a : α} {e : ε} (hbefore : before.mapM f = .ok found) (ha : f a = .error e) :
    (before ++ a :: after).mapM f = .error e := by
  rw [List.mapM_append, hbefore, List.mapM_cons, ha]
  rfl

/-! ### Lists of type names -/

namespace TypeName

def written (types : List TypeName) : List Json :=
  types.map fun type => .str type.text

/-- A list without entries, or in which the first entry that names no type is no text. -/
inductive Misnames : List Json → Prop where
  | nil : Misnames []
  | noText (types : List TypeName) {entry : Json} (rest : List Json) (noText : entry.str? = none) :
      Misnames (written types ++ entry :: rest)

/-- A list names types up to its first entry that names none, which may be a text or something
else. -/
inductive Scan : List Json → Prop where
  | names (first : TypeName) (types : List TypeName) : Scan (written (first :: types))
  | unknown (types : List TypeName) {name : String} (rest : List Json)
      (unknown : read name = .error (.unknownType name)) :
      Scan (written types ++ .str name :: rest)
  | misnamed {entries : List Json} (misnames : Misnames entries) : Scan entries

theorem read_eq_error {name : String} (h : ofText? name = none) :
    read name = .error (.unknownType name) := by
  rw [read, h]

theorem Scan.cons (first : TypeName) {entries : List Json} (h : Scan entries) :
    Scan (.str first.text :: entries) := by
  cases h with
  | names second types => exact .names first (second :: types)
  | unknown types rest unknown => exact .unknown (first :: types) rest unknown
  | misnamed misnames =>
      cases misnames with
      | nil => exact .names first []
      | noText types rest noText => exact .misnamed (.noText (first :: types) rest noText)

theorem scan (entries : List Json) : Scan entries := by
  induction entries with
  | nil => exact .misnamed .nil
  | cons entry rest ih =>
      cases htext : entry.str? with
      | none => exact .misnamed (.noText [] rest htext)
      | some name =>
          obtain rfl : entry = .str name := by
            cases entry with
            | str text => rw [Option.some.inj htext]
            | null | bool | int | float | arr | obj => cases htext
          cases hname : ofText? name with
          | none => exact .unknown [] rest (read_eq_error hname)
          | some type =>
              rw [ofText?_eq_some_iff.mp hname]
              exact ih.cons type

theorem mapM_readEntry_written (types : List TypeName) :
    (written types).mapM readEntry = .ok types :=
  mapM_readEntry_eq_ok_iff.mpr rfl

theorem filterMap_written (types : List TypeName) :
    (written types).filterMap Json.str? = types.map text := by
  induction types with
  | nil => rfl
  | cons type types ih => exact congrArg (type.text :: ·) ih

theorem mapM_read_eq_ok_iff {names : List String} {types : List TypeName} :
    names.mapM read = .ok types ↔ names = types.map text := by
  simp only [Outcome.mapM_eq_ok, read_eq_ok_iff]
  rw [← List.forall₂_eq_eq_eq, List.forall₂_map_right_iff]

/-- Texts can be read as types if each of them names one. -/
theorem exists_mapM_read_iff {names : List String} :
    (∃ types, names.mapM read = .ok types) ↔ ∀ name ∈ names, ∃ type : TypeName, type.text = name := by
  simp only [mapM_read_eq_ok_iff, @eq_comm _ names]
  exact Set.ext_iff.mp (Set.range_list_map text) names

theorem exists_of_mapM_read_eq_error {names : List String} {e : SchemaError}
    (h : names.mapM read = .error e) : ∃ name, e = .unknownType name := by
  induction names with
  | nil => cases h
  | cons name names ih =>
      rw [List.mapM_cons] at h
      cases hname : ofText? name with
      | none =>
          rw [read_eq_error hname] at h
          cases h
          exact ⟨name, rfl⟩
      | some type =>
          rw [read_eq_ok_iff.mpr (ofText?_eq_some_iff.mp hname)] at h
          cases hrest : names.mapM read with
          | error e' =>
              rw [hrest] at h
              cases h
              exact ih hrest
          | ok types =>
              rw [hrest] at h
              cases h

end TypeName

/-! ### The two readings -/

theorem dispatchedTypes_eq {value : Json} (h : value ≠ .null) :
    dispatchedTypes value = Kind.listed? <$> Kind.ofType value := by
  cases value with
  | null => exact absurd rfl h
  | bool | int | float | str | arr | obj => rfl

theorem Scope.declaredTypes_of_name {node : Json} {name : String}
    (h : node.get? Keyword.type.text = some (.str name)) :
    declaredTypes node = (fun type => some [type]) <$> TypeName.read name := by
  rw [declaredTypes, h]
  rfl

theorem Scope.declaredTypes_of_list {node : Json} {entries : List Json}
    (h : node.get? Keyword.type.text = some (.arr entries)) :
    declaredTypes node = some <$> (entries.filterMap Json.str?).mapM TypeName.read := by
  rw [declaredTypes, h]
  rfl

theorem dispatchedTypes_written (first : TypeName) (types : List TypeName) :
    dispatchedTypes (.arr (TypeName.written (first :: types))) = .ok (some (first :: types)) := by
  rw [dispatchedTypes_eq (by simp), Kind.ofType, TypeName.mapM_readEntry_written]
  cases types with
  | nil => rfl
  | cons second types => rfl

theorem dispatchedTypes_of_error {entries : List Json} {e : SchemaError}
    (h : entries.mapM TypeName.readEntry = .error e) : dispatchedTypes (.arr entries) = .error e := by
  rw [dispatchedTypes_eq (by simp), Kind.ofType, h]
  rfl

/-- A list that misnames types is turned down where the kind of a node is found out. -/
theorem TypeName.Misnames.dispatchedTypes_eq {entries : List Json} (h : Misnames entries) :
    dispatchedTypes (.arr entries) =
      .error (.misused .type (if entries = [] then .noTypes else .notTypeNames)) := by
  cases h with
  | nil => rfl
  | @noText types entry rest noText =>
      have hentry : readEntry entry = .error (.misused .type .notTypeNames) := by
        cases entry with
        | str name => cases noText
        | null | bool | int | float | arr | obj => rfl
      rw [if_neg (by simp)]
      exact dispatchedTypes_of_error
        (Outcome.mapM_append_of_error (mapM_readEntry_written types) hentry)

section

variable {node value : Json} {entries : List Json}

/-- Narrowing an enumeration never finds fault with the shape of a list. -/
theorem Scope.declaredTypes_ne_misused
    (h : node.get? Keyword.type.text = some (.arr entries)) (misuse : Misuse) :
    declaredTypes node ≠ .error (.misused .type misuse) := by
  rw [declaredTypes_of_list h]
  intro herror
  cases hread : (entries.filterMap Json.str?).mapM TypeName.read with
  | ok types =>
      rw [hread] at herror
      cases herror
  | error e =>
      obtain ⟨name, rfl⟩ := TypeName.exists_of_mapM_read_eq_error hread
      rw [hread] at herror
      cases herror

theorem Scope.exists_declaredTypes_iff (h : node.get? Keyword.type.text = some (.arr entries)) :
    (∃ types, declaredTypes node = .ok (some types)) ↔
      ∀ name, .str name ∈ entries → ∃ type : TypeName, type.text = name := by
  have htexts (name : String) : name ∈ entries.filterMap Json.str? ↔ .str name ∈ entries := by
    rw [List.mem_filterMap]
    constructor
    · rintro ⟨entry, hentry, htext⟩
      cases entry with
      | str text => exact Option.some.inj htext ▸ hentry
      | null | bool | int | float | arr | obj => cases htext
    · exact fun hentry => ⟨_, hentry, rfl⟩
  simp only [declaredTypes_of_list h, Outcome.map_eq_ok, Option.some.injEq, exists_eq_right,
    TypeName.exists_mapM_read_iff, htexts]

theorem Scope.declaredTypes_eq_of_not_misnames
    (h : node.get? Keyword.type.text = some (.arr entries)) (hnames : ¬ TypeName.Misnames entries) :
    declaredTypes node = dispatchedTypes (.arr entries) := by
  rw [declaredTypes_of_list h]
  cases TypeName.scan entries with
  | misnamed misnames => exact absurd misnames hnames
  | names first types =>
      rw [dispatchedTypes_written, TypeName.filterMap_written,
        TypeName.mapM_read_eq_ok_iff.mpr rfl]
      rfl
  | @unknown types name rest unknown =>
      have hentry : TypeName.readEntry (.str name) = .error (.unknownType name) := unknown
      rw [dispatchedTypes_of_error
          (Outcome.mapM_append_of_error (TypeName.mapM_readEntry_written types) hentry),
        List.filterMap_append, TypeName.filterMap_written, List.filterMap_cons]
      dsimp only [Json.str?]
      rw [Outcome.mapM_append_of_error (TypeName.mapM_read_eq_ok_iff.mpr rfl) unknown]
      rfl

/-- The readings differ just for lists that misname types: such a list is turned down by the one as
misused, and taken by the other if its texts name types. -/
theorem declaredTypes_eq_dispatchedTypes_iff (hdeclared : node.get? Keyword.type.text = some value)
    (hvalue : value ≠ .null) :
    (Scope.declaredTypes node = dispatchedTypes value ↔
        ¬ ∃ entries, value = .arr entries ∧ TypeName.Misnames entries) ∧
      ∀ entries, value = .arr entries → TypeName.Misnames entries →
        dispatchedTypes value =
            .error (.misused .type (if entries = [] then .noTypes else .notTypeNames)) ∧
          ((∃ types, Scope.declaredTypes node = .ok (some types)) ↔
            ∀ name, .str name ∈ entries → ∃ type : TypeName, type.text = name) := by
  refine ⟨⟨?_, ?_⟩, ?_⟩
  · rintro hsame ⟨entries, rfl, hmisnames⟩
    rw [hmisnames.dispatchedTypes_eq] at hsame
    exact Scope.declaredTypes_ne_misused hdeclared _ hsame
  · intro hnames
    cases value with
    | null => exact absurd rfl hvalue
    | arr entries =>
        exact Scope.declaredTypes_eq_of_not_misnames hdeclared fun h => hnames ⟨entries, rfl, h⟩
    | str name =>
        rw [dispatchedTypes_eq hvalue, Scope.declaredTypes_of_name hdeclared, Kind.ofType]
        cases TypeName.read name with
        | error e => rfl
        | ok type => rfl
    | bool | int | float | obj =>
        rw [dispatchedTypes_eq hvalue, Scope.declaredTypes, hdeclared]
        rfl
  · rintro entries rfl hmisnames
    exact ⟨hmisnames.dispatchedTypes_eq, Scope.exists_declaredTypes_iff hdeclared⟩

end

namespace Sample

def enumWithTypes (types values : Json) : Json :=
  .obj [("type", types), ("enum", values)]

/-- A list with a name of a type, and a number that is none. -/
def mixedTypes : Json :=
  .arr [.str "null", .int 1]

def onlyNull : Json :=
  .arr [.null]

end Sample

/-- Two names in a list are read alike; a number behind a name is noticed by one reading and passed
over by the other. -/
theorem declaredTypes_eq_dispatchedTypes_iff_lists :
    (Sample.enumWithTypes (.arr [.str "string", .str "null"]) Sample.onlyNull).get? Keyword.type.text =
        some (.arr [.str "string", .str "null"]) ∧
      Scope.declaredTypes (Sample.enumWithTypes (.arr [.str "string", .str "null"]) Sample.onlyNull) =
        dispatchedTypes (.arr [.str "string", .str "null"]) ∧
      (Sample.enumWithTypes Sample.mixedTypes Sample.onlyNull).get? Keyword.type.text =
        some Sample.mixedTypes ∧
      Scope.declaredTypes (Sample.enumWithTypes Sample.mixedTypes Sample.onlyNull) ≠
        dispatchedTypes Sample.mixedTypes := by
  have hnames : ¬ ∃ entries, Json.arr [.str "string", .str "null"] = .arr entries ∧
      TypeName.Misnames entries := by
    rintro ⟨entries, heq, hmisnames⟩
    cases heq
    cases hmisnames.dispatchedTypes_eq
  refine ⟨rfl, ?_, rfl, ?_⟩
  · exact (declaredTypes_eq_dispatchedTypes_iff rfl (by simp)).1.mpr hnames
  · intro hsame
    exact (declaredTypes_eq_dispatchedTypes_iff rfl (by simp [Sample.mixedTypes])).1.mp hsame
      ⟨_, rfl, .noText [.null] [] rfl⟩

/-- A list with a number in it, which does not compile as the type of a node, is taken as the types
of an enumeration; and a list without entries is turned down by the dispatcher only. -/
theorem exists_declaredTypes_ne :
    Scope.declaredTypes (Sample.enumWithTypes Sample.mixedTypes Sample.onlyNull) = .ok (some [.null]) ∧
      dispatchedTypes Sample.mixedTypes = .error (.misused .type .notTypeNames) ∧
      Sample.scope.compile (Sample.enumWithTypes Sample.mixedTypes Sample.onlyNull) =
        .ok (.enumeration [.null] ⟨1, Nat.one_pos⟩) ∧
      Sample.scope.compile (.obj [("type", Sample.mixedTypes)]) =
        .error (.schema (.misused .type .notTypeNames)) ∧
      Scope.declaredTypes (Sample.enumWithTypes (.arr []) Sample.onlyNull) = .ok (some []) ∧
      dispatchedTypes (.arr []) = .error (.misused .type .noTypes) :=
  ⟨rfl, rfl, Scope.compile_eq_compileKind _ _, Scope.compile_eq_compileKind _ _, rfl, rfl⟩

end Specimen
