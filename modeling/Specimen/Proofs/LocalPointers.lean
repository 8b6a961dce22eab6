import Specimen.Proofs.Qualifying

/-!
# Local pointers

A local pointer that is read in the schema it was written for means the same as the pointer
qualified by that schema's name. Compiling reads a pointer in the schema of the node it compiles,
which is the wrong one for what was written beside a reference to another schema; where no local
pointer stands there, documents may be qualified throughout.
-/

namespace Specimen

/-! ### Reading pointers -/

/-- Two pointers that are one or of which one qualifies the other are misread both, or lead from one
schema along one path. -/
theorem Reference.parse_of_qualified {name text qualified : String}
    (h : text = qualified ∨ Qualified name text qualified) :
    (∃ e f, parse text = .error e ∧ parse qualified = .error f) ∨
      ∃ reference reference', parse text = .ok reference ∧ parse qualified = .ok reference' ∧
        reference.schemaOr name = reference'.schemaOr name ∧
          reference.segments = reference'.segments := by
  rcases h with rfl | ⟨hname, path, htext, hqualified⟩
  · cases hparse : parse text with
    | error e => exact .inl ⟨e, e, rfl, rfl⟩
    | ok reference => exact .inr ⟨reference, reference, rfl, rfl, rfl, rfl⟩
  · have hcut : Text.cutAt? '#' text.toList = some ([], path) := by
      rw [htext]
      exact Text.cutAt?_append List.not_mem_nil path
    have hcut' : Text.cutAt? '#' qualified.toList = some (name.toList, path) := by
      rw [hqualified]
      exact Text.cutAt?_append hname path
    rw [parse, parse, hcut, hcut']
    dsimp only
    by_cases hmark : path.contains '#' = true
    · rw [if_pos hmark, if_pos hmark]
      exact .inl ⟨_, _, rfl, rfl⟩
    · rw [if_neg hmark, if_neg hmark]
      refine .inr ⟨_, _, rfl, rfl, ?_, rfl⟩
      rw [ofParts, ofParts, schemaOr, schemaOr, String.ofList_toList]
      dsimp only
      rw [if_pos rfl]
      split
      · rfl
      · rfl

/-! ### Following pointers -/

/-- Two values found by one path in a document and its qualification. A path may also end in the text
of a reference, which compiles to nothing. -/
inductive Json.Matches (name : String) : Json → Json → Prop where
  | qualifies {value other : Json} (qualifies : Json.Qualifies name value other) :
      Matches name value other
  | texts (text other : String) : Matches name (.str text) (.str other)

namespace Json

variable {name : String} {value other : Json}

theorem MemberQualifies.matches {member member' : String × Json}
    (h : MemberQualifies name (Qualifies name) member member') :
    Matches name member.2 member'.2 := by
  cases h with
  | reference => exact .texts _ _
  | values => exact .qualifies (qualifies_self name _)
  | below _ qualifies => exact .qualifies qualifies

theorem Matches.child? (h : Matches name value other) (segment : String) :
    Option.Rel (Matches name) (Reference.child? value segment)
      (Reference.child? other segment) := by
  cases h with
  | texts => exact .none
  | qualifies qualifies =>
      cases qualifies with
      | plain notArray notObject =>
          cases value with
          | obj members => exact absurd rfl (notObject members)
          | arr items => cases notArray
          | null | bool | int | float | str => exact .none
      | array each =>
          rw [Reference.child?, Reference.child?]
          cases Reference.position? segment with
          | none => exact .none
          | some place =>
              dsimp only [Option.bind_some]
              exact rel_getElem? (each.imp fun _ _ => .qualifies) place
      | object each =>
          rw [Reference.child?, Reference.child?]
          rcases rel_cases (MembersQualify.get? each segment) with
            ⟨habsent, habsent'⟩ | ⟨found, found', hfound, hfound', hrelated⟩
          · rw [habsent, habsent']
            exact .none
          · rw [hfound, hfound']
            exact .some hrelated.matches

theorem Matches.follow (h : Matches name value other) (segments : List String) :
    Outcome.Related (fun _ _ => True) (Matches name) (Reference.follow value segments)
      (Reference.follow other segments) := by
  induction segments generalizing value other with
  | nil => exact .ok h
  | cons segment rest ih =>
      rw [Reference.follow, Reference.follow]
      rcases rel_cases (h.child? segment) with
        ⟨habsent, habsent'⟩ | ⟨next, next', hnext, hnext', hrelated⟩
      · rw [habsent, habsent']
        exact .error trivial
      · rw [hnext, hnext']
        exact ih hrelated

end Json

/-! ### Reading keywords -/

/-- Kinds of nodes with any of their local pointers qualified. -/
inductive Kind.Qualifies (name : String) : Kind → Kind → Prop where
  | reference {text qualified : String}
      (written : text = qualified ∨ Reference.Qualified name text qualified) :
      Qualifies name (.reference text) (.reference qualified)
  | anyOf {branches others : List Json} (each : List.Forall₂ (Json.Qualifies name) branches others) :
      Qualifies name (.anyOf branches) (.anyOf others)
  | allOf {branches others : List Json} (each : List.Forall₂ (Json.Qualifies name) branches others) :
      Qualifies name (.allOf branches) (.allOf others)
  | oneOf {branches others : List Json} (each : List.Forall₂ (Json.Qualifies name) branches others) :
      Qualifies name (.oneOf branches) (.oneOf others)
  | enumeration (values : List Json) : Qualifies name (.enumeration values) (.enumeration values)
  | union (types : List TypeName) : Qualifies name (.union types) (.union types)
  | typed {kind : Kind} {type : TypeName} (ofType : kind.type? = some type) :
      Qualifies name kind kind
  | empty : Qualifies name .empty .empty

section Reading

variable {name : String} {value other : Json}

theorem Json.Qualifies.present? {node node' : Json} (h : Json.Qualifies name node node')
    (keyword : Keyword) :
    Option.Rel (fun value other =>
        Json.MemberQualifies name (Json.Qualifies name) (keyword.text, value) (keyword.text, other))
      (node.present? keyword) (node'.present? keyword) := by
  rw [Json.present?, Json.present?]
  rcases rel_cases (h.get? keyword.text) with
    ⟨habsent, habsent'⟩ | ⟨value, value', hvalue, hvalue', hrelated⟩
  · rw [habsent, habsent']
    exact .none
  · rw [hvalue, hvalue']
    rcases Json.memberQualifies_cases hrelated with ⟨text, qualified, -, rfl, rfl, -⟩ |
        ⟨values, -, rfl, rfl⟩ | ⟨-, qualifies⟩
    · exact .some hrelated
    · exact .some hrelated
    · cases qualifies with
      | array => exact .some hrelated
      | object => exact .some hrelated
      | plain notArray notObject =>
          cases value with
          | null => exact .none
          | bool | int | float | str | arr | obj => exact .some hrelated

/-- Under other keys than `$ref` and `enum` nothing but values stand. -/
theorem Json.MemberQualifies.qualifies {key : String}
    (h : Json.MemberQualifies name (Json.Qualifies name) (key, value) (key, other))
    (hreference : key ≠ Keyword.ref.text) : Json.Qualifies name value other := by
  rcases Json.memberQualifies_cases h with ⟨text, qualified, hkey, -⟩ | ⟨values, -, rfl, rfl⟩ |
      ⟨-, qualifies⟩
  · exact absurd hkey hreference
  · exact Json.qualifies_self name _
  · exact qualifies

theorem related_branches (keyword : Keyword) (h : Json.Qualifies name value other) :
    Outcome.Related (fun _ _ => True) (List.Forall₂ (Json.Qualifies name))
      (Kind.branches keyword value) (Kind.branches keyword other) := by
  cases h with
  | object => exact .error trivial
  | array each =>
      cases each with
      | nil => exact .error trivial
      | cons hfirst hrest => exact .ok (.cons hfirst hrest)
  | plain notArray notObject =>
      cases value with
      | arr items => cases notArray
      | null | bool | int | float | str | obj => exact .error trivial

theorem Json.Qualifies.str?_eq (h : Json.Qualifies name value other) : value.str? = other.str? := by
  cases h with
  | plain | array | object => rfl

theorem filterMap_str?_eq {items others : List Json}
    (h : List.Forall₂ (Json.Qualifies name) items others) :
    items.filterMap Json.str? = others.filterMap Json.str? := by
  induction h with
  | nil => rfl
  | cons hfirst _ ih => rw [List.filterMap_cons, List.filterMap_cons, ih, hfirst.str?_eq]

theorem agrees_readEntry (h : Json.Qualifies name value other) :
    Agrees (fun _ _ => True) (TypeName.readEntry value) (TypeName.readEntry other) := by
  cases h with
  | object => exact .error trivial
  | array => exact .error trivial
  | plain => exact Outcome.related_self (fun _ => trivial) _

theorem related_ofType (h : Json.Qualifies name value other) :
    Outcome.Related (fun _ _ => True) (Kind.Qualifies name) (Kind.ofType value)
      (Kind.ofType other) := by
  have hself : Outcome.Related (fun _ _ => True) (Kind.Qualifies name) (Kind.ofType value)
      (Kind.ofType value) := by
    cases hkind : Kind.ofType value with
    | error e => exact .error trivial
    | ok kind =>
        cases Kind.ofType_eq_ok hkind with
        | single | singleton => exact .ok (.typed rfl)
        | union => exact .ok (.union _)
  cases h with
  | object => exact .error trivial
  | plain => exact hself
  | @array items others each =>
      have hentries := Outcome.related_mapM each fun _ _ => agrees_readEntry
      have hsame : Kind.ofType (.arr items) = Kind.ofType (.arr others) ∨
          ∃ e f, Kind.ofType (.arr items) = .error e ∧ Kind.ofType (.arr others) = .error f := by
        rw [Kind.ofType, Kind.ofType]
        rcases hentries.cases with ⟨types, types', htypes, htypes', heq⟩ | ⟨e, f, he, hf, -⟩
        · rw [List.forall₂_eq_eq_eq] at heq
          rw [htypes, htypes', heq]
          exact .inl rfl
        · rw [he, hf]
          exact .inr ⟨_, _, rfl, rfl⟩
      rcases hsame with hsame | ⟨e, f, hleft, hright⟩
      · rw [← hsame]
        exact hself
      · rw [hleft, hright]
        exact .error trivial

theorem ofKeyword_enum (h : value.items? = none) :
    Kind.ofKeyword .enum value = .error (.misused .enum .notArray) := by
  cases value with
  | arr items => cases h
  | null | bool | int | float | str | obj => rfl

theorem related_ofKeyword {keyword : Keyword}
    (h : Json.MemberQualifies name (Json.Qualifies name) (keyword.text, value)
      (keyword.text, other)) :
    Outcome.Related (fun _ _ => True) (Kind.Qualifies name) (Kind.ofKeyword keyword value)
      (Kind.ofKeyword keyword other) := by
  cases keyword with
  | ref =>
      rcases Json.memberQualifies_cases h with ⟨text, qualified, -, rfl, rfl, written⟩ |
          ⟨values, hkey, -⟩ | ⟨-, qualifies⟩
      · exact .ok (.reference (.inr written))
      · exact absurd hkey (by decide)
      · cases qualifies with
        | array => exact .error trivial
        | object => exact .error trivial
        | plain =>
            cases value with
            | str text => exact .ok (.reference (.inl rfl))
            | null | bool | int | float | arr | obj => exact .error trivial
  | enum =>
      rcases Json.memberQualifies_cases h with ⟨text, qualified, hkey, -⟩ |
          ⟨values, -, rfl, rfl⟩ | ⟨notValues, qualifies⟩
      · exact absurd hkey (by decide)
      · exact .ok (.enumeration values)
      · have hleft := notValues rfl
        have hright := qualifies.items?_eq_none hleft
        rw [ofKeyword_enum hleft, ofKeyword_enum hright]
        exact .error trivial
  | anyOf =>
      apply (related_branches .anyOf (h.qualifies (by decide))).bind
      intro branches others each
      exact .ok (.anyOf each)
  | allOf =>
      apply (related_branches .allOf (h.qualifies (by decide))).bind
      intro branches others each
      exact .ok (.allOf each)
  | oneOf =>
      apply (related_branches .oneOf (h.qualifies (by decide))).bind
      intro branches others each
      exact .ok (.oneOf each)
  | type => exact related_ofType (h.qualifies (by decide))
  | format =>
      cases h.qualifies (by decide) with
      | array => exact .error trivial
      | object => exact .error trivial
      | plain =>
          cases value with
          | str text => exact .ok (.typed rfl)
          | null | bool | int | float | arr | obj => exact .error trivial
  | properties => exact .ok (.typed rfl)
  | items => exact .ok (.typed rfl)

theorem related_classify {node node' : Json} (h : Json.Qualifies name node node') :
    Outcome.Related (fun _ _ => True) (Kind.Qualifies name) (classify node) (classify node') := by
  rw [classify, classify]
  generalize Keyword.precedence = keywords
  induction keywords with
  | nil => exact .ok .empty
  | cons keyword rest ih =>
      rw [Kind.ofKeywords, Kind.ofKeywords]
      rcases rel_cases (h.present? keyword) with
        ⟨habsent, habsent'⟩ | ⟨value, value', hvalue, hvalue', hrelated⟩
      · rw [habsent, habsent']
        exact ih
      · rw [hvalue, hvalue']
        exact related_ofKeyword hrelated

theorem agrees_declaredTypes {node node' : Json} (h : Json.Qualifies name node node') :
    Agrees (fun _ _ => True) (Scope.declaredTypes node) (Scope.declaredTypes node') := by
  rw [Scope.declaredTypes, Scope.declaredTypes]
  rcases rel_cases (h.get? Keyword.type.text) with
    ⟨habsent, habsent'⟩ | ⟨value, value', hvalue, hvalue', hrelated⟩
  · rw [habsent, habsent']
    exact .ok rfl
  · rw [hvalue, hvalue']
    cases hrelated.qualifies (by decide) with
    | object => exact .error trivial
    | plain => exact Outcome.related_self (fun _ => trivial) _
    | @array items others each =>
        dsimp only
        rw [filterMap_str?_eq each]
        exact Outcome.related_self (fun _ => trivial) _

theorem agrees_readMember (c : Constraints) {key : String}
    (h : Json.MemberQualifies name (Json.Qualifies name) (key, value) (key, other)) :
    Outcome.Related (fun _ _ => True) Eq (c.readMember key value) (c.readMember key other) := by
  rcases Json.memberQualifies_cases h with ⟨text, qualified, rfl, rfl, rfl, -⟩ |
      ⟨values, -, rfl, rfl⟩ | ⟨-, qualifies⟩
  · exact .ok rfl
  · exact Outcome.related_self (fun _ => trivial) _
  · cases qualifies with
    | plain => exact Outcome.related_self (fun _ => trivial) _
    | array =>
        rw [Constraints.readMember.eq_def, Constraints.readMember.eq_def]
        split
        all_goals first | exact .error trivial | exact .ok rfl
    | object =>
        rw [Constraints.readMember.eq_def, Constraints.readMember.eq_def]
        split
        all_goals first | exact .error trivial | exact .ok rfl

theorem agrees_ofNode {node node' : Json} (h : Json.Qualifies name node node') :
    Agrees (fun _ _ => True) (Constraints.ofNode node) (Constraints.ofNode node') := by
  cases h with
  | array => exact .ok rfl
  | plain => exact Outcome.related_self (fun _ => trivial) _
  | @object members others each =>
      have hmembers : ∀ c, Outcome.Related (fun _ _ => True) Eq
          (Constraints.readMembers c members) (Constraints.readMembers c others) := by
        induction each with
        | nil =>
            intro c
            exact .ok rfl
        | @cons member other members others hfirst _ ih =>
            intro c
            obtain ⟨key, value⟩ := member
            obtain ⟨key', value'⟩ := other
            obtain rfl : key = key' := hfirst.key_eq
            rw [Constraints.readMembers, Constraints.readMembers]
            rcases (agrees_readMember c hfirst).cases with
              ⟨next, _, hnext, hnext', rfl⟩ | ⟨e, f, he, hf, -⟩
            · rw [hnext, hnext']
              exact ih next
            · rw [he, hf]
              exact .error trivial
      rw [Constraints.ofNode, Constraints.ofNode]
      rcases (hmembers Constraints.none).cases with ⟨c, _, hc, hc', rfl⟩ | ⟨e, f, he, hf, -⟩
      · rw [hc, hc']
        exact .ok rfl
      · rw [he, hf]
        exact .error trivial

end Reading

/-! ### Nodes with qualified pointers -/

section Nodes

variable {name : String} {node node' : Json}

/-- Errors are not compared: a local pointer and its qualification are misread alike, but not with
the same words. -/
abbrev AnyErrors : Error → Error → Prop :=
  fun _ _ => True

theorem Json.Qualifies.withBranch (h : Json.Qualifies name node node') (keyword : Keyword)
    {branch branch' : Json} (hbranch : Json.Qualifies name branch branch') :
    Json.Qualifies name (Scope.withBranch node keyword branch)
      (Scope.withBranch node' keyword branch') :=
  (h.without keyword.text).merge hbranch

theorem Json.Qualifies.withAllBranches (h : Json.Qualifies name node node')
    {branches branches' : List Json}
    (hbranches : List.Forall₂ (Json.Qualifies name) branches branches') :
    Json.Qualifies name (Scope.withAllBranches node branches)
      (Scope.withAllBranches node' branches') := by
  have hstart := h.without Keyword.allOf.text
  rw [Scope.withAllBranches, Scope.withAllBranches]
  generalize node.without Keyword.allOf.text = base at hstart
  generalize node'.without Keyword.allOf.text = base' at hstart
  induction hbranches generalizing base base' with
  | nil => exact hstart
  | cons hfirst _ ih => exact ih _ _ (hstart.merge hfirst)

theorem Json.Qualifies.withType (h : Json.Qualifies name node node') (type : TypeName) :
    Json.Qualifies name (Scope.withType node type) (Scope.withType node' type) :=
  h.put (Json.memberQualifies_self (Json.qualifies_self name _))

theorem Json.Qualifies.propertiesAlike {value other : Json} (h : Json.Qualifies name value other) :
    PropertiesAlike (Json.Matches name) value other := by
  cases h with
  | array => exact .noFields (by simp) (by simp)
  | plain notArray notObject => exact .noFields notObject notObject
  | object each => exact .each (each.imp fun _ _ h => ⟨h.key_eq, h.matches⟩)

theorem Json.Qualifies.itemsAlike {value other : Json} (h : Json.Qualifies name value other) :
    ItemsAlike (Json.Matches name) value other := by
  cases h with
  | array each => exact .places (each.imp fun _ _ => .qualifies)
  | object each => exact .element (by simp) (by simp) (.qualifies (.object each))
  | plain notArray notObject =>
      have hplain : ∀ places, value ≠ .arr places := by
        rintro places rfl
        cases notArray
      exact .element hplain hplain (.qualifies (.plain notArray notObject))

theorem partsCorrespond_of_qualifies (h : Json.Qualifies name node node') (type : TypeName) :
    PartsCorrespond AnyErrors (Json.Matches name) node node' type := by
  have hproperties := rel_imp (h.present? .properties) fun _ _ hvalue =>
    (hvalue.qualifies (by decide)).propertiesAlike
  have hitems := rel_imp (h.present? .items) fun _ _ hvalue =>
    (hvalue.qualifies (by decide)).itemsAlike
  exact partsCorrespond_of_alike hproperties hitems (agrees_ofNode h)
    (.qualifies (Json.qualifies_self name _)) type

/-- Two qualified nodes correspond unless they are references. -/
theorem corresponds_of_qualifies (h : Json.Qualifies name node node') :
    Corresponds AnyErrors (Json.Matches name) node node' ∨
      ∃ text qualified, classify node = .ok (.reference text) ∧
        classify node' = .ok (.reference qualified) ∧
          (text = qualified ∨ Reference.Qualified name text qualified) := by
  rcases (related_classify h).cases with ⟨kind, kind', hkind, hkind', hrelated⟩ |
      ⟨e, f, he, hf, -⟩
  · cases hrelated with
    | reference written => exact .inr ⟨_, _, hkind, hkind', written⟩
    | anyOf each =>
        refine .inl (.choice hkind hkind' rfl rfl ?_)
        rw [List.forall₂_map_left_iff, List.forall₂_map_right_iff]
        exact each.imp fun _ _ hbranch => .qualifies (h.withBranch .anyOf hbranch)
    | oneOf each =>
        refine .inl (.choice hkind hkind' rfl rfl ?_)
        rw [List.forall₂_map_left_iff, List.forall₂_map_right_iff]
        exact each.imp fun _ _ hbranch => .qualifies (h.withBranch .oneOf hbranch)
    | allOf each =>
        exact .inl (.allOf hkind hkind' (.qualifies (h.withAllBranches each)))
    | enumeration values =>
        exact .inl (.enumeration hkind hkind' (agrees_declaredTypes h))
    | union types =>
        refine .inl (.choice hkind hkind' rfl rfl ?_)
        rw [List.forall₂_map_left_iff, List.forall₂_map_right_iff]
        exact List.forall₂_same.mpr fun type _ => .qualifies (h.withType type)
    | typed ofType =>
        exact .inl (.typed hkind hkind' ofType ofType (partsCorrespond_of_qualifies h _))
    | empty => exact .inl (.empty hkind hkind')
  · exact .inl (.broken he hf trivial)

end Nodes

/-! ### Catalogs with qualified pointers -/

/-- Every document of a catalog with any of its local pointers qualified by its own name. -/
def Catalog.Qualifies (catalog other : Catalog) : Prop :=
  ∀ name, Option.Rel (Json.Qualifies name) (catalog.get? name) (other.get? name)

section Catalogs

variable {catalog other : Catalog} {name : String} {document document' : Json}

theorem Json.Matches.merge {base base' overlay overlay' : Json}
    (h : Json.Matches name base base') (hoverlay : Json.Qualifies name overlay overlay') :
    Json.Qualifies name (base.merge overlay) (base'.merge overlay') := by
  cases h with
  | qualifies qualifies => exact qualifies.merge hoverlay
  | texts text text' =>
      rw [Json.str_merge, Json.str_merge]
      exact hoverlay

theorem Catalog.qualifies_of_forall₂
    (h : List.Forall₂ (fun entry other => entry.1 = other.1 ∧
      Json.Qualifies entry.1 entry.2 other.2) catalog.schemas other.schemas) :
    catalog.Qualifies other :=
  rel_get?_of_forall₂ h

theorem Catalog.Qualifies.resolve (h : catalog.Qualifies other) (name : String)
    {reference reference' : Reference} (hsegments : reference.segments = reference'.segments) :
    Outcome.Related AnyErrors (Json.Matches name) (catalog.resolve name reference)
      (other.resolve name reference') := by
  rw [Catalog.resolve, Catalog.resolve, Catalog.require, Catalog.require]
  rcases rel_cases (h name) with
    ⟨habsent, habsent'⟩ | ⟨document, document', hdocument, hdocument', hqualifies⟩
  · rw [habsent, habsent']
    exact .error trivial
  · rw [hdocument, hdocument']
    dsimp only
    rw [Reference.lookup, Reference.lookup, ← hsegments]
    rcases ((Json.Matches.qualifies hqualifies).follow reference.segments).cases with
      ⟨found, found', hfound, hfound', hmatches⟩ | ⟨e, f, he, hf, -⟩
    · rw [hfound, hfound']
      exact .ok hmatches
    · rw [he, hf]
      exact .error trivial

/-- Two references that lead from one schema along one path have qualified targets if what stands
beside the one qualifies what stands beside the other. -/
theorem Catalog.Qualifies.target (h : catalog.Qualifies other) {schema : String}
    {node node' : Json} {reference reference' : Reference}
    (howner : reference.schemaOr schema = reference'.schemaOr schema)
    (hsegments : reference.segments = reference'.segments)
    (hoverlay : Json.Qualifies (reference.schemaOr schema) (node.without Keyword.ref.text)
      (node'.without Keyword.ref.text)) :
    Outcome.Related AnyErrors (fun target target' =>
        catalog.target schema node reference = .ok target ∧
          Json.Qualifies (reference.schemaOr schema) target target')
      (catalog.target schema node reference) (other.target schema node' reference') := by
  rw [Catalog.target, Catalog.target, ← howner]
  rcases (h.resolve (reference.schemaOr schema) hsegments).cases with
    ⟨found, found', hfound, hfound', hmatches⟩ | ⟨e, f, he, hf, -⟩
  · rw [hfound, hfound']
    exact .ok ⟨rfl, hmatches.merge hoverlay⟩
  · rw [he, hf]
    exact .error trivial

/-- Nodes that are reached in a schema and found at one place of its document and of the qualified
one. -/
def Standing (catalog : Catalog) (name : String) (document : Json) (schema : String) (node : Json)
    (schema' : String) (node' : Json) : Prop :=
  schema = schema' ∧ Reached catalog name document schema node ∧ Json.Matches schema node node'

/-- Beside no reference to another schema stands a local pointer. -/
def NoPointersBeside (catalog : Catalog) (name : String) (document : Json) : Prop :=
  ∀ (schema : String) (node : Json) (pointer : String) (reference : Reference),
    Reached catalog name document schema node → classify node = .ok (.reference pointer) →
      Reference.parse pointer = .ok reference → reference.schemaOr schema ≠ schema →
        ¬ (node.without Keyword.ref.text).WritesLocal

theorem lockstep_standing (hcatalogs : catalog.Qualifies other)
    (hbeside : NoPointersBeside catalog name document) :
    Lockstep catalog other AnyErrors (Standing catalog name document) := by
  rintro schema node _ node' ⟨rfl, hreached, hmatches⟩
  cases hmatches with
  | texts text text' => exact .inl (.empty rfl rfl)
  | qualifies qualifies =>
      rcases corresponds_of_qualifies qualifies with hcorresponds |
          ⟨text, qualified, htext, hqualified, hwritten⟩
      · exact .inl (hcorresponds.imp fun part part' hpart _ hmatches =>
          ⟨rfl, hreached.part hpart, hmatches⟩)
      · right
        rcases Reference.parse_of_qualified hwritten with ⟨e, f, he, hf⟩ |
            ⟨reference, reference', hparse, hparse', howner, hsegments⟩
        · exact .misread htext hqualified he hf trivial
        · apply RefersAlike.read htext hqualified hparse hparse'
          -- what stands beside a reference to another schema is read there from now on
          have hoverlay : Json.Qualifies (reference.schemaOr schema)
              (node.without Keyword.ref.text) (node'.without Keyword.ref.text) := by
            by_cases hsame : reference.schemaOr schema = schema
            · rw [hsame]
              exact qualifies.without Keyword.ref.text
            · have hlocal := hbeside _ _ _ _ hreached htext hparse hsame
              rw [(qualifies.without Keyword.ref.text).eq_of_not_writesLocal hlocal]
              exact Json.qualifies_self _ _
          refine (hcatalogs.target howner hsegments hoverlay).imp (fun _ _ he => he) ?_
          rintro target target' ⟨htarget, htargets⟩
          exact ⟨howner, hreached.target htext hparse htarget, .qualifies htargets⟩

/-- Qualifying local pointers changes no sample of a registered document, as long as no local pointer
stands beside a reference to another schema. -/
theorem sample_of_qualifies (hlibrary : other.library = catalog.library)
    (hcatalogs : catalog.Qualifies other) (hdocument : catalog.get? name = some document)
    (hdocument' : other.get? name = some document')
    (hbeside : NoPointersBeside catalog name document) (depth : Nat) :
    Run.Agree (Halt.Related AnyErrors) Eq (catalog.sample depth name document)
      (other.sample depth name document') := by
  have hqualifies := hcatalogs name
  rw [hdocument, hdocument'] at hqualifies
  obtain ⟨hqualifies⟩ := hqualifies
  have hlock : Lockstep catalog other AnyErrors (Standing catalog name document) :=
    lockstep_standing hcatalogs hbeside
  exact hlock.sample (fun _ => trivial) hlibrary depth ⟨rfl, .root, .qualifies hqualifies⟩

end Catalogs

namespace Sample

theorem get?_linkedCatalog (pointer : String) :
    (linkedCatalog pointer).get? "sample" = some (linked pointer) :=
  rfl

theorem qualifies_linked :
    (linkedCatalog "#/properties/id").Qualifies (linkedCatalog "sample#/properties/id") := by
  have hnext : Json.Qualifies "sample" (referTo "#/properties/id")
      (referTo "sample#/properties/id") :=
    .object (.cons (.reference ⟨by decide, "/properties/id".toList, rfl, rfl⟩) .nil)
  have hproperties : Json.MembersQualify "sample"
      [("id", leafNode), ("next", referTo "#/properties/id"), ("far", referTo "other#")]
      [("id", leafNode), ("next", referTo "sample#/properties/id"), ("far", referTo "other#")] :=
    .cons (Json.memberQualifies_self (Json.qualifies_self _ _))
      (.cons (.below (fun _ => rfl) hnext)
        (.cons (Json.memberQualifies_self (Json.qualifies_self _ _)) .nil))
  have hdocument : Json.Qualifies "sample" (linked "#/properties/id")
      (linked "sample#/properties/id") :=
    .object (.cons (.below (fun _ => rfl) (.object hproperties)) .nil)
  exact Catalog.qualifies_of_forall₂
    (.cons ⟨rfl, hdocument⟩ (.cons ⟨rfl, Json.qualifies_self _ _⟩ .nil))

theorem noPointersBeside_linked :
    NoPointersBeside (linkedCatalog "#/properties/id") "sample" (linked "#/properties/id") := by
  intro schema node pointer reference hreached hclassify _ _ hlocal
  have hempty : ¬ (Json.obj []).WritesLocal := by
    rintro (⟨member, -⟩ | ⟨member, -, -⟩)
    · cases member
    · cases member
  rcases reached_linked hreached with ⟨-, rfl | rfl | rfl⟩ | rfl
  · cases hclassify
  · exact hempty hlocal
  · exact hempty hlocal
  · cases hclassify

end Sample

theorem sample_of_qualifies_linked :
    (Sample.linkedCatalog "#/properties/id").Qualifies
        (Sample.linkedCatalog "sample#/properties/id") ∧
      NoPointersBeside (Sample.linkedCatalog "#/properties/id") "sample"
        (Sample.linked "#/properties/id") ∧
      Run.Agree (Halt.Related AnyErrors) Eq
        ((Sample.linkedCatalog "#/properties/id").sample 5 "sample"
          (Sample.linked "#/properties/id"))
        ((Sample.linkedCatalog "sample#/properties/id").sample 5 "sample"
          (Sample.linked "sample#/properties/id")) := by
  have hlibrary : (Sample.linkedCatalog "sample#/properties/id").library =
      (Sample.linkedCatalog "#/properties/id").library := rfl
  exact ⟨Sample.qualifies_linked, Sample.noPointersBeside_linked,
    sample_of_qualifies hlibrary Sample.qualifies_linked (Sample.get?_linkedCatalog _)
      (Sample.get?_linkedCatalog _) Sample.noPointersBeside_linked 5⟩

/-! ### A local pointer beside a reference to another schema -/

namespace Sample

def lender : Json :=
  .obj [("definitions", .obj [("y", .obj [("enum", .arr [.str "B"])])])]

def borrowed (pointer : String) : Json :=
  .obj [("$ref", .str "B#"), ("properties", .obj [("x", referTo pointer)])]

/-- A document with a definition of its own that refers to a document with another one; what a pointer
beside the reference leads to is written in the first. -/
def borrower (pointer : String) : Json :=
  .obj [("definitions", .obj [("y", .obj [("enum", .arr [.str "A"])])]),
    ("properties", .obj [("v", borrowed pointer)])]

def lendingCatalog (pointer : String) : Catalog :=
  ⟨[("A", borrower pointer), ("B", lender)], library⟩

theorem qualifies_borrower :
    (lendingCatalog "#/definitions/y").Qualifies (lendingCatalog "A#/definitions/y") := by
  have hpointer : Json.Qualifies "A" (referTo "#/definitions/y") (referTo "A#/definitions/y") :=
    .object (.cons (.reference ⟨by decide, "/definitions/y".toList, rfl, rfl⟩) .nil)
  have hx : Json.Qualifies "A" (.obj [("x", referTo "#/definitions/y")])
      (.obj [("x", referTo "A#/definitions/y")]) :=
    .object (.cons (.below (fun _ => rfl) hpointer) .nil)
  have hborrowed : Json.Qualifies "A" (borrowed "#/definitions/y")
      (borrowed "A#/definitions/y") :=
    .object (.cons (Json.memberQualifies_self (Json.qualifies_self _ _))
      (.cons (.below (fun _ => rfl) hx) .nil))
  have hv : Json.Qualifies "A" (.obj [("v", borrowed "#/definitions/y")])
      (.obj [("v", borrowed "A#/definitions/y")]) :=
    .object (.cons (.below (fun _ => rfl) hborrowed) .nil)
  have hborrower : Json.Qualifies "A" (borrower "#/definitions/y")
      (borrower "A#/definitions/y") :=
    .object (.cons (Json.memberQualifies_self (Json.qualifies_self _ _))
      (.cons (.below (fun _ => rfl) hv) .nil))
  exact Catalog.qualifies_of_forall₂
    (.cons ⟨rfl, hborrower⟩ (.cons ⟨rfl, Json.qualifies_self _ _⟩ .nil))

theorem compile_referTo {schema pointer : String} {target : Reference}
    (hparse : Reference.parse pointer = .ok target) :
    Scope.compile ⟨schema, library⟩ (referTo pointer) =
      .ok (.reference (target.schemaOr schema) target (.obj [])) := by
  have hkind : classify (referTo pointer) = .ok (.reference pointer) := rfl
  rw [Scope.compile_of_classify hkind, Scope.compileKind, Scope.reference, hparse]
  rfl

theorem compile_single {scope : Scope} {node part : Json} {kind : Kind} {name : String}
    {generator : Generator} (hkind : classify node = .ok kind)
    (htype : kind.type? = some .object)
    (hpresent : node.present? .properties = some (.obj [(name, part)]))
    (hpart : scope.compile part = .ok generator) :
    scope.compile node = .ok (.object [(name, generator)]) := by
  rw [Scope.compile_of_classify hkind, Scope.compileKind_of_type? htype, Scope.compileType,
    Scope.compileObject_eq _ hpresent, Scope.compileFields, Scope.compileFields, hpart]
  rfl

theorem sample_borrower {pointer text : String} {target : Reference}
    (hparse : Reference.parse pointer = .ok target)
    (hfound : (lendingCatalog pointer).resolve (target.schemaOr "B") target =
      .ok (.obj [("enum", .arr [.str text])])) :
    ((lendingCatalog pointer).sample 7 "A" (borrower pointer) (.mixed [0] 0)).1 =
      .ok (.obj [("v", .obj [("x", .str text)])]) := by
  have henumeration (schema : String) : Scope.compile ⟨schema, library⟩
      (.obj [("enum", .arr [.str text])]) =
        .ok (.enumeration [.str text] ⟨1, Nat.one_pos⟩) :=
    Scope.compile_eq_compileKind _ _
  have hx : Generator.dereference (lendingCatalog pointer) (target.schemaOr "B") target (.obj []) =
      .ok (.enumeration [.str text] ⟨1, Nat.one_pos⟩) := by
    rw [Generator.dereference, hfound]
    exact henumeration _
  have hv : Generator.dereference (lendingCatalog pointer) "B" ⟨some "B", []⟩
      (.obj [("properties", .obj [("x", referTo pointer)])]) =
        .ok (.object [("x", .reference (target.schemaOr "B") target (.obj []))]) :=
    compile_single rfl rfl rfl (compile_referTo hparse)
  have hborrower : Scope.compile ⟨"A", library⟩ (borrower pointer) = .ok (.object [("v",
      .reference "B" ⟨some "B", []⟩
        (.obj [("properties", .obj [("x", referTo pointer)])]))]) :=
    compile_single rfl rfl rfl (Scope.compile_eq_compileKind _ _)
  have hcompile : Scope.compile ⟨"A", (lendingCatalog pointer).library⟩ (borrower pointer) = _ :=
    hborrower
  simp only [Catalog.sample, hcompile, Generation.ofExcept, pure_bind, Generator.produce,
    Generator.generate, Draft.resolve, List.mapM_cons, List.mapM_nil, hv, hx, bind_assoc]
  rfl

end Sample

/-- Qualifying a local pointer beside a reference to another schema changes the value: written in
the first document, it is read in the second. -/
theorem sample_ne_of_pointer_beside :
    (Sample.lendingCatalog "#/definitions/y").Qualifies
        (Sample.lendingCatalog "A#/definitions/y") ∧
      (Sample.lendingCatalog "#/definitions/y").get? "A" =
        some (Sample.borrower "#/definitions/y") ∧
      (Sample.lendingCatalog "A#/definitions/y").get? "A" =
        some (Sample.borrower "A#/definitions/y") ∧
      ((Sample.lendingCatalog "#/definitions/y").sample 7 "A"
          (Sample.borrower "#/definitions/y") (.mixed [0] 0)).1 =
        .ok (.obj [("v", .obj [("x", .str "B")])]) ∧
      ((Sample.lendingCatalog "A#/definitions/y").sample 7 "A"
          (Sample.borrower "A#/definitions/y") (.mixed [0] 0)).1 =
        .ok (.obj [("v", .obj [("x", .str "A")])]) :=
  ⟨Sample.qualifies_borrower, rfl, rfl, Sample.sample_borrower rfl rfl,
    Sample.sample_borrower rfl rfl⟩

end Specimen
