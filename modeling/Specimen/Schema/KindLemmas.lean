import Specimen.Outcome
import Specimen.Schema.Kind

/-!
# What a kind tells about its node

The first keyword present decides the kind of a node, and the kind holds what that keyword's value
is made of: the text of a reference, the branches of a combinator, the names of a union.
-/

namespace Specimen

namespace Json

theorem get?_of_present? {node value : Json} {keyword : Keyword}
    (h : node.present? keyword = some value) : node.get? keyword.text = some value := by
  unfold present? at h
  split at h
  · simp at h
  · exact h

theorem get?_put_self {node old : Json} {key : String} (h : node.get? key = some old)
    (value : Json) : (node.put key value).get? key = some value := by
  cases node with
  | obj members => exact Assoc.get?_put_self key value members
  | _ => cases h

theorem get?_put_of_ne {key other : String} (hne : other ≠ key) (node value : Json) :
    (node.put key value).get? other = node.get? other := by
  cases node with
  | obj members => exact Assoc.get?_put_of_ne hne value members
  | _ => rfl

theorem present?_put_self {node old value : Json} {keyword : Keyword}
    (h : node.present? keyword = some old) (hvalue : value ≠ .null) :
    (node.put keyword.text value).present? keyword = some value := by
  rw [present?, get?_put_self (get?_of_present? h)]
  cases value with
  | null => exact absurd rfl hvalue
  | _ => rfl

theorem present?_put_of_ne {key : String} {keyword : Keyword} (hne : keyword.text ≠ key)
    (node value : Json) : (node.put key value).present? keyword = node.present? keyword := by
  rw [present?, present?, get?_put_of_ne hne]

end Json

namespace TypeName

theorem ofText?_eq_some_iff {name : String} {type : TypeName} :
    ofText? name = some type ↔ name = type.text := by
  constructor
  · intro h
    have htext := List.find?_some h
    simp only [decide_eq_true_eq] at htext
    exact htext.symm
  · rintro rfl
    exact ofText?_text type

theorem read_eq_ok_iff {name : String} {type : TypeName} :
    read name = .ok type ↔ name = type.text := by
  rw [← ofText?_eq_some_iff, read]
  cases ofText? name <;> simp

theorem readEntry_eq_ok_iff {entry : Json} {type : TypeName} :
    readEntry entry = .ok type ↔ entry = .str type.text := by
  cases entry with
  | str name => simp [readEntry, read_eq_ok_iff]
  | _ => simp [readEntry]

theorem mapM_readEntry_eq_ok_iff {entries : List Json} {types : List TypeName} :
    entries.mapM readEntry = .ok types ↔ entries = types.map fun type => .str type.text := by
  induction entries generalizing types with
  | nil => cases types <;> simp [pure, Except.pure]
  | cons entry rest ih =>
    rw [List.mapM_cons]
    simp only [Outcome.bind_eq_ok, Outcome.pure_eq_ok, readEntry_eq_ok_iff, ih]
    constructor
    · rintro ⟨type, rfl, types, rfl, rfl⟩
      rfl
    · intro h
      cases types with
      | nil => simp at h
      | cons type types =>
        simp only [List.map_cons, List.cons.injEq] at h
        exact ⟨type, h.1, types, h.2, rfl⟩

end TypeName

namespace Kind

theorem branches_eq_ok {keyword : Keyword} {value : Json} {nodes : List Json}
    (h : branches keyword value = .ok nodes) : value = .arr nodes := by
  unfold branches at h
  split at h <;> simp_all

/-- The ways in which a keyword with a value declares a kind. -/
inductive Declares : Keyword → Json → Kind → Prop where
  | reference (pointer : String) : Declares .ref (.str pointer) (.reference pointer)
  | anyOf (nodes : List Json) : Declares .anyOf (.arr nodes) (.anyOf nodes)
  | allOf (nodes : List Json) : Declares .allOf (.arr nodes) (.allOf nodes)
  | oneOf (nodes : List Json) : Declares .oneOf (.arr nodes) (.oneOf nodes)
  | enumeration (values : List Json) : Declares .enum (.arr values) (.enumeration values)
  | single (type : TypeName) : Declares .type (.str type.text) (.single type)
  | singleton (type : TypeName) : Declares .type (.arr [.str type.text]) (.single type)
  | union {types : List TypeName} (several : 2 ≤ types.length) :
      Declares .type (.arr (types.map fun type => .str type.text)) (.union types)
  | format (name : String) : Declares .format (.str name) (.format name)
  | properties (value : Json) : Declares .properties value .properties
  | items (value : Json) : Declares .items value .items

theorem ofType_eq_ok {value : Json} {kind : Kind} (h : ofType value = .ok kind) :
    Declares .type value kind := by
  cases value with
  | str name =>
    obtain ⟨type, hread, rfl⟩ := Outcome.map_eq_ok.mp h
    rw [TypeName.read_eq_ok_iff] at hread
    subst hread
    exact .single type
  | arr entries =>
    cases htypes : entries.mapM TypeName.readEntry with
    | error e => simp [ofType, htypes] at h
    | ok types =>
      have hentries := TypeName.mapM_readEntry_eq_ok_iff.mp htypes
      subst hentries
      match types with
      | [] => simp [ofType, pure, Except.pure] at h
      | [type] =>
        simp only [ofType, htypes, Except.ok.injEq] at h
        subst h
        exact .singleton type
      | first :: second :: rest =>
        simp only [ofType, htypes, Except.ok.injEq] at h
        subst h
        exact .union (by simp)
  | _ => simp [ofType] at h

theorem ofKeyword_eq_ok {keyword : Keyword} {value : Json} {kind : Kind}
    (h : ofKeyword keyword value = .ok kind) : Declares keyword value kind := by
  cases keyword with
  | anyOf =>
    obtain ⟨nodes, hb, rfl⟩ := Outcome.map_eq_ok.mp h
    rw [branches_eq_ok hb]
    exact .anyOf nodes
  | allOf =>
    obtain ⟨nodes, hb, rfl⟩ := Outcome.map_eq_ok.mp h
    rw [branches_eq_ok hb]
    exact .allOf nodes
  | oneOf =>
    obtain ⟨nodes, hb, rfl⟩ := Outcome.map_eq_ok.mp h
    rw [branches_eq_ok hb]
    exact .oneOf nodes
  | type => exact ofType_eq_ok h
  | properties =>
    cases h
    exact .properties value
  | items =>
    cases h
    exact .items value
  | ref =>
    simp only [ofKeyword] at h
    split at h <;> cases h
    exact .reference _
  | enum =>
    simp only [ofKeyword] at h
    split at h <;> cases h
    exact .enumeration _
  | format =>
    simp only [ofKeyword] at h
    split at h <;> cases h
    exact .format _

/-- A keyword decides a kind when it is present and no keyword asked before it is. -/
structure DecidesAmong (keywords : List Keyword) (node : Json) (keyword : Keyword) (value : Json) :
    Prop where
  present : node.present? keyword = some value
  first : ∃ earlier later, keywords = earlier ++ keyword :: later ∧
    ∀ other ∈ earlier, node.present? other = none

theorem ofKeywords_eq_ok {node : Json} {kind : Kind} {keywords : List Keyword}
    (h : ofKeywords node keywords = .ok kind) :
    (kind = .empty ∧ ∀ keyword ∈ keywords, node.present? keyword = none) ∨
      ∃ keyword value, DecidesAmong keywords node keyword value ∧
        ofKeyword keyword value = .ok kind := by
  induction keywords with
  | nil =>
    simp only [ofKeywords, Except.ok.injEq] at h
    exact .inl ⟨h.symm, by simp⟩
  | cons keyword rest ih =>
    cases hp : node.present? keyword with
    | none =>
      simp only [ofKeywords, hp] at h
      rcases ih h with ⟨hempty, habsent⟩ |
          ⟨found, value, ⟨hpresent, earlier, later, hrest, hearlier⟩, hof⟩
      · exact .inl ⟨hempty, by simpa [hp] using habsent⟩
      · refine .inr ⟨found, value, ⟨hpresent, keyword :: earlier, later, by simp [hrest], ?_⟩, hof⟩
        simpa [hp] using hearlier
    | some value =>
      simp only [ofKeywords, hp] at h
      exact .inr ⟨keyword, value, ⟨hp, [], rest, rfl, by simp⟩, h⟩

end Kind

/-- The keyword that decides what a node is: it is present, and none is that is asked before it. -/
abbrev Decides (node : Json) (keyword : Keyword) (value : Json) : Prop :=
  Kind.DecidesAmong Keyword.precedence node keyword value

/-- What a kind says about the keyword that decides its node. -/
def Kind.Describes (node : Json) : Kind → Prop
  | .reference pointer => Decides node .ref (.str pointer)
  | .anyOf nodes => Decides node .anyOf (.arr nodes)
  | .allOf nodes => Decides node .allOf (.arr nodes)
  | .oneOf nodes => Decides node .oneOf (.arr nodes)
  | .enumeration values => Decides node .enum (.arr values)
  | .single type =>
    Decides node .type (.str type.text) ∨ Decides node .type (.arr [.str type.text])
  | .union types =>
    2 ≤ types.length ∧ Decides node .type (.arr (types.map fun type => .str type.text))
  | .format name => Decides node .format (.str name)
  | .properties => ∃ value, Decides node .properties value
  | .items => ∃ value, Decides node .items value
  | .empty => ∀ keyword ∈ Keyword.precedence, node.present? keyword = none

theorem describes_of_classify {node : Json} {kind : Kind} (h : classify node = .ok kind) :
    kind.Describes node := by
  rcases Kind.ofKeywords_eq_ok h with ⟨rfl, habsent⟩ | ⟨keyword, value, hdecides, hof⟩
  · exact habsent
  · cases Kind.ofKeyword_eq_ok hof with
    | reference | anyOf | allOf | oneOf | enumeration | format => exact hdecides
    | single => exact .inl hdecides
    | singleton => exact .inr hdecides
    | union several => exact ⟨several, hdecides⟩
    | properties | items => exact ⟨value, hdecides⟩

theorem Kind.ofKeywords_append {node value : Json} {earlier later : List Keyword}
    {keyword : Keyword} (habsent : ∀ other ∈ earlier, node.present? other = none)
    (hpresent : node.present? keyword = some value) :
    ofKeywords node (earlier ++ keyword :: later) = ofKeyword keyword value := by
  induction earlier with
  | nil => rw [List.nil_append, ofKeywords, hpresent]
  | cons other rest ih =>
      rw [List.cons_append, ofKeywords, habsent other List.mem_cons_self]
      exact ih fun asked hasked => habsent asked (List.mem_cons_of_mem _ hasked)

theorem classify_of_decides {node value : Json} {keyword : Keyword}
    (h : Decides node keyword value) : classify node = Kind.ofKeyword keyword value := by
  obtain ⟨earlier, later, hkeywords, habsent⟩ := h.first
  rw [classify, hkeywords]
  exact Kind.ofKeywords_append habsent h.present

theorem decides_put {node old value : Json} {keyword : Keyword} (h : Decides node keyword old)
    (hvalue : value ≠ .null) : Decides (node.put keyword.text value) keyword value := by
  obtain ⟨earlier, later, hkeywords, habsent⟩ := h.first
  refine ⟨Json.present?_put_self h.present hvalue, earlier, later, hkeywords, ?_⟩
  intro other hother
  by_cases hsame : other = keyword
  · rw [hsame] at hother
    exact nomatch (habsent keyword hother).symm.trans h.present
  · rw [Json.present?_put_of_ne (Keyword.text_ne hsame)]
    exact habsent other hother

theorem classify_of_ref {node : Json} {pointer : String}
    (h : node.present? .ref = some (.str pointer)) :
    classify node = .ok (.reference pointer) :=
  classify_of_decides ⟨h, [], _, rfl, fun _ hother => nomatch hother⟩

/-- The list behind a combinator or a union of types is a member of the node. -/
theorem Kind.get?_of_classify {node : Json} {kind : Kind} (h : classify node = .ok kind) :
    match kind with
    | .anyOf nodes => node.get? Keyword.anyOf.text = some (.arr nodes)
    | .allOf nodes => node.get? Keyword.allOf.text = some (.arr nodes)
    | .oneOf nodes => node.get? Keyword.oneOf.text = some (.arr nodes)
    | .union _ => ∃ entry entries, node.get? Keyword.type.text = some (.arr (entry :: entries))
    | _ => True := by
  have hdescribes := describes_of_classify h
  cases kind with
  | anyOf | allOf | oneOf => exact Json.get?_of_present? hdescribes.present
  | union types =>
    obtain ⟨several, hdecides⟩ := hdescribes
    match types, several with
    | first :: rest, _ => exact ⟨_, _, Json.get?_of_present? hdecides.present⟩
  | _ => trivial

end Specimen
