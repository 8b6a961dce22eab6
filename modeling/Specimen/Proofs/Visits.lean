import Specimen.Proofs.Generating
import Specimen.Proofs.Positions

/-!
# Visits

What an override gives at the positions of its path, and how the overrides change from one position
to the next. A path that has an override keeps having one, so the paths that are covered are the
same at every position of a run.
-/

namespace Specimen

section Shown

variable (covered : Path → Bool)

mutual

/-- What a value that is not an object shows is itself; an object shows its keys in order, and every
member whose path is not covered shows its own value. -/
inductive Shows : Path → Json → Json → Prop where
  | plain {path : Path} {value : Json} (notObject : ∀ members, value ≠ .obj members) :
      Shows path value value
  | object {path : Path} {members shown : List (String × Json)}
      (each : ShowsMembers path members shown) : Shows path (.obj members) (.obj shown)

/-- A member whose path is covered may be any value here; the override of that path says which. -/
inductive ShowsMembers : Path → List (String × Json) → List (String × Json) → Prop where
  | nil {path : Path} : ShowsMembers path [] []
  | replaced {path : Path} {name : String} {value other : Json}
      {members shown : List (String × Json)} (covers : covered (path ++ [name]) = true)
      (rest : ShowsMembers path members shown) :
      ShowsMembers path ((name, value) :: members) ((name, other) :: shown)
  | kept {path : Path} {name : String} {value same : Json} {members shown : List (String × Json)}
      (first : Shows (path ++ [name]) value same) (rest : ShowsMembers path members shown) :
      ShowsMembers path ((name, value) :: members) ((name, same) :: shown)

end

variable (catalog : Catalog)

mutual

/-- A value is one of a draft wherever its path is not covered. -/
inductive FromDraft : Path → Draft → Json → Prop where
  | value {path : Path} {value shown : Json} (shows : Shows covered path value shown) :
      FromDraft path (.value value) shown
  | fields {path : Path} {fields : List (String × Generator)} {members : List (String × Json)}
      (each : FromFields path fields members) : FromDraft path (.fields fields) (.obj members)
  | items {path : Path} {drafts : List Draft} {value : Json} {depth : Nat}
      (resolves : (Draft.items drafts).Resolves catalog depth value) :
      FromDraft path (.items drafts) value

inductive FromFields : Path → List (String × Generator) → List (String × Json) → Prop where
  | nil {path : Path} : FromFields path [] []
  | replaced {path : Path} {name : String} {generator : Generator} {other : Json}
      {fields : List (String × Generator)} {members : List (String × Json)}
      (covers : covered (path ++ [name]) = true) (rest : FromFields path fields members) :
      FromFields path ((name, generator) :: fields) ((name, other) :: members)
  | generated {path : Path} {name : String} {generator : Generator} {draft : Draft} {value : Json}
      {depth : Nat} {fields : List (String × Generator)} {members : List (String × Json)}
      (drafts : generator.Drafts catalog depth draft)
      (first : FromDraft (path ++ [name]) draft value) (rest : FromFields path fields members) :
      FromFields path ((name, generator) :: fields) ((name, value) :: members)

end

end Shown

mutual

/-- What shows a value that has no covered path below it is the value. -/
theorem Shows.eq_of_free {covered : Path → Bool} {path : Path} {value shown : Json}
    (h : Shows covered path value shown)
    (hfree : ∀ below, below ≠ [] → covered (path ++ below) = false) : shown = value := by
  match value, shown, h with
  | _, _, .plain _ => rfl
  | .obj members, .obj _, .object each => exact congrArg Json.obj (each.eq_of_free hfree)
termination_by sizeOf value

theorem ShowsMembers.eq_of_free {covered : Path → Bool} {path : Path}
    {members shown : List (String × Json)} (h : ShowsMembers covered path members shown)
    (hfree : ∀ below, below ≠ [] → covered (path ++ below) = false) : shown = members := by
  match members, shown, h with
  | _, _, .nil => rfl
  | (name, value) :: members, _, .replaced covers rest =>
      rw [hfree [name] (by simp)] at covers
      cases covers
  | (name, value) :: members, _, .kept first rest =>
      have hbelow : ∀ below, below ≠ [] → covered (path ++ [name] ++ below) = false := by
        intro below _
        rw [List.append_assoc]
        exact hfree _ (by simp)
      rw [first.eq_of_free hbelow, rest.eq_of_free hfree]
termination_by sizeOf members

end

def Relation.value (relation : Relation) (stores : Stores) : Json :=
  (stores relation.fixture).entry (relation.pick stores).1

namespace Override

/-- An override after a number of further calls. -/
def after (setting : Setting) (count : Nat) : Override → Override
  | .function answers calls => .function answers (calls + count)
  | .relation r => .relation (r.picks setting.stores count).2
  | entry => entry

/-- The draft that the next call of an override yields. -/
def Yields (setting : Setting) (entry : Override) (draft : Draft) : Prop :=
  match entry with
  | .value v => draft = .value v
  | .function answers calls => draft = .value (answers calls)
  | .relation r => draft = .value (r.value setting.stores)
  | .generator g => ∃ depth, g.Drafts setting.catalog depth draft

/-- What an override supplies for the position of its path that has `count` positions of the same
path before it. A function answers its next call, a relation gives its next pick. -/
def Supplies (setting : Setting) (covered : Path → Bool) (path : Path) (count : Nat)
    (entry : Override) (shown : Json) : Prop :=
  match entry with
  | .value v => Shows covered path v shown
  | .function answers calls => Shows covered path (answers (calls + count)) shown
  | .relation r =>
    Shows covered path ((r.picks setting.stores count).2.value setting.stores) shown
  | .generator g => ∃ depth draft, g.Drafts setting.catalog depth draft ∧
    FromDraft covered setting.catalog path draft shown

end Override

def occurrences (path : Path) (visits : List (Path × Json)) : Nat :=
  (visits.map Prod.fst).count path

/-- What the overrides have to do with the positions of a run, in the order of the visits: every
position of a path with an override shows what the override supplies for it, and each override has
been called once for every position of its path. -/
structure Precedence (setting : Setting) (overrides : Overrides) (visits : List (Path × Json))
    (left : Overrides) : Prop where
  supplied : ∀ {before later : List (Path × Json)} {path : Path} {shown : Json} {entry : Override},
    visits = before ++ (path, shown) :: later → overrides.get? path = some entry →
      entry.Supplies setting overrides.contains path (occurrences path before) shown
  called : ∀ path, left.get? path =
    (overrides.get? path).map (Override.after setting (occurrences path visits))

namespace Overrides

variable {overrides : Overrides} {path other : Path} {entry old : Override}

theorem get?_set_self : (overrides.set path entry).get? path = some entry :=
  Assoc.get?_put_self path entry overrides.entries

theorem get?_set_of_ne (hne : other ≠ path) :
    (overrides.set path entry).get? other = overrides.get? other :=
  Assoc.get?_put_of_ne hne entry overrides.entries

theorem set_eq_self (h : overrides.get? path = some entry) : overrides.set path entry = overrides :=
  congrArg Overrides.mk (Assoc.put_eq_self h)

theorem contains_of_get? (h : overrides.get? path = some entry) :
    overrides.contains path = true := by
  rw [contains, h]
  rfl

theorem contains_iff : overrides.contains path = true ↔ ∃ entry, overrides.get? path = some entry :=
  Option.isSome_iff_exists

theorem contains_set (h : overrides.get? path = some old) :
    (overrides.set path entry).contains = overrides.contains := by
  funext other
  by_cases heq : other = path
  · rw [heq, contains, contains, get?_set_self, h]
    rfl
  · rw [contains, contains, get?_set_of_ne heq]

end Overrides

namespace Override

variable {setting : Setting} {covered : Path → Bool} {path : Path} {count : Nat} {entry : Override}
  {shown : Json}

theorem after_zero : entry.after setting 0 = entry := by
  cases entry <;> rfl

theorem after_after_one :
    (entry.after setting 1).after setting count = entry.after setting (count + 1) := by
  cases entry with
  | function answers calls => simp only [after, Nat.add_assoc, Nat.add_comm 1 count]
  | generator | relation | value => rfl

theorem supplies_after_one :
    (entry.after setting 1).Supplies setting covered path count shown ↔
      entry.Supplies setting covered path (count + 1) shown := by
  cases entry with
  | function answers calls => simp only [after, Supplies, Nat.add_assoc, Nat.add_comm 1 count]
  | generator | relation | value => exact Iff.rfl

theorem supplies_of_yields {draft : Draft} (hyields : entry.Yields setting draft)
    (hfrom : FromDraft covered setting.catalog path draft shown) :
    entry.Supplies setting covered path 0 shown := by
  cases entry with
  | generator g =>
      obtain ⟨depth, hdrafts⟩ := hyields
      exact ⟨depth, draft, hdrafts, hfrom⟩
  | function | relation | value =>
      subst hyields
      cases hfrom with
      | value hshows => exact hshows

end Override

theorem occurrences_cons_self (path : Path) (shown : Json) (visits : List (Path × Json)) :
    occurrences path ((path, shown) :: visits) = occurrences path visits + 1 := by
  simp [occurrences]

theorem occurrences_cons_of_ne {path other : Path} (hne : other ≠ path) (shown : Json)
    (visits : List (Path × Json)) :
    occurrences path ((other, shown) :: visits) = occurrences path visits := by
  simp [occurrences, hne]

/-- How the overrides change while positions are visited in order. An override is called at every
position of its path and at no other. -/
inductive Visits (setting : Setting) (covered : Path → Bool) :
    Overrides → List (Path × Json) → Overrides → Prop where
  | nil {overrides : Overrides} : Visits setting covered overrides [] overrides
  | free {overrides left : Overrides} {path : Path} {shown : Json} {visits : List (Path × Json)}
      (absent : overrides.get? path = none) (rest : Visits setting covered overrides visits left) :
      Visits setting covered overrides ((path, shown) :: visits) left
  | taken {overrides left : Overrides} {path : Path} {shown : Json} {visits : List (Path × Json)}
      {entry : Override} (present : overrides.get? path = some entry)
      (supplies : entry.Supplies setting covered path 0 shown)
      (rest : Visits setting covered (overrides.set path (entry.after setting 1)) visits left) :
      Visits setting covered overrides ((path, shown) :: visits) left

namespace Visits

variable {setting : Setting} {covered : Path → Bool} {overrides between left : Overrides}
  {visits others : List (Path × Json)}

theorem append (hfirst : Visits setting covered overrides visits between)
    (hrest : Visits setting covered between others left) :
    Visits setting covered overrides (visits ++ others) left := by
  induction hfirst with
  | nil => exact hrest
  | free habsent _ ih => exact .free habsent (ih hrest)
  | taken hpresent hsupplies _ ih => exact .taken hpresent hsupplies (ih hrest)

theorem contains_eq (h : Visits setting covered overrides visits left) :
    left.contains = overrides.contains := by
  induction h with
  | nil => rfl
  | free _ _ ih => exact ih
  | taken hpresent _ _ ih => rw [ih, Overrides.contains_set hpresent]

theorem get?_eq (h : Visits setting covered overrides visits left) (path : Path) :
    left.get? path =
      (overrides.get? path).map (Override.after setting (occurrences path visits)) := by
  induction h with
  | @nil overrides =>
      cases overrides.get? path with
      | none => rfl
      | some entry => exact congrArg some Override.after_zero.symm
  | @free overrides left other shown visits habsent _ ih =>
      rw [ih]
      by_cases heq : other = path
      · rw [← heq, habsent]
        rfl
      · rw [occurrences_cons_of_ne heq]
  | @taken overrides left other shown visits entry hpresent _ _ ih =>
      rw [ih]
      by_cases heq : other = path
      · rw [← heq, Overrides.get?_set_self, hpresent, occurrences_cons_self]
        exact congrArg some Override.after_after_one
      · rw [Overrides.get?_set_of_ne (Ne.symm heq), occurrences_cons_of_ne heq]

theorem supplied (h : Visits setting covered overrides visits left)
    {before later : List (Path × Json)} {path : Path} {shown : Json} {entry : Override}
    (hvisits : visits = before ++ (path, shown) :: later)
    (hentry : overrides.get? path = some entry) :
    entry.Supplies setting covered path (occurrences path before) shown := by
  induction h generalizing before entry with
  | nil => simp at hvisits
  | @free overrides left other value visits habsent _ ih =>
      have hne : path ≠ other := by
        rintro rfl
        rw [habsent] at hentry
        cases hentry
      cases before with
      | nil =>
          cases hvisits
          exact absurd rfl hne
      | cons first before =>
          obtain ⟨rfl, hrest⟩ := List.cons.inj hvisits
          rw [occurrences_cons_of_ne hne.symm]
          exact ih hrest hentry
  | @taken overrides left other value visits found hpresent hsupplies _ ih =>
      cases before with
      | nil =>
          cases hvisits
          rw [hpresent, Option.some.injEq] at hentry
          exact hentry ▸ hsupplies
      | cons first before =>
          obtain ⟨rfl, hrest⟩ := List.cons.inj hvisits
          by_cases heq : other = path
          · subst heq
            rw [hpresent, Option.some.injEq] at hentry
            rw [occurrences_cons_self, ← Override.supplies_after_one, ← hentry]
            exact ih hrest Overrides.get?_set_self
          · rw [occurrences_cons_of_ne heq]
            exact ih hrest ((Overrides.get?_set_of_ne (Ne.symm heq)).trans hentry)

theorem precedence (h : Visits setting overrides.contains overrides visits left) :
    Precedence setting overrides visits left :=
  ⟨h.supplied, h.get?_eq⟩

end Visits

end Specimen
