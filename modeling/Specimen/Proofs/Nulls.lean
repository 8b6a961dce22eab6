import Specimen.Json.WellFormed
import Specimen.Proofs.ReadingKinds

/-!
# Members that are null

A member that is null counts as absent, so leaving it out changes nothing by itself. But laying one
schema over another replaces whatever is there and knows no absence: a null laid over a value erases
it, and the same schema without the null keeps it. Where that does not happen, schemas with and
without null members cannot be told apart.
-/

namespace Specimen

/-! ### Leaving null members out -/

namespace Json

/-- Some members that are null are left out, and the others have related values. -/
inductive MembersKept (R : String → Json → Json → Prop) :
    List (String × Json) → List (String × Json) → Prop where
  | nil : MembersKept R [] []
  | removed {key : String} {members others : List (String × Json)}
      (rest : MembersKept R members others) : MembersKept R ((key, .null) :: members) others
  | kept {key : String} {value other : Json} {members others : List (String × Json)}
      (first : R key value other) (rest : MembersKept R members others) :
      MembersKept R ((key, value) :: members) ((key, other) :: others)

/-- The second value is the first without some null members, its own or those of schemas that stand
in it: branches of combinators, properties, and what is under `items`. -/
inductive NullsRemoved : Json → Json → Prop where
  | same (node : Json) : NullsRemoved node node
  | object {members others : List (String × Json)}
      (each : MembersKept (MemberAlike NullsRemoved) members others) :
      NullsRemoved (.obj members) (.obj others)

section Kept

variable {R : String → Json → Json → Prop} {members others : List (String × Json)}

theorem MembersKept.keys_sublist (h : MembersKept R members others) :
    (Assoc.keys others).Sublist (Assoc.keys members) := by
  induction h with
  | nil => exact .slnil
  | removed _ ih => exact ih.cons _
  | kept _ _ ih => exact ih.cons_cons _

theorem MembersKept.nulls (h : MembersKept R members others)
    (hnull : ∀ key value other, R key value other → (value = .null ↔ other = .null)) {key : String}
    (hget : Assoc.get? key others = some .null) : Assoc.get? key members = some .null := by
  induction h with
  | nil => cases hget
  | @removed name _ _ _ ih =>
      rw [Assoc.get?]
      by_cases hname : name = key
      · rw [if_pos hname]
      · rw [if_neg hname]
        exact ih hget
  | @kept name value other _ _ first _ ih =>
      rw [Assoc.get?] at hget ⊢
      by_cases hname : name = key
      · rw [if_pos hname] at hget ⊢
        rw [(hnull name value other first).mpr (Option.some.inj hget)]
      · rw [if_neg hname] at hget ⊢
        exact ih hget

theorem MembersKept.rel_nonNull (h : MembersKept R members others)
    (hnull : ∀ key value other, R key value other → (value = .null ↔ other = .null))
    (hdistinct : (Assoc.keys members).Nodup) (key : String) :
    Option.Rel (R key) (nonNull (Assoc.get? key members)) (nonNull (Assoc.get? key others)) := by
  induction h with
  | nil => exact .none
  | @removed name members others rest ih =>
      simp only [Assoc.keys, List.map_cons, List.nodup_cons] at hdistinct
      rw [Assoc.get?]
      by_cases hname : name = key
      · have hfresh : Assoc.get? key others = none := by
          rw [Assoc.get?_eq_none_iff, ← hname]
          exact fun hmem => hdistinct.1 (rest.keys_sublist.mem hmem)
        rw [if_pos hname, hfresh]
        exact .none
      · rw [if_neg hname]
        exact ih hdistinct.2
  | @kept name value other _ _ first _ ih =>
      simp only [Assoc.keys, List.map_cons, List.nodup_cons] at hdistinct
      rw [Assoc.get?, Assoc.get?]
      by_cases hname : name = key
      · rw [if_pos hname, if_pos hname, ← hname]
        have hboth := hnull name value other first
        by_cases hvalue : value = .null
        · rw [hboth.mp hvalue, hvalue]
          exact .none
        · rw [nonNull_some hvalue, nonNull_some fun hother => hvalue (hboth.mpr hother)]
          exact .some first
      · rw [if_neg hname, if_neg hname]
        exact ih hdistinct.2

end Kept

section Members

variable {N M : Json → Json → Prop} {key : String} {value other : Json}

theorem MemberAlike.null_iff (h : MemberAlike N key value other)
    (hN : ∀ node node', N node node' → (node = .null ↔ node' = .null)) :
    value = .null ↔ other = .null := by
  cases h with
  | other => exact Iff.rfl
  | branches _ alike =>
      cases alike with
      | each => simp
      | same => exact Iff.rfl
  | properties alike =>
      cases alike with
      | each => simp
      | same => exact Iff.rfl
  | items alike =>
      cases alike with
      | places => simp
      | element _ _ related => exact hN _ _ related

/-- Values stay alike if the schemas in them, which inherit some property of the value, are related in
another way. -/
theorem MemberAlike.imp_of_inherited {Q : Json → Prop} (h : MemberAlike N key value other)
    (hvalue : Q value) (hitems : ∀ items, value = .arr items → ∀ item ∈ items, Q item)
    (hmembers : ∀ members, value = .obj members → ∀ member ∈ members, Q member.2)
    (himp : ∀ node node', Q node → N node node' → M node node') : MemberAlike M key value other := by
  cases h with
  | other plain => exact .other plain
  | branches combinator alike =>
      refine .branches combinator ?_
      cases alike with
      | same plain => exact .same plain
      | each each =>
          exact .each (forall₂_imp_of_mem each fun branch hbranch branch' _ =>
            himp _ _ (hitems _ rfl branch hbranch))
  | properties alike =>
      refine .properties ?_
      cases alike with
      | same notObject => exact .same notObject
      | each distinct each =>
          refine .each distinct (forall₂_imp_of_mem each ?_)
          rintro _ hproperty _ - ⟨related⟩
          exact .related (himp _ _ (hmembers _ rfl _ hproperty) related)
  | items alike =>
      refine .items ?_
      cases alike with
      | element plain plain' related => exact .element plain plain' (himp _ _ hvalue related)
      | places each =>
          exact .places (forall₂_imp_of_mem each fun place hplace place' _ =>
            himp _ _ (hitems _ rfl place hplace))

/-- Values stay alike if the schemas in them, none larger than the value, are related in another
way. -/
theorem MemberAlike.imp_of_size_le (h : MemberAlike N key value other)
    (himp : ∀ node node', node.size ≤ value.size → N node node' → M node node') :
    MemberAlike M key value other := by
  apply h.imp_of_inherited (Nat.le_refl _) _ _ himp
  · rintro _ rfl item hitem
    exact Nat.le_of_lt (size_lt_of_mem_arr hitem)
  · rintro _ rfl member hmember
    exact Nat.le_of_lt (size_lt_of_mem_obj hmember)

/-- Well-formed values stay alike if the schemas in them, none larger than the value, are related in
another way. -/
theorem MemberAlike.imp_of_size (h : MemberAlike N key value other) (hvalue : value.WellFormed)
    (himp : ∀ node node', node.size ≤ value.size → node.WellFormed → N node node' → M node node') :
    MemberAlike M key value other := by
  apply h.imp_of_inherited (Q := fun node => node.size ≤ value.size ∧ node.WellFormed)
    ⟨Nat.le_refl _, hvalue⟩ _ _ fun node node' hnode => himp node node' hnode.1 hnode.2
  · rintro _ rfl item hitem
    exact ⟨Nat.le_of_lt (size_lt_of_mem_arr hitem), wellFormed_arr_iff.mp hvalue item hitem⟩
  · rintro _ rfl member hmember
    exact ⟨Nat.le_of_lt (size_lt_of_mem_obj hmember), (wellFormed_obj_iff.mp hvalue).2 _ hmember⟩

theorem memberAlike_eq (key : String) (hvalue : value.WellFormed) :
    MemberAlike Eq key value value := by
  by_cases hproperties : key = Keyword.properties.text
  · rw [hproperties]
    cases value with
    | obj properties =>
        exact .properties (.each (wellFormed_obj_iff.mp hvalue).1
          (List.forall₂_same.mpr fun _ _ => .related rfl))
    | null | bool | int | float | str | arr => exact .properties (.same (by simp))
  by_cases hitems : key = Keyword.items.text
  · rw [hitems]
    exact .items (itemsAlike_self (fun _ => rfl) value)
  by_cases hcombinator : ∃ keyword ∈ [Keyword.anyOf, .allOf, .oneOf], key = keyword.text
  · obtain ⟨keyword, hkeyword, rfl⟩ := hcombinator
    cases value with
    | arr branches => exact .branches hkeyword (.each (List.forall₂_same.mpr fun _ _ => rfl))
    | null | bool | int | float | str | obj => exact .branches hkeyword (.same rfl)
  · apply MemberAlike.other
    simp only [List.mem_cons, List.not_mem_nil, or_false, not_or]
    exact ⟨fun h => hcombinator ⟨.anyOf, by simp, h⟩, fun h => hcombinator ⟨.allOf, by simp, h⟩,
      fun h => hcombinator ⟨.oneOf, by simp, h⟩, hproperties, hitems⟩

end Members

theorem readAlike_self {node : Json} (h : node.WellFormed) : ReadAlike node node := by
  induction hsize : node.size using Nat.strongRecOn generalizing node with
  | ind size ih =>
      subst hsize
      cases node with
      | null | bool | int | float | str | arr => exact .plain (by simp)
      | obj members =>
          obtain ⟨hdistinct, hmembers⟩ := wellFormed_obj_iff.mp h
          refine .object hdistinct hdistinct (fun _ _ hnull => hnull) fun key _ => ?_
          rw [foundAlike_iff]
          cases hfound : (Json.obj members).value? key with
          | none => exact .none
          | some value =>
              obtain ⟨hget, -⟩ := nonNull_eq_some hfound
              have hmember := Assoc.mem_of_get? hget
              have hvalue := hmembers _ hmember
              refine .some ((memberAlike_eq key hvalue).imp_of_size hvalue ?_)
              rintro part _ hle hpart rfl
              exact ih part.size (Nat.lt_of_le_of_lt hle (size_lt_of_mem_obj hmember)) hpart rfl

theorem NullsRemoved.null_iff {node other : Json} (h : NullsRemoved node other) :
    node = .null ↔ other = .null := by
  cases h with
  | same => exact Iff.rfl
  | object => simp

/-- A schema and the same without some null members are read alike. -/
theorem NullsRemoved.readAlike {node other : Json} (h : NullsRemoved node other)
    (hnode : node.WellFormed) : ReadAlike node other := by
  induction hsize : node.size using Nat.strongRecOn generalizing node other with
  | ind size ih =>
      subst hsize
      cases h with
      | same => exact readAlike_self hnode
      | @object members others each =>
          obtain ⟨hdistinct, hmembers⟩ := wellFormed_obj_iff.mp hnode
          have hnull : ∀ key value other, MemberAlike NullsRemoved key value other →
              (value = .null ↔ other = .null) :=
            fun key value other h => h.null_iff fun _ _ hremoved => hremoved.null_iff
          refine .object hdistinct (hdistinct.sublist each.keys_sublist)
            (fun key _ hget => each.nulls hnull hget) fun key _ => ?_
          rw [foundAlike_iff]
          have hfound := each.rel_nonNull hnull hdistinct key
          rcases rel_cases hfound with ⟨hnone, hnone'⟩ | ⟨value, value', hvalue, hvalue', hrelated⟩
          · rw [value?, value?, Json.get?, Json.get?, hnone, hnone']
            exact .none
          · rw [value?, value?, Json.get?, Json.get?, hvalue, hvalue']
            have hmember := Assoc.mem_of_get? (nonNull_eq_some hvalue).1
            have hwhole := hmembers _ hmember
            refine .some (hrelated.imp_of_size hwhole ?_)
            intro part part' hle hpart hremoved
            exact ih part.size (Nat.lt_of_le_of_lt hle (size_lt_of_mem_obj hmember)) hremoved hpart rfl

end Json

/-! ### Two schemas in one catalog -/

theorem Reference.child?_cases {node child : Json} {segment : String}
    (h : child? node segment = some child) :
    node.get? segment = some child ∨ ∃ items, node = .arr items ∧ child ∈ items := by
  cases node with
  | obj members => exact .inl h
  | arr items =>
      rw [child?] at h
      obtain ⟨place, -, hget⟩ := Option.bind_eq_some_iff.mp h
      exact .inr ⟨items, rfl, List.mem_of_getElem? hget⟩
  | null | bool | int | float | str => cases h

/-- What holds of a document and passes on to children holds of what a path in it leads to. -/
theorem Reference.of_follow {P : Json → Prop} {segments : List String} {node found : Json}
    (hchild : ∀ node segment child, P node → child? node segment = some child → P child)
    (hnode : P node) (h : follow node segments = .ok found) : P found := by
  induction segments generalizing node with
  | nil =>
      cases h
      exact hnode
  | cons segment rest ih =>
      rw [follow] at h
      cases hnext : child? node segment with
      | none =>
          rw [hnext] at h
          cases h
      | some child =>
          rw [hnext] at h
          exact ih (hchild node segment child hnode hnext) h

theorem Catalog.of_resolve {catalog : Catalog} {P : Json → Prop} {name : String}
    {reference : Reference} {found : Json}
    (hdocument : ∀ name document, catalog.get? name = some document → P document)
    (hchild : ∀ node segment child, P node → Reference.child? node segment = some child → P child)
    (hfound : catalog.resolve name reference = .ok found) : P found := by
  rw [Catalog.resolve, require] at hfound
  cases hget : catalog.get? name with
  | none =>
      rw [hget] at hfound
      cases hfound
  | some document =>
      rw [hget] at hfound
      dsimp only at hfound
      rw [Reference.lookup] at hfound
      cases hfollow : Reference.follow document reference.segments with
      | error segment =>
          rw [hfollow] at hfound
          cases hfound
      | ok node =>
          rw [hfollow] at hfound
          cases hfound
          exact Reference.of_follow hchild (hdocument name document hget) hfollow

/-- All schemas of a catalog are well formed. -/
def Catalog.WellFormed (catalog : Catalog) : Prop :=
  ∀ name document, catalog.get? name = some document → document.WellFormed

theorem Json.WellFormed.child {node child : Json} {segment : String} (h : node.WellFormed)
    (hchild : Reference.child? node segment = some child) : child.WellFormed := by
  rcases Reference.child?_cases hchild with hget | ⟨items, rfl, hitem⟩
  · exact h.get? hget
  · exact Json.wellFormed_arr_iff.mp h child hitem

theorem Catalog.WellFormed.resolve {catalog : Catalog} (h : catalog.WellFormed) {name : String}
    {reference : Reference} {found : Json} (hfound : catalog.resolve name reference = .ok found) :
    found.WellFormed :=
  of_resolve h (fun _ _ _ hnode => hnode.child) hfound

section Sampling

variable {catalog : Catalog} {start : String} {root root' : Json}

/-- Two nodes that are read alike and compiled side by side in one schema. -/
def AlikeTogether (catalog : Catalog) (start : String) (root root' : Json) (schema : String)
    (node : Json) (schema' : String) (node' : Json) : Prop :=
  schema = schema' ∧ node.ReadAlike node' ∧ ReachedTogether catalog start root root' schema node node'

theorem lockstep_alikeTogether (hcatalog : catalog.WellFormed)
    (hkept : ∀ current node node', ReachedTogether catalog start root root' current node node' →
      NothingErased catalog current node node') :
    Lockstep catalog catalog AnyErrors (AlikeTogether catalog start root root') :=
  congruence_readAlike.lockstep
    (fun _ _ _ hfound => Json.readAlike_self (hcatalog.resolve hfound)) hkept

/-- Leaving null members out of a schema changes neither whether it compiles nor what its values are,
as long as no null that is left out erases a member it is laid over. -/
theorem produce_of_nullsRemoved (hcatalog : catalog.WellFormed) (hroot : root.WellFormed)
    (hremoved : root.NullsRemoved root')
    (hkept : ∀ current node node', ReachedTogether catalog start root root' current node node' →
      NothingErased catalog current node node') :
    Outcome.Related AnyErrors
      (fun g g' => ∀ depth, Run.Agree (Halt.Related AnyErrors) Eq (g.produce catalog depth)
        (g'.produce catalog depth))
      (Scope.compile ⟨start, catalog.library⟩ root)
      (Scope.compile ⟨start, catalog.library⟩ root') := by
  have hlock : Lockstep catalog catalog AnyErrors (AlikeTogether catalog start root root') :=
    lockstep_alikeTogether hcatalog hkept
  have hrefl : ∀ e, AnyErrors e e := fun _ => trivial
  have hstart : AlikeTogether catalog start root root' start root start root' :=
    ⟨rfl, hremoved.readAlike hroot, .root⟩
  refine (hlock.compile hrefl catalog.library hstart).imp (fun _ _ he => he) ?_
  intro g g' hlocked depth
  exact Run.agree_bind (hlock.generate hrefl rfl depth g g' hlocked) (hlock.resolve hrefl rfl depth)

end Sampling

namespace Sample

/-- A reference with a null beside it that stands over nothing in its target. -/
def idleNull : Json :=
  .obj [("$ref", .str "other#"), ("enum", .null)]

/-- A type with a null laid over it by the only branch. -/
def erasingNull : Json :=
  .obj [("type", .str "null"), ("allOf", .arr [.obj [("type", .null)]])]

def erasingNullRemoved : Json :=
  .obj [("type", .str "null"), ("allOf", .arr [.obj []])]

def leafCatalog : Catalog :=
  ⟨[("other", leafNode)], library⟩

theorem wellFormed_leafCatalog : leafCatalog.WellFormed := by
  intro name document hget
  obtain ⟨rfl, rfl⟩ := Prod.mk.inj (List.mem_singleton.mp (Assoc.mem_of_get? hget))
  simp [leafNode, Json.WellFormed, Json.WellFormedMembers, Assoc.keys]

theorem nullsRemoved_idleNull : idleNull.NullsRemoved (referTo "other#") :=
  .object (.kept (.other (by decide)) (.removed .nil))

theorem nullsRemoved_erasingNull : erasingNull.NullsRemoved erasingNullRemoved := by
  have hbranch : Json.NullsRemoved (.obj [("type", .null)]) (.obj []) := .object (.removed .nil)
  exact .object (.kept (.other (by decide)) (.kept
    (.branches (show Keyword.allOf ∈ _ by simp) (.each (.cons hbranch .nil))) .nil))

/-- The target with the null beside the reference laid over it. -/
def idleTarget : Json :=
  .obj [("type", .str "null"), ("enum", .null)]

theorem reached_idleNull {current : String} {node node' : Json}
    (h : ReachedTogether leafCatalog "sample" idleNull (referTo "other#") current node node') :
    (node = idleNull ∧ node' = referTo "other#") ∨ node = idleTarget := by
  have hreference {part : Json} : ¬ idleNull.Part part :=
    Json.not_part rfl rfl (by simp) (by simp [Kind.type?]) (by simp [Kind.type?])
  have htarget {part : Json} : ¬ idleTarget.Part part :=
    Json.not_part rfl rfl (by simp) (by simp [Kind.type?]) (by simp [Kind.type?])
  induction h with
  | root => exact .inl ⟨rfl, rfl⟩
  | part _ pair ih =>
      rcases ih with ⟨rfl, -⟩ | rfl
      · exact absurd pair.part hreference
      · exact absurd pair.part htarget
  | target _ left right parsed found found' ih =>
      rcases ih with ⟨rfl, -⟩ | rfl
      · cases left
        cases parsed
        cases found
        exact .inr rfl
      · cases left

theorem nothingErased_idleNull (current : String) (node node' : Json)
    (h : ReachedTogether leafCatalog "sample" idleNull (referTo "other#") current node node') :
    NothingErased leafCatalog current node node' := by
  rintro base overlay stripped (⟨left, -⟩ | ⟨left, -⟩ | ⟨left, -⟩ | ⟨left, parsed, found⟩)
  · rcases reached_idleNull h with ⟨rfl, -⟩ | rfl <;> cases left
  · rcases reached_idleNull h with ⟨rfl, -⟩ | rfl <;> cases left
  · rcases reached_idleNull h with ⟨rfl, -⟩ | rfl <;> cases left
  · rcases reached_idleNull h with ⟨rfl, rfl⟩ | rfl
    · cases left
      cases parsed
      cases found
      rintro (⟨_, null, -, erased⟩ | ⟨_, _, left, _⟩)
      · obtain ⟨rfl, -⟩ := Prod.mk.inj (List.mem_singleton.mp (Assoc.mem_of_get? null))
        exact erased rfl
      · cases left
    · cases left

theorem compile_erasingNull : scope.compile erasingNull = .ok (.allOf .empty) := by
  have hmerged : scope.compile (.obj [("type", .null)]) = .ok .empty :=
    Scope.compile_eq_compileKind scope _
  rw [Scope.compile_of_classify (show classify erasingNull = .ok (.allOf _) from rfl),
    Scope.compileKind, Scope.compileAllOf_eq]
  change Generator.allOf <$> scope.compile (.obj [("type", .null)]) = _
  rw [hmerged]
  rfl

theorem compile_erasingNullRemoved :
    scope.compile erasingNullRemoved = .ok (.allOf (.leaf Leaf.null)) := by
  rw [Scope.compile_of_classify (show classify erasingNullRemoved = .ok (.allOf _) from rfl),
    Scope.compileKind, Scope.compileAllOf_eq]
  change Generator.allOf <$> scope.compile leafNode = _
  rw [compile_leafNode]
  rfl

end Sample

theorem produce_of_nullsRemoved_idle :
    Sample.leafCatalog.WellFormed ∧ Sample.idleNull.WellFormed ∧
      Sample.idleNull.NullsRemoved (Sample.referTo "other#") ∧
      (∀ current node node', ReachedTogether Sample.leafCatalog "sample" Sample.idleNull
        (Sample.referTo "other#") current node node' →
          NothingErased Sample.leafCatalog current node node') ∧
      Outcome.Related AnyErrors
        (fun g g' => ∀ depth, Run.Agree (Halt.Related AnyErrors) Eq
          (g.produce Sample.leafCatalog depth) (g'.produce Sample.leafCatalog depth))
        (Scope.compile ⟨"sample", Sample.library⟩ Sample.idleNull)
        (Scope.compile ⟨"sample", Sample.library⟩ (Sample.referTo "other#")) := by
  have hroot : Sample.idleNull.WellFormed := by
    simp [Sample.idleNull, Json.WellFormed, Json.WellFormedMembers, Assoc.keys]
  exact ⟨Sample.wellFormed_leafCatalog, hroot, Sample.nullsRemoved_idleNull,
    Sample.nothingErased_idleNull, produce_of_nullsRemoved Sample.wellFormed_leafCatalog hroot
      Sample.nullsRemoved_idleNull Sample.nothingErased_idleNull⟩

/-- A null that is laid over a type erases it: the value is an empty object, and without the null it
is one of the type. -/
theorem erases_erasingNull :
    ¬ ∀ (catalog : Catalog) (start : String) (root root' : Json), catalog.WellFormed →
      root.WellFormed → root.NullsRemoved root' → Outcome.Related AnyErrors
        (fun g g' => ∀ depth, Run.Agree (Halt.Related AnyErrors) Eq (g.produce catalog depth)
          (g'.produce catalog depth))
        (Scope.compile ⟨start, catalog.library⟩ root)
        (Scope.compile ⟨start, catalog.library⟩ root') := by
  intro hclaim
  have hroot : Sample.erasingNull.WellFormed := by
    simp [Sample.erasingNull, Json.WellFormed, Json.WellFormedMembers, Json.WellFormedItems,
      Assoc.keys]
  have hrelated := hclaim Sample.leafCatalog "sample" Sample.erasingNull Sample.erasingNullRemoved
    Sample.wellFormed_leafCatalog hroot Sample.nullsRemoved_erasingNull
  have hleft : Scope.compile ⟨"sample", Sample.leafCatalog.library⟩ Sample.erasingNull = _ :=
    Sample.compile_erasingNull
  have hright : Scope.compile ⟨"sample", Sample.leafCatalog.library⟩ Sample.erasingNullRemoved = _ :=
    Sample.compile_erasingNullRemoved
  rw [hleft, hright] at hrelated
  obtain ⟨-, hvalues⟩ := hrelated.of_ok 2 default
  cases hvalues.of_ok

end Specimen
