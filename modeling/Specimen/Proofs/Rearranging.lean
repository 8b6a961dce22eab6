import Specimen.Proofs.Rewording

/-!
# Annotations and the order of members

The order of a node's members, and members under keys that are not read, are seen neither by compiling
nor by laying one node over another: nothing can clash between wordings that differ in no more than
that, wherever in a schema they do.
-/

namespace Specimen

namespace Assoc

variable {κ α : Type} [DecidableEq κ] {key : κ}

theorem get?_filter {keep : κ × α → Bool} (hkept : ∀ value, keep (key, value) = true)
    (entries : List (κ × α)) : get? key (entries.filter keep) = get? key entries := by
  induction entries with
  | nil => rfl
  | cons entry rest ih =>
      obtain ⟨name, value⟩ := entry
      by_cases hkeep : keep (name, value) = true
      · rw [List.filter_cons_of_pos hkeep, get?, get?, ih]
      · have hne : name ≠ key := by
          rintro rfl
          exact hkeep (hkept value)
        rw [List.filter_cons_of_neg hkeep, get?, if_neg hne, ih]

theorem get?_eq_of_perm {entries others : List (κ × α)} (hperm : entries.Perm others)
    (hdistinct : (keys entries).Nodup) : get? key entries = get? key others := by
  have hdistinct' : (keys others).Nodup := (hperm.map Prod.fst).nodup_iff.mp hdistinct
  ext value
  constructor
  · intro hget
    exact get?_of_mem hdistinct' (hperm.mem_iff.mp (mem_of_get? hget))
  · intro hget
    exact get?_of_mem hdistinct (hperm.mem_iff.mpr (mem_of_get? hget))

end Assoc

namespace Json

/-- Wordings that only order members anew or have other members that are not read. -/
def rearranging : Leeway where
  keys := readKeys
  blanks := False
  names := False

/-- The second schema is the first with members of its nodes in another order, and with other members
that are not read. -/
abbrev Rearranged : Json → Json → Prop :=
  Reworded rearranging

def isRead (member : String × Json) : Bool :=
  decide (member.1 ∈ readKeys)

/-- Two objects are rearranged if the members of the one that are read, put in another order, go with
those of the other one by one: the same keys, and rearranged schemas in their values. -/
theorem rearranged_of_perm {members middle others : List (String × Json)}
    (distinct : (Assoc.keys members).Nodup) (distinct' : (Assoc.keys others).Nodup)
    (hperm : (members.filter isRead).Perm middle)
    (heach : List.Forall₂ (fun member other => member.1 = other.1 ∧
        FoundReworded rearranging Rearranged member.1 (some member.2) (some other.2))
      middle (others.filter isRead)) :
    Rearranged (.obj members) (.obj others) := by
  refine .object ⟨_, rfl, distinct⟩ ⟨_, rfl, distinct'⟩ fun key hkey => ?_
  have hread (value : Json) : isRead (key, value) = true := decide_eq_true hkey
  have hfiltered : (Assoc.keys (members.filter isRead)).Nodup :=
    distinct.sublist (List.filter_sublist.map Prod.fst)
  have hfound := rel_get?_of_forall₂ (Q := fun key value other =>
    FoundReworded rearranging Rearranged key (some value) (some other)) heach key
  rw [← Assoc.get?_eq_of_perm hperm hfiltered, Assoc.get?_filter hread, Assoc.get?_filter hread]
    at hfound
  exact foundReworded_of_rel hfound

end Json

/-- In any catalog a rearranged schema compiles if and only if the schema does, and then the two cannot
be told apart: they give the same values from the same source and allow the same values. -/
theorem indistinct_of_rearranged {catalog : Catalog} {start : String} {root root' : Json}
    (hcatalog : catalog.WellFormed) (h : root.Rearranged root') :
    Outcome.Related AnyErrors (Generator.Indistinct catalog)
      (Scope.compile ⟨start, catalog.library⟩ root)
      (Scope.compile ⟨start, catalog.library⟩ root') :=
  h.indistinct (fun _ hkey => hkey) hcatalog fun _ _ _ _ base overlay reworded _ =>
    Json.not_clashes id id base overlay reworded

namespace Sample

/-- A schema with texts for readers, one of them about its only branch. -/
def annotated : Json :=
  .obj [("title", .str "Either"), ("format", .str "date"),
    ("anyOf", .arr [.obj [("description", .str "Nothing"), ("type", .str "null")]])]

/-- The same without the texts and with its members the other way round. -/
def plainlyOrdered : Json :=
  .obj [("anyOf", .arr [leafNode]), ("format", .str "date")]

theorem rearranged_annotated : annotated.Rearranged plainlyOrdered := by
  have hbranch : Json.Rearranged (.obj [("description", .str "Nothing"), ("type", .str "null")])
      leafNode :=
    Json.rearranged_of_perm (by simp [Assoc.keys]) (by simp [Assoc.keys]) (.refl _)
      (.cons ⟨rfl, .present (.other (by decide)) Iff.rfl⟩ .nil)
  exact Json.rearranged_of_perm (by simp [Assoc.keys]) (by simp [Assoc.keys]) (.swap _ _ _)
    (.cons ⟨rfl, .present (.branches (show Keyword.anyOf ∈ _ by simp) (.each (.cons hbranch .nil)))
      (by simp)⟩ (.cons ⟨rfl, .present (.other (by decide)) Iff.rfl⟩ .nil))

end Sample

theorem indistinct_of_rearranged_annotated :
    Sample.leafCatalog.WellFormed ∧ Sample.annotated.Rearranged Sample.plainlyOrdered ∧
      Outcome.Related AnyErrors (Generator.Indistinct Sample.leafCatalog)
        (Scope.compile ⟨"sample", Sample.leafCatalog.library⟩ Sample.annotated)
        (Scope.compile ⟨"sample", Sample.leafCatalog.library⟩ Sample.plainlyOrdered) :=
  ⟨Sample.wellFormed_leafCatalog, Sample.rearranged_annotated,
    indistinct_of_rearranged Sample.wellFormed_leafCatalog Sample.rearranged_annotated⟩

end Specimen
