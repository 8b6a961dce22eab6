import Specimen.Proofs.Nulls
import Specimen.Proofs.Reaching
import Specimen.Proofs.Replacing

/-!
# What is written along a path

The check of a path goes from a reference to its target with the rest of the node laid over it. What
is written along a path is found part by part instead: in the target on its own, in the properties of
a node and in its branches. Laying nodes over each other writes no path that is not written in one of
them already.
-/

namespace Specimen

namespace Json

/-- A value that stands on one of two sides, or the one of the upper side laid over the other. -/
inductive LaidFrom (below above : Option Json) : Json → Prop where
  | below {value : Json} (found : below = some value) : LaidFrom below above value
  | above {value : Json} (found : above = some value) : LaidFrom below above value
  | both {old value : Json} (found : below = some old) (found' : above = some value) :
      LaidFrom below above (old.merge value)

section Merging

variable {base overlay value : Json}

theorem laidFrom_get? {key : String} (hoverlay : overlay.WellFormed)
    (h : (base.merge overlay).get? key = some value) :
    LaidFrom (base.get? key) (overlay.get? key) value := by
  cases overlay with
  | obj above =>
      cases base with
      | obj members =>
          rw [merge, get?, get?_mergeMembers (wellFormed_obj_iff.mp hoverlay).1] at h
          rw [get?, get?]
          cases hbelow : Assoc.get? key members with
          | none =>
              cases habove : Assoc.get? key above with
              | none =>
                  rw [hbelow, habove] at h
                  cases h
              | some new =>
                  rw [hbelow, habove] at h
                  cases h
                  exact .above rfl
          | some old =>
              cases habove : Assoc.get? key above with
              | none =>
                  rw [hbelow, habove] at h
                  cases h
                  exact .below rfl
              | some new =>
                  rw [hbelow, habove] at h
                  cases h
                  exact .both rfl rfl
      | null | bool | int | float | str | arr => exact .above h
  | arr above => cases base <;> cases h
  | null | bool | int | float | str => cases h

theorem laidFrom_property? {name : String} (hoverlay : overlay.WellFormed)
    (h : (base.merge overlay).property? name = some value) :
    LaidFrom (base.property? name) (overlay.property? name) value := by
  obtain ⟨properties, hproperties, hname⟩ := Option.bind_eq_some_iff.mp h
  rw [property?, property?]
  cases laidFrom_get? hoverlay hproperties with
  | below found => exact .below (by rw [found]; exact hname)
  | above found => exact .above (by rw [found]; exact hname)
  | both found found' =>
      rw [found, found']
      exact laidFrom_get? (hoverlay.get? found') hname

/-- An item of two lists laid over each other. -/
theorem mem_mergeItems {items above : List Json} {item : Json} (h : item ∈ mergeItems items above) :
    item ∈ items ∨ item ∈ above ∨ ∃ old ∈ items, ∃ new ∈ above, item = old.merge new := by
  induction above generalizing items with
  | nil =>
      rw [mergeItems] at h
      exact .inl h
  | cons new rest ih =>
      cases items with
      | nil => exact .inr (.inl h)
      | cons old items =>
          rw [mergeItems] at h
          rcases List.mem_cons.mp h with rfl | hrest
          · exact .inr (.inr ⟨old, List.mem_cons_self, new, List.mem_cons_self, rfl⟩)
          · rcases ih hrest with hitem | hnew | ⟨first, hfirst, second, hsecond, rfl⟩
            · exact .inl (List.mem_cons_of_mem _ hitem)
            · exact .inr (.inl (List.mem_cons_of_mem _ hnew))
            · exact .inr (.inr ⟨first, List.mem_cons_of_mem _ hfirst, second,
                List.mem_cons_of_mem _ hsecond, rfl⟩)

end Merging

theorem get?_eq_some {node value : Json} {key : String} :
    node.get? key = some value ↔ ∃ members, node = .obj members ∧ Assoc.get? key members = some value := by
  cases node with
  | obj members => simp [get?]
  | null | bool | int | float | str | arr => simp [get?]

/-- The branches of a combinator. -/
def branches? (keyword : Keyword) (node : Json) : Option (List Json) :=
  (node.get? keyword.text).bind items?

/-- The text under `$ref`. -/
def pointer? (node : Json) : Option String :=
  (node.get? Keyword.ref.text).bind str?

theorem branches?_eq_some {node : Json} {keyword : Keyword} {branches : List Json} :
    node.branches? keyword = some branches ↔ node.get? keyword.text = some (.arr branches) := by
  rw [branches?]
  cases node.get? keyword.text with
  | none => simp
  | some value => cases value <;> simp [items?]

theorem pointer?_eq_some {node : Json} {pointer : String} :
    node.pointer? = some pointer ↔ node.get? Keyword.ref.text = some (.str pointer) := by
  rw [pointer?]
  cases node.get? Keyword.ref.text with
  | none => simp
  | some value => cases value <;> simp [str?]

theorem WellFormed.property {node property : Json} {name : String} (h : node.WellFormed)
    (hproperty : node.property? name = some property) : property.WellFormed := by
  obtain ⟨properties, hproperties, hname⟩ := Option.bind_eq_some_iff.mp hproperty
  exact (h.get? hproperties).get? hname

theorem WellFormed.branch {node branch : Json} {keyword : Keyword} {branches : List Json}
    (h : node.WellFormed) (hbranches : node.branches? keyword = some branches)
    (hbranch : branch ∈ branches) : branch.WellFormed := by
  exact wellFormed_arr_iff.mp (h.get? (branches?_eq_some.mp hbranches)) branch hbranch

theorem pointer?_merge {base overlay : Json} {pointer : String} (hoverlay : overlay.WellFormed)
    (h : (base.merge overlay).pointer? = some pointer) :
    base.pointer? = some pointer ∨ overlay.pointer? = some pointer := by
  simp only [pointer?_eq_some] at h ⊢
  generalize hvalue : Json.str pointer = value at h ⊢
  cases laidFrom_get? hoverlay h with
  | below found => exact .inl found
  | above found => exact .inr found
  | @both old new found found' =>
      right
      cases new with
      | str text => exact found'
      | arr | obj => cases old <;> cases hvalue
      | null | bool | int | float => cases hvalue

theorem branches?_merge {base overlay branch : Json} {keyword : Keyword} {branches : List Json}
    (hoverlay : overlay.WellFormed) (h : (base.merge overlay).branches? keyword = some branches)
    (hbranch : branch ∈ branches) :
    (∃ below, base.branches? keyword = some below ∧ branch ∈ below) ∨
      (∃ above, overlay.branches? keyword = some above ∧ branch ∈ above) ∨
        ∃ below above old new, base.branches? keyword = some below ∧ old ∈ below ∧
          overlay.branches? keyword = some above ∧ new ∈ above ∧ branch = old.merge new := by
  simp only [branches?_eq_some] at h ⊢
  generalize hvalue : Json.arr branches = value at h
  cases laidFrom_get? hoverlay h with
  | below found => exact .inl ⟨branches, hvalue ▸ found, hbranch⟩
  | above found => exact .inr (.inl ⟨branches, hvalue ▸ found, hbranch⟩)
  | @both old new found found' =>
      cases new with
      | arr above =>
          cases old with
          | arr below =>
              obtain rfl : branches = mergeItems below above := Json.arr.inj hvalue
              rcases mem_mergeItems hbranch with hbelow | habove | ⟨first, hfirst, second, hsecond,
                hmerged⟩
              · exact .inl ⟨below, found, hbelow⟩
              · exact .inr (.inl ⟨above, found', habove⟩)
              · exact .inr (.inr ⟨below, above, first, second, found, hfirst, found', hsecond,
                  hmerged⟩)
          | null | bool | int | float | str | obj =>
              obtain rfl : branches = above := Json.arr.inj hvalue
              exact .inr (.inl ⟨branches, found', hbranch⟩)
      | obj => cases old <;> cases hvalue
      | null | bool | int | float | str => cases hvalue

end Json

namespace Catalog

variable {catalog : Catalog} {schema : String} {node : Json} {path : Path}

/-- A path leads along properties that are written in a node, in the targets of its references or in
its branches, each looked at on its own. -/
inductive Written (catalog : Catalog) : String → Json → Path → Prop where
  | here {schema : String} {node : Json} : Written catalog schema node []
  | target {schema : String} {node found : Json} {pointer : String} {reference : Reference}
      {path : Path} (refers : node.pointer? = some pointer)
      (parsed : Reference.parse pointer = .ok reference)
      (resolved : catalog.resolve (reference.schemaOr schema) reference = .ok found)
      (written : Written catalog (reference.schemaOr schema) found path) :
      Written catalog schema node path
  | property {schema : String} {node property : Json} {segment : String} {rest : Path}
      (present : node.property? segment = some property)
      (written : Written catalog schema property rest) :
      Written catalog schema node (segment :: rest)
  | branch {schema : String} {node branch : Json} {keyword : Keyword} {branches : List Json}
      {path : Path} (combinator : keyword ∈ [Keyword.anyOf, .allOf, .oneOf])
      (listed : node.branches? keyword = some branches) (member : branch ∈ branches)
      (written : Written catalog schema branch path) : Written catalog schema node path

namespace Written

/-- What is written in a node is written in another with the same under each keyword asked. -/
theorem of_lookups {other : Json} (h : catalog.Written schema node path)
    (hlookup : ∀ keyword ∈ [Keyword.ref, .properties, .anyOf, .allOf, .oneOf], ∀ value,
      node.get? keyword.text = some value → other.get? keyword.text = some value) :
    catalog.Written schema other path := by
  have hbind {α : Type} {look : Json → Option α} {found : α} (keyword : Keyword)
      (hkeyword : keyword ∈ [Keyword.ref, .properties, .anyOf, .allOf, .oneOf])
      (hfound : (node.get? keyword.text).bind look = some found) :
      (other.get? keyword.text).bind look = some found := by
    obtain ⟨value, hvalue, hlook⟩ := Option.bind_eq_some_iff.mp hfound
    rw [hlookup keyword hkeyword value hvalue]
    exact hlook
  cases h with
  | here => exact .here
  | target refers parsed resolved written =>
      exact .target (hbind .ref (by decide) refers) parsed resolved written
  | property present written => exact .property (hbind .properties (by decide) present) written
  | @branch _ _ _ keyword _ _ combinator listed member written =>
      have hkeyword : keyword ∈ [Keyword.ref, .properties, .anyOf, .allOf, .oneOf] := by
        revert combinator
        cases keyword <;> decide
      exact .branch combinator (hbind keyword hkeyword listed) member written

theorem of_without {key : String} (h : catalog.Written schema (node.without key) path)
    (hnode : node.WellFormed) : catalog.Written schema node path := by
  apply h.of_lookups
  intro keyword _ value hvalue
  cases node with
  | obj members =>
      by_cases hkey : keyword.text = key
      · rw [Json.without, Json.get?, hkey,
          Assoc.get?_erase_self (Json.wellFormed_obj_iff.mp hnode).1] at hvalue
        cases hvalue
      · rwa [Json.without, Json.get?, Assoc.get?_erase_of_ne hkey] at hvalue
  | null | bool | int | float | str | arr => exact hvalue

theorem of_merge {base overlay : Json} (h : catalog.Written schema (base.merge overlay) path)
    (hbase : base.WellFormed) (hoverlay : overlay.WellFormed) :
    catalog.Written schema base path ∨ catalog.Written schema overlay path := by
  generalize hmerged : base.merge overlay = node at h
  induction h generalizing base overlay with
  | here => exact .inl .here
  | target refers parsed resolved written =>
      subst hmerged
      rcases Json.pointer?_merge hoverlay refers with hpointer | hpointer
      · exact .inl (.target hpointer parsed resolved written)
      · exact .inr (.target hpointer parsed resolved written)
  | property present written ih =>
      subst hmerged
      cases Json.laidFrom_property? hoverlay present with
      | below found => exact .inl (.property found written)
      | above found => exact .inr (.property found written)
      | both found found' =>
          have hold := hbase.property found
          have hnew := hoverlay.property found'
          exact (ih hold hnew rfl).imp (.property found) (.property found')
  | branch combinator listed member written ih =>
      subst hmerged
      rcases Json.branches?_merge hoverlay listed member with ⟨below, hbelow, hmember⟩ |
          ⟨above, habove, hmember⟩ | ⟨below, above, old, new, hbelow, hold, habove, hnew, heq⟩
      · exact .inl (.branch combinator hbelow hmember written)
      · exact .inr (.branch combinator habove hmember written)
      · have hmemberOld := hbase.branch hbelow hold
        have hmemberNew := hoverlay.branch habove hnew
        exact (ih hmemberOld hmemberNew heq.symm).imp (.branch combinator hbelow hold)
          (.branch combinator habove hnew)

theorem of_foldl_merge {base : Json} {branches : List Json}
    (h : catalog.Written schema (branches.foldl Json.merge base) path) (hbase : base.WellFormed)
    (hbranches : ∀ branch ∈ branches, branch.WellFormed) :
    catalog.Written schema base path ∨ ∃ branch ∈ branches, catalog.Written schema branch path := by
  induction branches generalizing base with
  | nil => exact .inl h
  | cons first rest ih =>
      rw [List.forall_mem_cons] at hbranches
      rcases ih h (Json.wellFormed_merge hbase hbranches.1) hbranches.2 with
        hmerged | ⟨branch, hbranch, hwritten⟩
      · rcases hmerged.of_merge hbase hbranches.1 with hwritten | hwritten
        · exact .inl hwritten
        · exact .inr ⟨first, List.mem_cons_self, hwritten⟩
      · exact .inr ⟨branch, List.mem_cons_of_mem _ hbranch, hwritten⟩

end Written

end Catalog

/-! ### Without local pointers -/

/-- A reference that names no schema is written as a local pointer. -/
theorem Reference.exists_local_of_parse {text : String} {reference : Reference}
    (h : parse text = .ok reference) (hschema : reference.schema = none) :
    ∃ path, text.toList = '#' :: path := by
  have hempty {before after : List Char} (hparts : (ofParts before after).schema = none) :
      before = [] := by
    by_contra hne
    rw [ofParts, if_neg hne] at hparts
    cases hparts
  rw [parse] at h
  split at h
  · rename_i before pointer hcut
    split at h
    · cases h
    · cases h
      obtain rfl := hempty hschema
      exact ⟨pointer, (Text.of_cutAt?_eq_some hcut).1⟩
  · split at h
    · cases h
    · rename_i hne
      cases h
      exact absurd (String.toList_eq_nil_iff.mp (hempty hschema)) hne

namespace Catalog

variable {catalog : Catalog} {schema : String} {node : Json} {path : Path}

theorem Written.eq_nil_of_arr {items : List Json} (h : catalog.Written schema (.arr items) path) :
    path = [] := by
  cases h with
  | here => rfl
  | target refers => cases refers
  | property present => cases present
  | branch _ listed => cases listed

/-- Without local pointers it does not matter in which schema a node is looked at. -/
theorem Written.of_not_writesLocal {other : String} (h : catalog.Written schema node path)
    (hlocal : ¬ node.WritesLocal) : catalog.Written other node path := by
  induction h with
  | here => exact .here
  | @target schema node found pointer reference path refers parsed resolved written =>
      obtain ⟨members, rfl, hmember⟩ := Json.get?_eq_some.mp (Json.pointer?_eq_some.mp refers)
      have howner : reference.schemaOr schema = reference.schemaOr other := by
        cases hschema : reference.schema with
        | some name => rw [Reference.schemaOr, Reference.schemaOr, hschema]; rfl
        | none =>
            exfalso
            obtain ⟨rest, hpointer⟩ := Reference.exists_local_of_parse parsed hschema
            exact hlocal (.reference (Assoc.mem_of_get? hmember) hpointer)
      rw [howner] at resolved written
      exact .target refers parsed resolved written
  | @property schema node property segment rest present written ih =>
      obtain ⟨members, properties, rfl, hproperties, hname⟩ := Json.property?_eq_some present
      -- A property may be called `enum`, where an array is not looked into; it has nothing written.
      cases property with
      | arr items =>
          obtain rfl := written.eq_nil_of_arr
          exact .property present .here
      | null | bool | int | float | str | obj =>
          refine .property present (ih fun hproperty => hlocal ?_)
          have hbelow : (Json.obj properties).WritesLocal :=
            .member (Assoc.mem_of_get? hname) (fun _ => rfl) hproperty
          exact .member (Assoc.mem_of_get? hproperties) (fun _ => rfl) hbelow
  | @branch schema node branch keyword branches path combinator listed member written ih =>
      obtain ⟨members, rfl, hmember⟩ := Json.get?_eq_some.mp (Json.branches?_eq_some.mp listed)
      have hkey : keyword.text ≠ Keyword.enum.text := by
        revert combinator
        cases keyword <;> decide
      refine .branch combinator listed member (ih fun hbranch => hlocal ?_)
      exact .member (Assoc.mem_of_get? hmember) (fun henum => absurd henum hkey)
        (.item member hbranch)

/-! ### Searching without a limit -/

/-- Some number of steps leads along a path. -/
def LeadsTo (catalog : Catalog) (schema : String) (node : Json) (path : Path) : Prop :=
  ∃ depth, catalog.reaches depth schema node path = true

theorem leadsTo_nil : catalog.LeadsTo schema node [] :=
  ⟨0, reaches_nil 0⟩

theorem LeadsTo.of_step {segment : String} {rest path' : Path} {schema' : String} {node' : Json}
    (hstep : catalog.PathStep schema node segment rest schema' node' path')
    (h : catalog.LeadsTo schema' node' path') : catalog.LeadsTo schema node (segment :: rest) := by
  obtain ⟨depth, hreaches⟩ := h
  exact ⟨depth + 1, (reaches_succ_iff depth).mpr ⟨_, _, _, hstep, hreaches⟩⟩

theorem LeadsTo.exists_step {segment : String} {rest : Path}
    (h : catalog.LeadsTo schema node (segment :: rest)) :
    ∃ schema' node' path', catalog.PathStep schema node segment rest schema' node' path' ∧
      catalog.LeadsTo schema' node' path' := by
  obtain ⟨_ | depth, hreaches⟩ := h
  · cases hreaches
  · obtain ⟨schema', node', path', hstep, hrest⟩ := (reaches_succ_iff depth).mp hreaches
    exact ⟨schema', node', path', hstep, depth, hrest⟩

/-- A path leads from a node without references and branches through one of its properties. -/
theorem LeadsTo.exists_property {segment : String} {rest : Path}
    (h : catalog.LeadsTo schema node (segment :: rest)) (hplain : node.pointer? = none)
    (hbranches : ∀ keyword ∈ [Keyword.anyOf, .allOf, .oneOf], node.branches? keyword = none) :
    ∃ property, node.property? segment = some property ∧ catalog.LeadsTo schema property rest := by
  obtain ⟨_, _, _, hstep, hrest⟩ := h.exists_step
  cases hstep with
  | target refers => cases hplain.symm.trans refers
  | property plain present => exact ⟨_, present, hrest⟩
  | branch plain combinator listed => cases (hbranches _ combinator).symm.trans listed

end Catalog

/-! ### References that stand alone -/

/-- Nothing stands beside a text under `$ref`, on whichever level. -/
inductive Json.PointersAlone : Json → Prop where
  | plain {value : Json} (notArray : value.items? = none)
      (notObject : ∀ members, value ≠ .obj members) : PointersAlone value
  | array {items : List Json} (each : ∀ item ∈ items, PointersAlone item) :
      PointersAlone (.arr items)
  | object {members : List (String × Json)}
      (alone : ∀ pointer, (Keyword.ref.text, .str pointer) ∈ members →
        members = [(Keyword.ref.text, .str pointer)])
      (each : ∀ key value, (key, value) ∈ members → PointersAlone value) :
      PointersAlone (.obj members)

namespace Json.PointersAlone

variable {node : Json}

theorem member {members : List (String × Json)} {key : String} {value : Json}
    (h : (Json.obj members).PointersAlone) (hmember : (key, value) ∈ members) :
    value.PointersAlone := by
  cases h with
  | plain notArray notObject => exact absurd rfl (notObject members)
  | object alone each => exact each _ _ hmember

theorem get? {key : String} {value : Json} (h : node.PointersAlone)
    (hget : node.get? key = some value) : value.PointersAlone := by
  obtain ⟨members, rfl, hfound⟩ := Json.get?_eq_some.mp hget
  exact h.member (Assoc.mem_of_get? hfound)

theorem item {items : List Json} {item : Json} (h : (Json.arr items).PointersAlone)
    (hitem : item ∈ items) : item.PointersAlone := by
  cases h with
  | plain notArray => cases notArray
  | array each => exact each item hitem

theorem eq_of_pointer? {pointer : String} (h : node.PointersAlone)
    (hpointer : node.pointer? = some pointer) :
    node = .obj [(Keyword.ref.text, .str pointer)] := by
  obtain ⟨members, rfl, hmember⟩ := Json.get?_eq_some.mp (Json.pointer?_eq_some.mp hpointer)
  cases h with
  | plain notArray notObject => exact absurd rfl (notObject members)
  | object alone each => rw [alone pointer (Assoc.mem_of_get? hmember)]

/-- A node with anything else is no reference. -/
theorem pointer?_eq_none {key : String} {value : Json} (h : node.PointersAlone)
    (hkey : key ≠ Keyword.ref.text) (hget : node.get? key = some value) : node.pointer? = none := by
  by_contra hpointer
  obtain ⟨pointer, hpointer⟩ := Option.ne_none_iff_exists'.mp hpointer
  rw [h.eq_of_pointer? hpointer, Json.get?, Assoc.get?, if_neg hkey.symm] at hget
  cases hget

theorem child {child : Json} {segment : String} (h : node.PointersAlone)
    (hchild : Reference.child? node segment = some child) : child.PointersAlone := by
  rcases Reference.child?_cases hchild with hget | ⟨items, rfl, hitem⟩
  · exact h.get? hget
  · exact h.item hitem

theorem empty : (Json.obj []).PointersAlone :=
  .object (fun _ h => absurd h List.not_mem_nil) fun _ _ h => absurd h List.not_mem_nil

theorem merge_empty (h : node.PointersAlone) : (node.merge (.obj [])).PointersAlone := by
  cases node with
  | obj members => exact h
  | null | bool | int | float | str | arr => exact empty

/-- Something else may be written into a node that is no reference. -/
theorem put {key text : String} (h : node.PointersAlone) (hplain : node.pointer? = none)
    (hkey : key ≠ Keyword.ref.text) : (node.put key (.str text)).PointersAlone := by
  cases node with
  | null | bool | int | float | str | arr => exact h
  | obj members =>
      refine .object (fun pointer hmember => ?_) fun other value hmember => ?_
      · rcases Assoc.mem_put hmember with hold | hnew
        · cases h with
          | plain notArray notObject => exact absurd rfl (notObject members)
          | object alone each =>
              rw [alone pointer hold] at hplain
              cases hplain
        · exact absurd (congrArg Prod.fst hnew).symm hkey
      · rcases Assoc.mem_put hmember with hold | hnew
        · exact h.member hold
        · obtain ⟨-, rfl⟩ := Prod.mk.inj hnew
          exact .plain rfl (by simp)

end Json.PointersAlone

namespace Catalog

variable {catalog : Catalog} {schema : String} {node : Json} {path : Path}

theorem LeadsTo.merge_empty {segment : String} {rest : Path}
    (h : catalog.LeadsTo schema node (segment :: rest)) :
    catalog.LeadsTo schema (node.merge (.obj [])) (segment :: rest) := by
  cases node with
  | obj members => exact h
  | null | bool | int | float | str | arr =>
      obtain ⟨property, hproperty, -⟩ := h.exists_property rfl fun _ _ => rfl
      cases hproperty

/-- Where all references stand alone the search finds all that is written. -/
theorem leadsTo_of_written
    (hcatalog : ∀ name document, catalog.get? name = some document → document.PointersAlone)
    (hnode : node.PointersAlone) (h : catalog.Written schema node path) :
    catalog.LeadsTo schema node path := by
  induction h with
  | here => exact leadsTo_nil
  | @target schema node found pointer reference path refers parsed resolved written ih =>
      have hfound := of_resolve hcatalog (fun _ _ _ hnode => hnode.child) resolved
      cases path with
      | nil => exact leadsTo_nil
      | cons segment rest =>
          have hbelow := (ih hfound).merge_empty
          obtain rfl := hnode.eq_of_pointer? refers
          exact hbelow.of_step (.target refers parsed resolved)
  | property present written ih =>
      obtain ⟨properties, hproperties, hname⟩ := Option.bind_eq_some_iff.mp present
      have hplain := hnode.pointer?_eq_none (by decide) hproperties
      exact (ih ((hnode.get? hproperties).get? hname)).of_step (.property hplain present)
  | @branch schema node branch keyword branches path combinator listed member written ih =>
      have hitems := Json.branches?_eq_some.mp listed
      have hkey : keyword.text ≠ Keyword.ref.text := by
        revert combinator
        cases keyword <;> decide
      have hplain := hnode.pointer?_eq_none hkey hitems
      cases path with
      | nil => exact leadsTo_nil
      | cons segment rest =>
          exact (ih ((hnode.get? hitems).item member)).of_step
            (.branch hplain combinator listed member)

end Catalog

end Specimen
