import Specimen.Proofs.Merging
import Specimen.Proofs.Nulls
import Specimen.Proofs.Validation

/-!
# Laws of merging

Laying one overlay over a value twice is laying it once. Two overlays may be merged first, before they
are laid over anything, if the second has no container where the first has something else: what stands
in the middle would erase what is below it, but merged with the second it is replaced before it can.
Both laws compare two values that are containers of one kind with the same keys in the same order, so
it is enough that the two have the same at every step down, and the law holds there by induction.
-/

namespace Specimen

namespace Json

variable {node other base overlay : Json} {step : Step}

theorem size_lt_of_child? {child : Json} (h : node.child? step = some child) :
    child.size < node.size := by
  cases step with
  | member key => exact size_lt_of_get? h
  | item place =>
      cases node with
      | arr items =>
          have hle := size_le_sizeItems (List.mem_of_getElem? h)
          rw [size]
          omega
      | _ => cases h

/-- What holds of a value whenever it holds of all its children holds of every value. -/
theorem childInduction {P : Json → Prop}
    (below : ∀ node, (∀ step child, node.child? step = some child → P child) → P node)
    (node : Json) : P node := by
  induction hsize : node.size using Nat.strongRecOn generalizing node with
  | ind size ih =>
      subst hsize
      exact below node fun step child hchild => ih child.size (size_lt_of_child? hchild) child rfl

theorem nodup_keys (h : node.WellFormed) : node.keys.Nodup := by
  cases node with
  | obj members => exact (wellFormed_obj_iff.mp h).1
  | _ => exact List.nodup_nil

/-- Containers of one kind with the same keys in the same order and the same children are equal. -/
theorem eq_of_child? (hmeets : node.Meets other) (hkeys : node.keys = other.keys)
    (hdistinct : node.keys.Nodup) (h : ∀ step, node.child? step = other.child? step) :
    node = other := by
  obtain ⟨kind, hnode, hother⟩ := hmeets
  cases node with
  | obj members =>
      cases hnode
      cases other with
      | obj others =>
          exact congrArg Json.obj (Assoc.eq_of_get? hkeys hdistinct fun key => h (.member key))
      | _ => cases hother
  | arr items =>
      cases hnode
      cases other with
      | arr others => exact congrArg Json.arr (List.ext_getElem? fun place => h (.item place))
      | _ => cases hother
  | _ => cases hnode

/-! ### The same overlay twice -/

theorem merge_self (h : node.WellFormed) : node.merge node = node := by
  induction node using childInduction with
  | below node ih =>
      cases hkind : node.container? with
      | none => exact merge_of_container?_eq_none hkind node
      | some kind =>
          have hmeets : node.Meets node := ⟨kind, hkind, hkind⟩
          apply eq_of_child? ⟨kind, (container?_merge node node).trans hkind, hkind⟩
          · rw [keys_merge hmeets h, List.filter_eq_nil_iff.mpr (by simp), List.append_nil]
          · exact nodup_keys (wellFormed_merge h h)
          · intro step
            rw [child?_merge hmeets h]
            cases hchild : node.child? step with
            | none => rfl
            | some child => exact congrArg some (ih step child hchild (h.child? hchild))

theorem merge_merge_self (hbase : base.WellFormed) (hoverlay : overlay.WellFormed) :
    (base.merge overlay).merge overlay = base.merge overlay := by
  induction overlay using childInduction generalizing base with
  | below overlay ih =>
      by_cases hmeets : base.Meets overlay
      · obtain ⟨kind, -, hkind⟩ := id hmeets
        have hwhole := wellFormed_merge hbase hoverlay
        have hagain : (base.merge overlay).Meets overlay :=
          ⟨kind, (container?_merge base overlay).trans hkind, hkind⟩
        apply eq_of_child? ⟨kind, (container?_merge _ overlay).trans hkind,
          (container?_merge base overlay).trans hkind⟩
        · -- every key of the overlay is there after the first merge
          rw [keys_merge hagain hoverlay, List.filter_eq_nil_iff.mpr, List.append_nil]
          intro key hkey
          by_cases hbelow : key ∈ base.keys <;> simp [keys_merge hmeets hoverlay, hbelow, hkey]
        · exact nodup_keys (wellFormed_merge hwhole hoverlay)
        · intro step
          rw [child?_merge hagain hoverlay, child?_merge hmeets hoverlay]
          cases hover : overlay.child? step with
          | none => rw [laidOver_none]
          | some laid =>
              have hover' := hoverlay.child? hover
              cases hunder : base.child? step with
              | none => exact congrArg some (merge_self hover')
              | some under => exact congrArg some (ih step laid hover (hbase.child? hunder) hover')
      · rw [merge_of_not_meets hmeets, merge_self hoverlay]

/-! ### Two overlays merged first -/

/-- Wherever both have something, a container of the overlay is over a container of its kind. -/
def FitsOver (overlay base : Json) : Prop :=
  ∀ (route : Route) (below above : Json) (kind : Container), base.at? route = some below →
    overlay.at? route = some above → above.container? = some kind → below.container? = some kind

theorem FitsOver.child {below above : Json} (h : overlay.FitsOver base)
    (hbelow : base.child? step = some below) (habove : overlay.child? step = some above) :
    above.FitsOver below := by
  intro route under laid kind hunder hover hkind
  apply h (step :: route) under laid kind _ _ hkind
  · rw [at?_cons_of_some hbelow, hunder]
  · rw [at?_cons_of_some habove, hover]

theorem fitsOver_obj {members others : List (String × Json)}
    (h : ∀ key below above, Assoc.get? key members = some below →
      Assoc.get? key others = some above → above.FitsOver below) :
    (Json.obj others).FitsOver (.obj members) := by
  intro route below above kind hbelow habove hkind
  cases route with
  | nil =>
      obtain rfl := Option.some.inj hbelow
      obtain rfl := Option.some.inj habove
      exact hkind
  | cons step rest =>
      obtain ⟨under, hunder, hlower⟩ := exists_child?_of_at?_cons hbelow
      obtain ⟨laid, hover, hupper⟩ := exists_child?_of_at?_cons habove
      cases step with
      | member key => exact h key under laid hunder hover rest below above kind hlower hupper hkind
      | item place => cases hunder

theorem laidOver_assoc {x y z : Option Json}
    (h : ∀ a b c, x = some a → y = some b → z = some c →
      (a.merge b).merge c = a.merge (b.merge c)) :
    laidOver (laidOver x y) z = laidOver x (laidOver y z) := by
  cases z with
  | none => rw [laidOver_none, laidOver_none]
  | some c =>
      cases y with
      | none => cases x <;> rfl
      | some b =>
          cases x with
          | none => rfl
          | some a => exact congrArg some (h a b c rfl rfl rfl)

theorem append_filter_notMem_assoc (first second third : List String) :
    (first ++ second.filter (· ∉ first)) ++
        third.filter (· ∉ first ++ second.filter (· ∉ first)) =
      first ++ (second ++ third.filter (· ∉ second)).filter (· ∉ first) := by
  rw [List.filter_append, List.filter_filter, List.append_assoc]
  congr 2
  apply List.filter_congr
  intro key _
  by_cases hkey : key ∈ first <;> simp [hkey]

theorem merge_assoc {middle top : Json} (hbase : base.WellFormed) (hmiddle : middle.WellFormed)
    (htop : top.WellFormed) (hfits : top.FitsOver middle) :
    (base.merge middle).merge top = base.merge (middle.merge top) := by
  induction top using childInduction generalizing base middle with
  | below top ih =>
      cases hkind : top.container? with
      | none => simp only [merge_of_container?_eq_none hkind]
      | some kind =>
          have hunder : middle.container? = some kind := hfits [] middle top kind rfl rfl hkind
          have hjoined := (container?_merge middle top).trans hkind
          have hmeets : middle.Meets top := ⟨kind, hunder, hkind⟩
          by_cases hbelow : base.Meets middle
          · have hmerged := (container?_merge base middle).trans hunder
            have hleft : (base.merge middle).Meets top := ⟨kind, hmerged, hkind⟩
            have hright : base.Meets (middle.merge top) := by
              obtain ⟨other, hbaseKind, hother⟩ := hbelow
              exact ⟨other, hbaseKind, hjoined.trans (hunder.symm.trans hother)⟩
            have htogether := wellFormed_merge hmiddle htop
            apply eq_of_child? ⟨kind, (container?_merge _ top).trans hkind,
              (container?_merge base _).trans hjoined⟩
            · rw [keys_merge hleft htop, keys_merge hbelow hmiddle, keys_merge hright htogether,
                keys_merge hmeets htop]
              exact append_filter_notMem_assoc base.keys middle.keys top.keys
            · exact nodup_keys (wellFormed_merge (wellFormed_merge hbase hmiddle) htop)
            · intro step
              rw [child?_merge hleft htop, child?_merge hbelow hmiddle,
                child?_merge hright htogether, child?_merge hmeets htop]
              apply laidOver_assoc
              intro a b c ha hb hc
              exact ih step c hc (hbase.child? ha) (hmiddle.child? hb) (htop.child? hc)
                (hfits.child hb hc)
          · have hapart : ¬ base.Meets (middle.merge top) := by
              rintro ⟨other, hbaseKind, hother⟩
              exact hbelow ⟨other, hbaseKind, hunder.trans (hjoined.symm.trans hother)⟩
            rw [merge_of_not_meets hbelow, merge_of_not_meets hapart]

/-- Where the overlay has nothing, whatever the merge has is the base's. -/
theorem at?_merge_of_base (hoverlay : overlay.WellFormed) {route : Route} {found : Json}
    (habsent : overlay.at? route = none) (h : (base.merge overlay).at? route = some found) :
    base.at? route = some found := by
  obtain ⟨front, step, rest, here, rfl, hhere, hend⟩ := exists_end_of_at?_eq_none habsent
  obtain ⟨hkept, hgone⟩ := at?_merge_beyond base hoverlay hhere hend rest
  by_cases hboth : ∃ below, base.at? front = some below ∧ below.Meets here
  · rw [← hkept hboth, h]
  · cases (hgone hboth).symm.trans h

/-- What fits over two values fits over the one laid over the other. -/
theorem FitsOver.merge {lower upper : Json} (hlower : overlay.FitsOver lower)
    (hupper : overlay.FitsOver upper) (h : upper.WellFormed) :
    overlay.FitsOver (lower.merge upper) := by
  intro route found above kind hfound habove hkind
  cases hover : upper.at? route with
  | none => exact hlower route found above kind (at?_merge_of_base h hover hfound) habove hkind
  | some laid =>
      obtain ⟨value, hvalue, hsame, -⟩ := (overlaidAt_merge lower h route).written laid hover
      obtain rfl := Option.some.inj (hvalue.symm.trans hfound)
      rw [hsame]
      exact hupper route laid above kind hover habove hkind

theorem foldl_merge_eq {first : Json} {rest : List Json} (hbase : base.WellFormed)
    (hnodes : ∀ node ∈ first :: rest, node.WellFormed)
    (hfits : (first :: rest).Pairwise fun below above => above.FitsOver below) :
    (first :: rest).foldl merge base = base.merge (rest.foldl merge first) := by
  induction rest generalizing first with
  | nil => rfl
  | cons second rest ih =>
      obtain ⟨hfirst, hsecond, hrest⟩ := List.forall_mem_cons.mp hnodes |>.imp_right
        List.forall_mem_cons.mp
      obtain ⟨hover, hlater⟩ := List.pairwise_cons.mp hfits
      obtain ⟨hoverSecond, hlater⟩ := List.pairwise_cons.mp hlater
      have hjoined := wellFormed_merge hfirst hsecond
      have htogether : ((first.merge second) :: rest).Pairwise
          fun below above => above.FitsOver below := by
        refine List.pairwise_cons.mpr ⟨?_, hlater⟩
        intro above habove
        exact (hover above (List.mem_cons_of_mem _ habove)).merge (hoverSecond above habove) hsecond
      calc (first :: second :: rest).foldl merge base
          = rest.foldl merge ((base.merge first).merge second) := rfl
        _ = rest.foldl merge (base.merge (first.merge second)) := by
          rw [merge_assoc hbase hfirst hsecond (hover second List.mem_cons_self)]
        _ = base.merge (rest.foldl merge (first.merge second)) :=
          ih (List.forall_mem_cons.mpr ⟨hjoined, hrest⟩) htogether

theorem without_put_self (node : Json) (key : String) (value : Json) :
    (node.put key value).without key = node.without key := by
  cases node with
  | obj members => exact congrArg Json.obj (Assoc.erase_put_self key value members)
  | _ => rfl

theorem WellFormed.get?_without_self (h : node.WellFormed) (key : String) :
    (node.without key).get? key = none := by
  cases node with
  | obj members => exact Assoc.get?_erase_self (wellFormed_obj_iff.mp h).1
  | _ => rfl

theorem erase_mergeMembers {key : String} {members above : List (String × Json)}
    (h : Assoc.get? key above = none) :
    Assoc.erase key (mergeMembers members above) = mergeMembers (Assoc.erase key members) above := by
  induction above generalizing members with
  | nil => rfl
  | cons entry rest ih =>
      obtain ⟨written, value⟩ := entry
      have hne : written ≠ key := by
        rintro rfl
        simp [Assoc.get?] at h
      rw [Assoc.get?, if_neg hne] at h
      rw [mergeMembers, ih h, Assoc.erase_put_of_ne hne, mergeMembers,
        Assoc.get?_erase_of_ne hne]

/-- Taking a member away that the overlay does not have may as well be done before. -/
theorem without_merge {key : String} (h : overlay.get? key = none) (base : Json) :
    (base.merge overlay).without key = (base.without key).merge overlay := by
  cases overlay with
  | obj above =>
      have hkeeps : Json.obj (Assoc.erase key above) = .obj above :=
        congrArg Json.obj (Assoc.erase_eq_self h)
      cases base with
      | obj members => exact congrArg Json.obj (erase_mergeMembers h)
      | _ => exact hkeeps
  | arr above => cases base <;> rfl
  | _ => rfl

end Json

/-! ### Branches and references -/

namespace Scope

variable {scope : Scope} {node : Json}

theorem withAllBranches_put (node value : Json) (branches : List Json) :
    withAllBranches (node.put Keyword.allOf.text value) branches = withAllBranches node branches := by
  rw [withAllBranches, withAllBranches, Json.without_put_self]

/-- Other branches in their place that make the same node compile to the same. -/
theorem compile_put_allOf {branches others : List Json}
    (hkind : classify node = .ok (.allOf branches)) (hothers : others ≠ [])
    (hsame : withAllBranches node others = withAllBranches node branches) :
    scope.compile (node.put Keyword.allOf.text (.arr others)) = scope.compile node := by
  have hdecides : Decides node .allOf (.arr branches) := describes_of_classify hkind
  have hput : Decides (node.put Keyword.allOf.text (.arr others)) .allOf (.arr others) :=
    decides_put hdecides (by simp)
  have hkind' : classify (node.put Keyword.allOf.text (.arr others)) = .ok (.allOf others) := by
    rw [classify_of_decides hput]
    cases others with
    | nil => exact absurd rfl hothers
    | cons first rest => rfl
  rw [compile_of_classify hkind, compile_of_classify hkind', compileKind, compileKind,
    compileAllOf_eq, compileAllOf_eq, withAllBranches_put, hsame]

theorem wellFormed_of_classify {branches : List Json} (hnode : node.WellFormed)
    (hkind : classify node = .ok (.allOf branches)) : ∀ branch ∈ branches, branch.WellFormed := by
  have hbranches : node.get? Keyword.allOf.text = some (.arr branches) :=
    Kind.get?_of_classify hkind
  exact Json.wellFormed_arr_iff.mp (hnode.get? hbranches)

/-- Branches that fit over each other may be merged into one. -/
theorem withAllBranches_eq {first : Json} {rest : List Json} (hnode : node.WellFormed)
    (hbranches : ∀ branch ∈ first :: rest, branch.WellFormed)
    (hfits : (first :: rest).Pairwise fun below above => above.FitsOver below) :
    withAllBranches node [rest.foldl Json.merge first] = withAllBranches node (first :: rest) :=
  (Json.foldl_merge_eq (hnode.without _) hbranches hfits).symm

/-- A branch may be repeated directly after itself. -/
theorem withAllBranches_repeated {branch : Json} {before after : List Json}
    (hnode : node.WellFormed)
    (hbranches : ∀ found ∈ before ++ branch :: after, found.WellFormed) :
    withAllBranches node (before ++ branch :: branch :: after) =
      withAllBranches node (before ++ branch :: after) := by
  obtain ⟨hbefore, hlater⟩ := List.forall_mem_append.mp hbranches
  have hbase := Json.wellFormed_foldl_merge (hnode.without Keyword.allOf.text) hbefore
  rw [withAllBranches, withAllBranches, List.foldl_append, List.foldl_append, List.foldl_cons,
    List.foldl_cons, List.foldl_cons, Json.merge_merge_self hbase (hlater branch List.mem_cons_self)]

end Scope

theorem Json.container?_without (node : Json) (key : String) :
    (node.without key).container? = node.container? := by
  cases node <;> rfl

theorem Json.get?_of_reference {node : Json} {pointer : String}
    (h : classify node = .ok (.reference pointer)) :
    node.get? Keyword.ref.text = some (.str pointer) := by
  have hdecides : Decides node .ref (.str pointer) := describes_of_classify h
  exact get?_of_present? hdecides.present

/-- A reference with more laid over it that is none stays the same reference. -/
theorem classify_merge_of_reference {inner overlay : Json} {pointer : String}
    (hinner : classify inner = .ok (.reference pointer)) (hoverlay : overlay.WellFormed)
    (hobject : overlay.container? = some .object) (hbare : overlay.get? Keyword.ref.text = none) :
    classify (inner.merge overlay) = .ok (.reference pointer) := by
  have hwritten : inner.child? (.member Keyword.ref.text) = some (.str pointer) :=
    Json.get?_of_reference hinner
  have hmeets : inner.Meets overlay := ⟨.object, Json.container?_of_child? hwritten, hobject⟩
  have hget : (inner.merge overlay).get? Keyword.ref.text = some (.str pointer) := by
    have hmerged := Json.child?_merge hmeets hoverlay (.member Keyword.ref.text)
    rwa [hwritten, Json.child?, Json.child?, hbare, Json.laidOver_none] at hmerged
  apply classify_of_ref
  rw [Json.present?, hget]

/-- A reference to a reference has what stands beside it laid over the inner reference, which stays
one; its target is that of the inner one, with the outer overlay laid over it. -/
theorem Catalog.target_stacked {catalog : Catalog} {schema : String} {outer inner : Json}
    {reference : Reference} {pointer : String} (hcatalog : catalog.WellFormed)
    (houter : outer.WellFormed) (hreference : classify outer = .ok (.reference pointer))
    (hinner : catalog.resolve (reference.schemaOr schema) reference = .ok inner)
    (hfits : (outer.without Keyword.ref.text).FitsOver (inner.without Keyword.ref.text)) :
    ∃ stacked, catalog.target schema outer reference = .ok stacked ∧
      (∀ text, classify inner = .ok (.reference text) →
        classify stacked = .ok (.reference text)) ∧
      ∀ next, catalog.target (reference.schemaOr schema) stacked next =
        (fun found => found.merge (outer.without Keyword.ref.text)) <$>
          catalog.target (reference.schemaOr schema) inner next := by
  have habove := houter.without Keyword.ref.text
  have hbare := houter.get?_without_self Keyword.ref.text
  have hbelow := hcatalog.resolve hinner
  have hwritten : outer.child? (.member Keyword.ref.text) = some (.str pointer) :=
    Json.get?_of_reference hreference
  have hobject : (outer.without Keyword.ref.text).container? = some .object :=
    (outer.container?_without _).trans (Json.container?_of_child? hwritten)
  refine ⟨inner.merge (outer.without Keyword.ref.text), ?_, ?_, ?_⟩
  · rw [target, hinner]
    rfl
  · exact fun text hkind => classify_merge_of_reference hkind habove hobject hbare
  · intro next
    rw [target, target]
    cases hfound : catalog.resolve (next.schemaOr (reference.schemaOr schema)) next with
    | error e => rfl
    | ok found =>
        have hlaid := Json.merge_assoc (hcatalog.resolve hfound)
          (hbelow.without Keyword.ref.text) habove hfits
        rw [Json.without_merge hbare]
        exact congrArg Except.ok hlaid.symm

/-- Merging is associative where the last value fits over the one in the middle. So branches that fit
over each other may be merged into one branch first, and what stands beside a reference to a
reference may be laid over the inner overlay or over the inner target. -/
theorem merge_assoc_of_fitsOver :
    (∀ base middle top : Json, base.WellFormed → middle.WellFormed → top.WellFormed →
      top.FitsOver middle → (base.merge middle).merge top = base.merge (middle.merge top)) ∧
    (∀ (scope : Scope) (node first : Json) (rest : List Json), node.WellFormed →
      classify node = .ok (.allOf (first :: rest)) →
      (first :: rest).Pairwise (fun below above => above.FitsOver below) →
      Scope.withAllBranches node [rest.foldl Json.merge first] =
          Scope.withAllBranches node (first :: rest) ∧
        scope.compile (node.put Keyword.allOf.text (.arr [rest.foldl Json.merge first])) =
          scope.compile node) ∧
    (∀ (catalog : Catalog) (schema : String) (outer inner : Json) (reference : Reference)
      (pointer : String), catalog.WellFormed → outer.WellFormed →
      classify outer = .ok (.reference pointer) →
      catalog.resolve (reference.schemaOr schema) reference = .ok inner →
      (outer.without Keyword.ref.text).FitsOver (inner.without Keyword.ref.text) →
      ∃ stacked, catalog.target schema outer reference = .ok stacked ∧
        (∀ text, classify inner = .ok (.reference text) →
          classify stacked = .ok (.reference text)) ∧
        ∀ next, catalog.target (reference.schemaOr schema) stacked next =
          (fun found => found.merge (outer.without Keyword.ref.text)) <$>
            catalog.target (reference.schemaOr schema) inner next) := by
  refine ⟨?_, ?_, ?_⟩
  · intro base middle top hbase hmiddle htop hfits
    exact Json.merge_assoc hbase hmiddle htop hfits
  · intro scope node first rest hnode hkind hfits
    have hsame := Scope.withAllBranches_eq hnode (Scope.wellFormed_of_classify hnode hkind) hfits
    exact ⟨hsame, Scope.compile_put_allOf hkind (List.cons_ne_nil _ _) hsame⟩
  · intro catalog schema outer inner reference pointer hcatalog houter hreference hinner hfits
    exact catalog.target_stacked hcatalog houter hreference hinner hfits

/-- A value in the middle that is no container erases, unless it is merged away first. -/
example :
    let base : Json := .obj [("a", .null)]
    (base.merge .null).merge (.obj []) = .obj [] ∧ base.merge (Json.null.merge (.obj [])) = base :=
  ⟨rfl, rfl⟩

namespace Sample

def nullProperty : Json :=
  .obj [("properties", .obj [("a", leafNode)])]

def titledProperty : Json :=
  .obj [("properties", .obj [("a", .obj [("title", .str "x")]), ("b", .obj [])])]

def twoBranches : Json :=
  .obj [("allOf", .arr [nullProperty, titledProperty])]

/-- A node that refers to another schema, with the members of a node beside the reference. -/
def referBeside (pointer : String) (beside : Json) : Json :=
  (referTo pointer).merge beside

def stackedCatalog : Catalog :=
  ⟨[("inner", referBeside "leaf" nullProperty), ("leaf", document)], library⟩

theorem fitsOver_titledProperty : titledProperty.FitsOver nullProperty := by
  apply Json.fitsOver_obj
  intro key below above hbelow habove
  obtain ⟨rfl, rfl⟩ := Prod.mk.inj (List.mem_singleton.mp (Assoc.mem_of_get? hbelow))
  obtain rfl := Option.some.inj habove
  apply Json.fitsOver_obj
  intro key below above hbelow habove
  obtain ⟨rfl, rfl⟩ := Prod.mk.inj (List.mem_singleton.mp (Assoc.mem_of_get? hbelow))
  obtain rfl := Option.some.inj habove
  apply Json.fitsOver_obj
  intro key below above hbelow habove
  obtain ⟨rfl, rfl⟩ := Prod.mk.inj (List.mem_singleton.mp (Assoc.mem_of_get? hbelow))
  cases habove

theorem wellFormed_titledProperty : titledProperty.WellFormed := by
  simp [titledProperty, Json.WellFormed, Json.WellFormedMembers, Assoc.keys]

theorem wellFormed_nullProperty : nullProperty.WellFormed := by
  simp [nullProperty, leafNode, Json.WellFormed, Json.WellFormedMembers, Assoc.keys]

theorem wellFormed_twoBranches : twoBranches.WellFormed := by
  simp [twoBranches, Json.WellFormed, Json.WellFormedMembers, Json.WellFormedItems, Assoc.keys,
    wellFormed_titledProperty, wellFormed_nullProperty]

theorem wellFormed_referBeside {beside : Json} (h : beside.WellFormed) (pointer : String) :
    (referBeside pointer beside).WellFormed := by
  refine Json.wellFormed_merge ?_ h
  simp [referTo, Json.WellFormed, Json.WellFormedMembers, Assoc.keys]

theorem wellFormed_stackedCatalog : stackedCatalog.WellFormed := by
  intro name found hget
  have hmem := Assoc.mem_of_get? hget
  simp only [stackedCatalog, List.mem_cons, Prod.mk.injEq, List.not_mem_nil, or_false] at hmem
  rcases hmem with ⟨-, rfl⟩ | ⟨-, rfl⟩
  · exact wellFormed_referBeside wellFormed_nullProperty "leaf"
  · exact wellFormed_document

end Sample

theorem merge_assoc_of_fitsOver_titled :
    Sample.titledProperty.FitsOver Sample.nullProperty ∧
      (Sample.document.merge Sample.nullProperty).merge Sample.titledProperty =
        Sample.document.merge (Sample.nullProperty.merge Sample.titledProperty) ∧
      Sample.scope.compile (Sample.twoBranches.put Keyword.allOf.text
          (.arr [Sample.nullProperty.merge Sample.titledProperty])) =
        Sample.scope.compile Sample.twoBranches ∧
      ∃ stacked, Sample.stackedCatalog.target "sample"
          (Sample.referBeside "inner" Sample.titledProperty) ⟨some "inner", []⟩ = .ok stacked ∧
        classify stacked = .ok (.reference "leaf") ∧
        Sample.stackedCatalog.target "inner" stacked ⟨some "leaf", []⟩ =
          .ok ((Sample.document.merge Sample.nullProperty).merge Sample.titledProperty) := by
  have hfits := Sample.fitsOver_titledProperty
  have hpair : [Sample.nullProperty, Sample.titledProperty].Pairwise
      fun below above => above.FitsOver below := by
    simp [hfits]
  obtain ⟨stacked, hstacked, hkind, htarget⟩ :=
    merge_assoc_of_fitsOver.2.2 Sample.stackedCatalog "sample"
      (Sample.referBeside "inner" Sample.titledProperty)
      (Sample.referBeside "leaf" Sample.nullProperty) ⟨some "inner", []⟩ "inner"
      Sample.wellFormed_stackedCatalog
      (Sample.wellFormed_referBeside Sample.wellFormed_titledProperty "inner") rfl rfl hfits
  exact ⟨hfits,
    merge_assoc_of_fitsOver.1 _ _ _ Sample.wellFormed_document Sample.wellFormed_nullProperty
      Sample.wellFormed_titledProperty hfits,
    (merge_assoc_of_fitsOver.2.1 Sample.scope _ _ [Sample.titledProperty]
      Sample.wellFormed_twoBranches rfl hpair).2,
    stacked, hstacked, hkind "leaf" rfl, htarget ⟨some "leaf", []⟩⟩

/-- Laying the same overlay over a value again changes nothing, and neither does laying a value over
itself. So a branch may be repeated directly after itself. -/
theorem merge_merge_of_repeated :
    (∀ base overlay : Json, base.WellFormed → overlay.WellFormed →
      (base.merge overlay).merge overlay = base.merge overlay) ∧
    (∀ node : Json, node.WellFormed → node.merge node = node) ∧
    (∀ (scope : Scope) (node branch : Json) (before after : List Json), node.WellFormed →
      classify node = .ok (.allOf (before ++ branch :: after)) →
      Scope.withAllBranches node (before ++ branch :: branch :: after) =
          Scope.withAllBranches node (before ++ branch :: after) ∧
        scope.compile (node.put Keyword.allOf.text
          (.arr (before ++ branch :: branch :: after))) = scope.compile node) := by
  refine ⟨?_, ?_, ?_⟩
  · exact fun base overlay hbase hoverlay => Json.merge_merge_self hbase hoverlay
  · exact fun node hnode => Json.merge_self hnode
  · intro scope node branch before after hnode hkind
    have hsame := Scope.withAllBranches_repeated hnode (Scope.wellFormed_of_classify hnode hkind)
    exact ⟨hsame, Scope.compile_put_allOf hkind (by simp) hsame⟩

theorem merge_merge_of_repeated_titled :
    Sample.titledProperty.WellFormed ∧ Sample.twoBranches.WellFormed ∧
      (Sample.document.merge Sample.titledProperty).merge Sample.titledProperty =
        Sample.document.merge Sample.titledProperty ∧
      Sample.document.merge Sample.document = Sample.document ∧
      Sample.scope.compile (Sample.twoBranches.put Keyword.allOf.text
          (.arr [Sample.nullProperty, Sample.titledProperty, Sample.titledProperty])) =
        Sample.scope.compile Sample.twoBranches :=
  ⟨Sample.wellFormed_titledProperty, Sample.wellFormed_twoBranches,
    merge_merge_of_repeated.1 _ _ Sample.wellFormed_document Sample.wellFormed_titledProperty,
    merge_merge_of_repeated.2.1 _ Sample.wellFormed_document,
    (merge_merge_of_repeated.2.2 Sample.scope _ Sample.titledProperty [Sample.nullProperty] []
      Sample.wellFormed_twoBranches rfl).2⟩

end Specimen
