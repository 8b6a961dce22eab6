import Specimen.Proofs.BoundEdges

/-!
# Written bounds

The bounds of an integer node are read as doubles. So read an inclusive bound is kept exactly, and an
exclusive one as long as the next integer inside is read as itself. A node with bounds on both sides
compiles when an integer of 64 bits keeps them.
-/

namespace Specimen

open Double

/-- A node of type integer whose bounds are written as integers of 64 bits. -/
structure WholeBounds (node : Json) : Prop where
  wellFormed : node.WellFormed
  kind : classify node = .ok (.single .integer)
  lower : WholeSide (node.value? "minimum") (node.value? "exclusiveMinimum")
  upper : WholeSide (node.value? "maximum") (node.value? "exclusiveMaximum")

/-- An integer lies between the written bounds, each of them as it is read, and strictly inside an
exclusive one whose next integer is exact. -/
structure Respects (read : Int → Int) (exact : Int → Prop) (node : Json) (n : Int) : Prop where
  minimum : ∀ b, node.value? "minimum" = some (.int b) → read b ≤ n
  maximum : ∀ b, node.value? "maximum" = some (.int b) → n ≤ read b
  exclusiveMinimum : ∀ b, Excludes (node.value? "minimum") (node.value? "exclusiveMinimum") b →
    read b ≤ n ∧ (exact (read b + 1) → read b < n)
  exclusiveMaximum : ∀ b, Excludes (node.value? "maximum") (node.value? "exclusiveMaximum") b →
    n ≤ read b ∧ (exact (read b - 1) → n < read b)

section Nodes

variable {node : Json} {c : Constraints} {range : IntegerRange} {n : Int} {low high : Bound}

theorem exists_lower_edge (hreads : Constraints.Reads (fun key => node.value? key) .none c)
    (hwhole : WholeBounds node) (hlow : c.lower = some low) :
    ∃ b, low.value.Denotes b ∧ Reachable b ∧ ∀ {next n}, Advances 1 next →
      (1 * edge next low.exclusive b ≤ 1 * n ↔
        Within 1 next (node.value? "minimum") (node.value? "exclusiveMinimum") n) := by
  refine exists_bound_edge (fun hx hy => ?_) hwhole.lower hreads.minimum hreads.exclusiveMinimum hlow
  rw [hx.max_eq hy, Int.one_mul, Int.one_mul]

theorem exists_upper_edge (hreads : Constraints.Reads (fun key => node.value? key) .none c)
    (hwhole : WholeBounds node) (hhigh : c.upper = some high) :
    ∃ b, high.value.Denotes b ∧ Reachable b ∧ ∀ {next n}, Advances (-1) next →
      (-1 * edge next high.exclusive b ≤ -1 * n ↔
        Within (-1) next (node.value? "maximum") (node.value? "exclusiveMaximum") n) := by
  refine exists_bound_edge (fun hx hy => ?_) hwhole.upper hreads.maximum hreads.exclusiveMaximum hhigh
  rw [hx.min_eq hy]
  exact if_congr (by omega) rfl rfl

theorem within_lower (hreads : Constraints.Reads (fun key => node.value? key) .none c)
    (hwhole : WholeBounds node) (hrange : IntegerRange.ofConstraints c = .ok range)
    (hn : range.min ≤ n) :
    Within 1 (readNext 1) (node.value? "minimum") (node.value? "exclusiveMinimum") n := by
  refine Within.of_bounded fun hwritten => ?_
  obtain ⟨low, hlow⟩ : ∃ low, c.lower = some low :=
    exists_bound hwritten hreads.minimum hreads.exclusiveMinimum
  obtain ⟨b, hb, hreach, hedge⟩ := exists_lower_edge hreads hwhole hlow
  have hleast := IntegerRange.least_of_ofConstraints hrange hlow
  rw [IntegerRange.least_eq hb hreach, Outcome.check_eq_ok] at hleast
  rw [← hedge (advances_readNext (.inl rfl))]
  omega

theorem within_upper (hreads : Constraints.Reads (fun key => node.value? key) .none c)
    (hwhole : WholeBounds node) (hrange : IntegerRange.ofConstraints c = .ok range)
    (hn : n ≤ range.max) :
    Within (-1) (readNext (-1)) (node.value? "maximum") (node.value? "exclusiveMaximum") n := by
  refine Within.of_bounded fun hwritten => ?_
  obtain ⟨high, hhigh⟩ : ∃ high, c.upper = some high :=
    exists_bound hwritten hreads.maximum hreads.exclusiveMaximum
  obtain ⟨b, hb, hreach, hedge⟩ := exists_upper_edge hreads hwhole hhigh
  have hgreatest := IntegerRange.greatest_of_ofConstraints hrange hhigh
  rw [IntegerRange.greatest_eq hb hreach, Except.ok.injEq] at hgreatest
  rw [← hedge (advances_readNext (.inr rfl))]
  omega

theorem respects_of_within (hwhole : WholeBounds node)
    (hlower : Within 1 (readNext 1) (node.value? "minimum") (node.value? "exclusiveMinimum") n)
    (hupper : Within (-1) (readNext (-1)) (node.value? "maximum") (node.value? "exclusiveMaximum") n) :
    Respects nearest Short node n where
  minimum b hb := by
    have hinside := hlower.bound b hb
    omega
  maximum b hb := by
    have hinside := hupper.bound b hb
    omega
  exclusiveMinimum b hb := by
    have hfits := hwhole.lower.fits hb
    have hinside := hlower.excluded b hb
    have hinner := (advances_readNext (.inl rfl)).le_next (reachable_of_fits hfits)
      (denotes_of_fits hfits).nearest
    refine ⟨by omega, fun hshort => ?_⟩
    rw [readNext, nearest_of_le hshort] at hinside
    omega
  exclusiveMaximum b hb := by
    have hfits := hwhole.upper.fits hb
    have hinside := hupper.excluded b hb
    have hinner := (advances_readNext (.inr rfl)).le_next (reachable_of_fits hfits)
      (denotes_of_fits hfits).nearest
    refine ⟨by omega, fun hshort => ?_⟩
    rw [readNext, ← Int.sub_eq_add_neg, nearest_of_le hshort] at hinside
    omega

/-- An integer strictly inside the bounds that are read does not pass the next ones. -/
theorem within_lower_of_respects (h : Respects nearest (fun _ => True) node n) :
    Within 1 (· + 1) (node.value? "minimum") (node.value? "exclusiveMinimum") n where
  bound b hb := by
    have hinside := h.minimum b hb
    omega
  excluded b hb := by
    have hinside := (h.exclusiveMinimum b hb).2 trivial
    omega

theorem within_upper_of_respects (h : Respects nearest (fun _ => True) node n) :
    Within (-1) (· + -1) (node.value? "maximum") (node.value? "exclusiveMaximum") n where
  bound b hb := by
    have hinside := h.maximum b hb
    omega
  excluded b hb := by
    have hinside := (h.exclusiveMaximum b hb).2 trivial
    omega

/-- Constraints are met by the multiples of their step between two edges. -/
theorem exists_ofConstraints_of_edges {l u : Int} (hlower : c.lower = some low)
    (hupper : c.upper = some high) (hl : low.value.Denotes l) (hu : high.value.Denotes u)
    (hlreach : Reachable l) (hureach : Reachable u)
    (hmin : edge (readNext 1) low.exclusive l ≤ n) (hmax : n ≤ edge (readNext (-1)) high.exclusive u)
    (hfits : n ≤ maxInt64)
    (hstep : ∀ step, c.multipleOf.bind IntegerRange.stepOf = some step → step ∣ n) :
    ∃ range, IntegerRange.ofConstraints c = .ok range := by
  have hleast : IntegerRange.least low = .ok (edge (readNext 1) low.exclusive l) := by
    rw [IntegerRange.least_eq hl hlreach, if_neg]
    unfold maxInt64 at hfits
    omega
  exact IntegerRange.exists_ofConstraints hlower hupper hleast
    (IntegerRange.greatest_eq hu hureach) hmin (Int.le_min.mpr ⟨hmax, hfits⟩) hstep

/-- Two bounds are met when an integer of 64 bits lies inside both, as long as the constraints have no
step. -/
theorem exists_ofConstraints_of_respects
    (hreads : Constraints.Reads (fun key => node.value? key) .none c) (hwhole : WholeBounds node)
    (hlower : c.lower = some low) (hupper : c.upper = some high) (hfits : IntegerRange.Fits n)
    (hrespects : Respects nearest (fun _ => True) node n) (hstep : c.multipleOf = .none) :
    ∃ range, IntegerRange.ofConstraints c = .ok range := by
  obtain ⟨l, hl, hlreach, hledge⟩ := exists_lower_edge hreads hwhole hlower
  obtain ⟨u, hu, hureach, huedge⟩ := exists_upper_edge hreads hwhole hupper
  have hmin := (hledge (advances_add (.inl rfl))).mpr (within_lower_of_respects hrespects)
  have hmax := (huedge (advances_add (.inr rfl))).mpr (within_upper_of_respects hrespects)
  have hfit := edge_readNext_le low.exclusive hlreach hl.nearest
    (Int.le_trans (by omega) hfits.2)
  refine exists_ofConstraints_of_edges hlower hupper hl hu hlreach hureach (Int.le_refl _) ?_ hfit
    (by simp [hstep])
  rw [edge_readNext _ hl.nearest, edge_readNext _ hu.nearest]
  exact nearest_mono (natAbs_edge_le (.inl rfl) _ hlreach) (natAbs_edge_le (.inr rfl) _ hureach)
    (by omega)

/-- Where all exclusive bounds are exact, the integer may be a multiple of the step as well. -/
theorem exists_ofConstraints_of_short
    (hreads : Constraints.Reads (fun key => node.value? key) .none c) (hwhole : WholeBounds node)
    (hlower : c.lower = some low) (hupper : c.upper = some high) (hfits : IntegerRange.Fits n)
    (hrespects : Respects nearest (fun _ => True) node n)
    (hbelow : ∀ b, Excludes (node.value? "minimum") (node.value? "exclusiveMinimum") b →
      Short (nearest b + 1))
    (habove : ∀ b, Excludes (node.value? "maximum") (node.value? "exclusiveMaximum") b →
      Short (nearest b - 1))
    (hstep : ∀ step, c.multipleOf.bind IntegerRange.stepOf = some step → step ∣ n) :
    ∃ range, IntegerRange.ofConstraints c = .ok range := by
  obtain ⟨l, hl, hlreach, hledge⟩ := exists_lower_edge hreads hwhole hlower
  obtain ⟨u, hu, hureach, huedge⟩ := exists_upper_edge hreads hwhole hupper
  have hmin := (hledge (advances_readNext (.inl rfl))).mpr
    ((within_lower_of_respects hrespects).readNext_of_short hbelow)
  have hmax := (huedge (advances_readNext (.inr rfl))).mpr
    ((within_upper_of_respects hrespects).readNext_of_short habove)
  exact exists_ofConstraints_of_edges hlower hupper hl hu hlreach hureach (by omega) (by omega)
    hfits.2 hstep

/-- The written bounds and the `multipleOf` of a node allow an integer. A step is looked at only when
the exclusive bounds are exact. -/
structure Allows (node : Json) (n : Int) : Prop where
  fits : IntegerRange.Fits n
  respects : Respects nearest (fun _ => True) node n
  multiple : node.value? "multipleOf" = none ∨
    (∀ b, Excludes (node.value? "minimum") (node.value? "exclusiveMinimum") b →
      Short (nearest b + 1)) ∧
    (∀ b, Excludes (node.value? "maximum") (node.value? "exclusiveMaximum") b →
      Short (nearest b - 1)) ∧
    ∃ written x, ∃ factor : Int, node.value? "multipleOf" = some written ∧
      written.double? = some x ∧ x.value < 2 ^ 63 ∧ (n : ℚ) = factor * x.value

theorem exists_ofConstraints_of_allows
    (hreads : Constraints.Reads (fun key => node.value? key) .none c) (hwhole : WholeBounds node)
    (hbelow : Bounded (node.value? "minimum") (node.value? "exclusiveMinimum"))
    (habove : Bounded (node.value? "maximum") (node.value? "exclusiveMaximum"))
    (h : Allows node n) : ∃ range, IntegerRange.ofConstraints c = .ok range := by
  obtain ⟨low, hlow⟩ : ∃ low, c.lower = some low :=
    exists_bound hbelow hreads.minimum hreads.exclusiveMinimum
  obtain ⟨high, hhigh⟩ : ∃ high, c.upper = some high :=
    exists_bound habove hreads.maximum hreads.exclusiveMaximum
  have hread := hreads.multipleOf
  rcases h.multiple with hnone | ⟨hbelow, habove, written, x, factor, hwritten, hx, hsmall, hmultiple⟩
  · rw [hnone] at hread
    exact exists_ofConstraints_of_respects hreads hwhole hlow hhigh h.fits h.respects hread
  · rw [hwritten] at hread
    refine exists_ofConstraints_of_short hreads hwhole hlow hhigh h.fits h.respects hbelow habove ?_
    intro step hstep
    rw [hread.eq_of_double? hx, Option.bind_some] at hstep
    exact IntegerRange.dvd_of_stepOf hstep hsmall hmultiple

/-- What an integer node gives lies between its bounds as they are read, and a node with a number on
each side compiles when its constraints can be read and allow an integer. Integers of at most 53
binary digits are read as they are. -/
theorem respects_of_wholeBounds (engine : Pattern.Engine) (name : String)
    (hwhole : WholeBounds node) :
    (∀ generator, Scope.compile ⟨name, .standard engine⟩ node = .ok generator →
      ∀ catalog depth s, ∃ n t, generator.produce catalog (depth + 1) s = (.ok (.int n), t) ∧
        Respects nearest Short node n) ∧
    ((∃ c, Constraints.ofNode node = .ok c) →
      Bounded (node.value? "minimum") (node.value? "exclusiveMinimum") →
      Bounded (node.value? "maximum") (node.value? "exclusiveMaximum") →
      (∃ n, Allows node n) →
      ∃ generator, Scope.compile ⟨name, .standard engine⟩ node = .ok generator) ∧
    ∀ b, IntegerRange.Fits b → (Double.ofInt b).value = nearest b ∧ (Short b → nearest b = b) := by
  refine ⟨?_, ?_, fun b hb => ⟨(denotes_of_fits hb).value, nearest_of_le⟩⟩
  · intro generator hcompile catalog depth s
    obtain ⟨c, range, hread, hrange, rfl⟩ := (Scope.compile_integer_eq_ok hwhole.kind).mp hcompile
    have hreads := Constraints.reads_value? hwhole.wellFormed hread
    obtain ⟨n, t, hdrawn, ⟨hmin, hmax⟩, -⟩ := (IntegerRange.exact_of_ofConstraints hrange).sound s
    refine ⟨n, t, ?_, respects_of_within hwhole (within_lower hreads hwhole hrange hmin)
      (within_upper hreads hwhole hrange hmax)⟩
    exact Generator.produce_leaf hdrawn catalog depth
  · rintro ⟨c, hread⟩ hbelow habove ⟨n, hn⟩
    obtain ⟨range, hrange⟩ := exists_ofConstraints_of_allows
      (Constraints.reads_value? hwhole.wellFormed hread) hwhole hbelow habove hn
    exact ⟨_, (Scope.compile_integer_eq_ok hwhole.kind).mpr ⟨c, range, hread, hrange, rfl⟩⟩

end Nodes

/-! ### Small nodes -/

namespace Sample

/-- A node of type integer with some other members. -/
def integerNode (members : List (String × Json)) : Json :=
  .obj (("type", .str "integer") :: members)

/-- A lower bound of more than 53 digits that is marked as exclusive, an upper one that is exclusive
itself, and a step. -/
def markedNode : Json :=
  integerNode [("minimum", .int (-9007199254740993)), ("exclusiveMinimum", .bool true),
    ("exclusiveMaximum", .int 10), ("multipleOf", .int 7)]

section Sides

variable {b : Int}

theorem wholeSide_bound (h : IntegerRange.Fits b) : WholeSide (some (.int b)) none where
  bound := by
    rintro _ ⟨⟩
    exact ⟨b, rfl, h⟩
  excluded := by
    rintro _ ⟨⟩

theorem wholeSide_marked (h : IntegerRange.Fits b) :
    WholeSide (some (.int b)) (some (.bool true)) where
  bound := (wholeSide_bound h).bound
  excluded := by
    rintro _ ⟨⟩
    exact .inl ⟨true, rfl⟩

theorem wholeSide_excluded (h : IntegerRange.Fits b) : WholeSide none (some (.int b)) where
  bound := by
    rintro _ ⟨⟩
  excluded := by
    rintro _ ⟨⟩
    exact .inr ⟨b, rfl, h⟩

end Sides

theorem wholeBounds_markedNode : WholeBounds markedNode where
  wellFormed := by
    simp [markedNode, integerNode, Json.WellFormed, Json.WellFormedMembers, Assoc.keys, minInt64]
  kind := rfl
  lower := wholeSide_marked (by decide)
  upper := wholeSide_excluded (by decide)

theorem respects_markedNode : Respects nearest (fun _ => True) markedNode 7 where
  minimum := by
    rintro _ ⟨⟩
    decide +kernel
  maximum := by
    rintro _ ⟨⟩
  exclusiveMinimum := by
    rintro _ (⟨⟨⟩⟩ | ⟨-, ⟨⟩⟩)
    decide +kernel
  exclusiveMaximum := by
    rintro _ (⟨⟨⟩⟩ | ⟨⟨⟩, -⟩)
    decide +kernel

theorem allows_markedNode : Allows markedNode 7 where
  fits := by decide
  respects := respects_markedNode
  multiple := by
    have hseven : (Double.ofInt 7).Denotes 7 := denotes_ofInt_of_le (by decide)
    refine .inr ⟨?_, ?_, .int 7, Double.ofInt 7, 1, rfl, rfl, ?_, ?_⟩
    · rintro _ (⟨⟨⟩⟩ | ⟨-, ⟨⟩⟩)
      decide +kernel
    · rintro _ (⟨⟨⟩⟩ | ⟨⟨⟩, -⟩)
      decide +kernel
    · rw [hseven.value]
      decide
    · rw [hseven.value, Int.cast_one, one_mul]

theorem exists_compile_markedNode : ∃ generator,
    Scope.compile ⟨"Test", .standard⟩ markedNode = .ok generator ∧
      ∀ catalog depth s, ∃ n t, generator.produce catalog (depth + 1) s = (.ok (.int n), t) ∧
        Respects nearest Short markedNode n := by
  obtain ⟨hrespects, hcompiles, -⟩ := respects_of_wholeBounds .own "Test" wholeBounds_markedNode
  obtain ⟨generator, hgenerator⟩ :=
    hcompiles ⟨_, rfl⟩ ⟨_, .inl rfl⟩ ⟨_, .inr rfl⟩ ⟨7, allows_markedNode⟩
  exact ⟨generator, hgenerator, hrespects generator hgenerator⟩

/-! ### Bounds that are not kept as they are written -/

/-- A node gives an integer that does not lie between its bounds as they are written. -/
def Strays (node : Json) (n : Int) : Prop :=
  WholeBounds node ∧ ¬ Respects id (fun _ => True) node n ∧ ∃ generator t,
    Scope.compile ⟨"Test", .standard⟩ node = .ok generator ∧
      generator.produce ⟨[], .standard⟩ 1 (.mixed [0] 1) = (.ok (.int n), t)

/-- A node with an integer of 64 bits between its bounds as they are written does not compile. -/
def Refuses (node : Json) (n : Int) : Prop :=
  WholeBounds node ∧ Bounded (node.value? "minimum") (node.value? "exclusiveMinimum") ∧
    Bounded (node.value? "maximum") (node.value? "exclusiveMaximum") ∧
    IntegerRange.Fits n ∧ Respects id (fun _ => True) node n ∧
    ∀ generator, Scope.compile ⟨"Test", .standard⟩ node ≠ .ok generator

/-- A node of type integer with both inclusive bounds. -/
def betweenNode (min max : Int) (others : List (String × Json)) : Json :=
  integerNode (("minimum", .int min) :: ("maximum", .int max) :: others)

/-- A node of type integer with both exclusive bounds. -/
def insideNode (low high : Int) : Json :=
  integerNode [("exclusiveMinimum", .int low), ("exclusiveMaximum", .int high)]

section Nodes

variable {node : Json} {c : Constraints} {range : IntegerRange} {min max n : Int}
  {others : List (String × Json)}

theorem strays_of_ofConstraints (hwhole : WholeBounds node) (hread : Constraints.ofNode node = .ok c)
    (hrange : IntegerRange.ofConstraints c = .ok range)
    (hdraw : (range.draw (.mixed [0] 1)).1 = n) (hout : ¬ Respects id (fun _ => True) node n) :
    Strays node n := by
  refine ⟨hwhole, hout, .leaf range.leaf, (range.draw (.mixed [0] 1)).2,
    (Scope.compile_integer_eq_ok hwhole.kind).mpr ⟨c, range, hread, hrange, rfl⟩, ?_⟩
  have hgenerate := range.generate_leaf (.mixed [0] 1)
  rw [hdraw] at hgenerate
  exact Generator.produce_leaf hgenerate _ 0

theorem compile_ne_ok (hwhole : WholeBounds node)
    (h : ∀ c, Constraints.ofNode node = .ok c → ∃ e, IntegerRange.ofConstraints c = .error e)
    (generator : Generator) : Scope.compile ⟨"Test", .standard⟩ node ≠ .ok generator := by
  intro hcompile
  obtain ⟨c, range, hread, hrange, -⟩ := (Scope.compile_integer_eq_ok hwhole.kind).mp hcompile
  obtain ⟨e, herror⟩ := h c hread
  rw [herror] at hrange
  cases hrange

theorem wholeBounds_betweenNode (hmin : IntegerRange.Fits min) (hmax : IntegerRange.Fits max)
    (hkeys : ("type" :: "minimum" :: "maximum" :: Assoc.keys others).Nodup)
    (hothers : Json.WellFormedMembers others)
    (hlow : (betweenNode min max others).value? "exclusiveMinimum" = none)
    (hhigh : (betweenNode min max others).value? "exclusiveMaximum" = none)
    (hkind : classify (betweenNode min max others) = .ok (.single .integer)) :
    WholeBounds (betweenNode min max others) where
  wellFormed := ⟨hkeys, trivial, wellFormed_int hmin, wellFormed_int hmax, hothers⟩
  kind := hkind
  lower := by
    rw [hlow]
    exact wholeSide_bound hmin
  upper := by
    rw [hhigh]
    exact wholeSide_bound hmax

theorem respects_betweenNode (hmin : min ≤ n) (hmax : n ≤ max)
    (hlow : (betweenNode min max others).value? "exclusiveMinimum" = none)
    (hhigh : (betweenNode min max others).value? "exclusiveMaximum" = none) :
    Respects id (fun _ => True) (betweenNode min max others) n where
  minimum := by
    rintro _ ⟨⟩
    exact hmin
  maximum := by
    rintro _ ⟨⟩
    exact hmax
  exclusiveMinimum b hb := by
    rw [hlow] at hb
    obtain ⟨⟨⟩⟩ | ⟨⟨⟩, -⟩ := hb
  exclusiveMaximum b hb := by
    rw [hhigh] at hb
    obtain ⟨⟨⟩⟩ | ⟨⟨⟩, -⟩ := hb

theorem refuses_betweenNode (hwhole : WholeBounds (betweenNode min max others))
    (hn : IntegerRange.Fits n) (hmin : min ≤ n) (hmax : n ≤ max)
    (hlow : (betweenNode min max others).value? "exclusiveMinimum" = none)
    (hhigh : (betweenNode min max others).value? "exclusiveMaximum" = none)
    (h : ∀ c, Constraints.ofNode (betweenNode min max others) = .ok c →
      ∃ e, IntegerRange.ofConstraints c = .error e) : Refuses (betweenNode min max others) n :=
  ⟨hwhole, ⟨_, .inl rfl⟩, ⟨_, .inl rfl⟩, hn, respects_betweenNode hmin hmax hlow hhigh,
    compile_ne_ok hwhole h⟩

end Nodes

/-- The one integer that is allowed has no double. -/
theorem strays_single :
    Strays (betweenNode 9007199254740993 9007199254740993 []) 9007199254740992 := by
  have hwhole : WholeBounds (betweenNode 9007199254740993 9007199254740993 []) :=
    wholeBounds_betweenNode (by decide) (by decide) (by decide) trivial rfl rfl rfl
  have hrange : IntegerRange.ofConstraints (spacedBounds 9007199254740993 9007199254740993) =
      .ok ⟨9007199254740992, 9007199254740992, none⟩ := by decide +kernel
  refine strays_of_ofConstraints hwhole rfl hrange (by decide +kernel) fun h => ?_
  exact absurd (h.minimum _ rfl) (by decide)

/-- The integer between the two exclusive bounds has no double. -/
theorem strays_insideNode :
    Strays (insideNode 9007199254740992 9007199254740994) 9007199254740992 := by
  have hkeys : ["type", "exclusiveMinimum", "exclusiveMaximum"].Nodup := by decide
  have hwhole : WholeBounds (insideNode 9007199254740992 9007199254740994) :=
    { wellFormed :=
        ⟨hkeys, trivial, wellFormed_int (by decide), wellFormed_int (by decide), trivial⟩
      kind := rfl
      lower := wholeSide_excluded (by decide)
      upper := wholeSide_excluded (by decide) }
  have hrange : IntegerRange.ofConstraints { Constraints.none with
      exclusiveMinimum := some (.bound (Double.ofInt 9007199254740992))
      exclusiveMaximum := some (.bound (Double.ofInt 9007199254740994)) } =
        .ok ⟨9007199254740992, 9007199254740992, none⟩ := by decide +kernel
  refine strays_of_ofConstraints hwhole rfl hrange (by decide +kernel) fun h => ?_
  exact absurd ((h.exclusiveMinimum _ (.inl rfl)).2 trivial) (by decide)

/-- The greatest integer of 64 bits is read as the next one. -/
theorem refuses_greatest :
    Refuses (betweenNode 9223372036854775807 9223372036854775807 []) 9223372036854775807 := by
  refine refuses_betweenNode
    (wholeBounds_betweenNode (by decide) (by decide) (by decide) trivial rfl rfl rfl)
    (by decide) (by decide) (by decide) rfl rfl fun c hread => ?_
  have hrange : IntegerRange.ofConstraints
      (spacedBounds 9223372036854775807 9223372036854775807) =
        .error (.emptyRange (.lowerBeyond (Double.ofInt 9223372036854775807))) := by
    decide +kernel
  cases hread
  exact ⟨_, hrange⟩

theorem refuses_multiple : Refuses (betweenNode 5 5 [("multipleOf", .int 10)]) 5 := by
  refine refuses_betweenNode (wholeBounds_betweenNode (by decide) (by decide) (by decide)
    ⟨wellFormed_int (by decide), trivial⟩ rfl rfl rfl)
    (by decide) (by decide) (by decide) rfl rfl fun c hread => ?_
  have hrange : IntegerRange.ofConstraints
      { spacedBounds 5 5 with multipleOf := some (Double.ofInt 10) } =
        .error (.emptyRange (.multiples 10 5 5)) := by decide +kernel
  cases hread
  exact ⟨_, hrange⟩

/-- A keyword that bounds no integers is read all the same. -/
theorem refuses_unreadable : Refuses (betweenNode 5 5 [("minLength", .str "x")]) 5 := by
  refine refuses_betweenNode (wholeBounds_betweenNode (by decide) (by decide) (by decide)
    ⟨trivial, trivial⟩ rfl rfl rfl) (by decide) (by decide) (by decide) rfl rfl fun c hread => ?_
  cases hread

/-- Bounds that have no double are missed, and a node may be refused for a bound that is read as one
beyond 64 bits, for its `multipleOf`, or for another keyword. -/
theorem strays_and_refuses :
    (Strays (betweenNode 9007199254740993 9007199254740993 []) 9007199254740992 ∧
      Strays (insideNode 9007199254740992 9007199254740994) 9007199254740992) ∧
    Refuses (betweenNode 9223372036854775807 9223372036854775807 []) 9223372036854775807 ∧
      Refuses (betweenNode 5 5 [("multipleOf", .int 10)]) 5 ∧
      Refuses (betweenNode 5 5 [("minLength", .str "x")]) 5 :=
  ⟨⟨strays_single, strays_insideNode⟩, refuses_greatest, refuses_multiple, refuses_unreadable⟩

end Sample

end Specimen
