import Specimen.Proofs.Agreement

/-!
# Unfolded references

A generator unfolds to another one that is built alike, except that where the first has references
the second may have what their targets compile to. The two run alike: looking a reference up takes
no draws, so it costs depth and nothing else. How often there is something to look up or to build is
counted, and so is the depth that suffices.
-/

namespace Specimen

/-- A generator is built like another from parts that unfold, or is a reference and what its target
compiles to unfolds. -/
inductive UnfoldsBy (catalog : Catalog) (R : Generator → Generator → Prop) :
    Generator → Generator → Prop where
  | alike {g h : Generator} (alike : Generator.Alike catalog.library R g h) :
      UnfoldsBy catalog R g h
  | reference {schema : String} {target : Reference} {overlay : Json} {found h : Generator}
      (compiled : Generator.dereference catalog schema target overlay = .ok found)
      (unfolds : R found h) : UnfoldsBy catalog R (.reference schema target overlay) h

/-- A generator unfolds to another in so many steps. -/
def Generator.Unfolds (catalog : Catalog) : Nat → Generator → Generator → Prop
  | 0 => fun _ _ => False
  | steps + 1 => UnfoldsBy catalog (Generator.Unfolds catalog steps)

/-- A draft unfolds to another in so many steps. -/
def Draft.Unfolds (catalog : Catalog) : Nat → Draft → Draft → Prop
  | 0 => fun _ _ => False
  | steps + 1 => Draft.Alike (Generator.Unfolds catalog steps) (Draft.Unfolds catalog steps)

/-- Runs that have no value are halted alike, and only for want of room or for a library whose picks
go astray. -/
def Halt.Strays (library : Library) (halt other : Halt) : Prop :=
  halt = other ∧ (library.PicksInRange → ∃ cause, halt = .overflow cause)

section Unfolding

variable {catalog other : Catalog} {steps depth lower : Nat}

/-! ### More steps -/

theorem UnfoldsBy.imp {R S : Generator → Generator → Prop} {g h : Generator}
    (hunfolds : UnfoldsBy catalog R g h) (himp : ∀ g h, R g h → S g h) :
    UnfoldsBy catalog S g h := by
  cases hunfolds with
  | alike alike => exact .alike (alike.imp himp)
  | reference compiled unfolds => exact .reference compiled (himp _ _ unfolds)

theorem Generator.Unfolds.succ {g h : Generator} (hunfolds : g.Unfolds catalog steps h) :
    g.Unfolds catalog (steps + 1) h := by
  induction steps generalizing g h with
  | zero => exact hunfolds.elim
  | succ steps ih => exact UnfoldsBy.imp hunfolds fun _ _ => ih

theorem Draft.Unfolds.succ {a b : Draft} (hunfolds : a.Unfolds catalog steps b) :
    a.Unfolds catalog (steps + 1) b := by
  induction steps generalizing a b with
  | zero => exact hunfolds.elim
  | succ steps ih =>
      exact Draft.Alike.imp hunfolds (fun _ _ => Generator.Unfolds.succ) fun _ _ => ih

/-! ### Runs -/

theorem Generator.Unfolds.generate {g h : Generator} (hunfolds : g.Unfolds catalog steps h)
    (hdepth : steps ≤ depth) (hlower : steps ≤ lower) :
    Run.Agree (Halt.Strays catalog.library) (Draft.Unfolds catalog steps)
      (g.generate catalog depth) (h.generate other lower) := by
  induction steps generalizing g h depth lower with
  | zero => exact hunfolds.elim
  | succ steps ih =>
      have hdepth_ne : depth ≠ 0 := by omega
      obtain ⟨depth, rfl⟩ := Nat.exists_eq_succ_of_ne_zero hdepth_ne
      have hdepth := Nat.le_of_succ_le_succ hdepth
      cases hunfolds with
      | alike alike =>
          have hlower_ne : lower ≠ 0 := by omega
          obtain ⟨lower, rfl⟩ := Nat.exists_eq_succ_of_ne_zero hlower_ne
          have hlower := Nat.le_of_succ_le_succ hlower
          exact alike.generate (fun hrange => ⟨rfl, fun h => absurd h hrange⟩)
            (fun cause => ⟨rfl, fun _ => ⟨cause, rfl⟩⟩) (fun _ _ => Draft.Unfolds.succ)
            (fun _ _ hbuilt => hbuilt) fun _ _ hpart => ih hpart hdepth hlower
      | @reference schema target overlay found _ compiled unfolds =>
          have hlookup : (Generator.reference schema target overlay).generate catalog
              (depth + 1) = found.generate catalog depth := by
            rw [Generator.generate, compiled]
            rfl
          have hfound := ih unfolds hdepth (Nat.le_of_succ_le hlower)
          rw [hlookup]
          exact hfound.imp (fun _ _ he => he) fun _ _ => Draft.Unfolds.succ

theorem Draft.Unfolds.resolve {a b : Draft} (hunfolds : a.Unfolds catalog steps b)
    (hdepth : steps ≤ depth) (hlower : steps ≤ lower) :
    Run.Agree (Halt.Strays catalog.library) Eq (a.resolve catalog depth)
      (b.resolve other lower) := by
  induction steps generalizing a b depth lower with
  | zero => exact hunfolds.elim
  | succ steps ih =>
      have hdepth_ne : depth ≠ 0 := by omega
      have hlower_ne : lower ≠ 0 := by omega
      obtain ⟨depth, rfl⟩ := Nat.exists_eq_succ_of_ne_zero hdepth_ne
      obtain ⟨lower, rfl⟩ := Nat.exists_eq_succ_of_ne_zero hlower_ne
      have hdepth := Nat.le_of_succ_le_succ hdepth
      have hlower := Nat.le_of_succ_le_succ hlower
      exact Draft.Alike.resolve hunfolds (fun _ _ hpart => hpart.generate hdepth hlower)
        fun _ _ hpart => ih hpart hdepth hlower

/-- A generator and what it unfolds to give the same value and leave the same source. -/
theorem Generator.Unfolds.produce {g h : Generator} (hunfolds : g.Unfolds catalog steps h)
    (hdepth : steps ≤ depth) (hlower : steps ≤ lower) :
    Run.Agree (Halt.Strays catalog.library) Eq (g.produce catalog depth)
      (h.produce other lower) := by
  apply Run.agree_bind (hunfolds.generate hdepth hlower)
  intro a b hab
  exact hab.resolve hdepth hlower

end Unfolding

end Specimen
