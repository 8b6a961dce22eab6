import Mathlib.Data.List.Forall2
import Specimen.Materialize

/-!
# Successful runs

A computation that may fail takes a state and gives an answer and the next state. What a successful
run of a composed one did is taken apart here once: each part ran, and the next part started in the
state the part before it left. A failed run stopped in the part that failed.
-/

namespace Specimen

namespace Run

variable {ε σ α β : Type}

theorem bind_apply (x : ExceptT ε (StateM σ) α) (f : α → ExceptT ε (StateM σ) β) (s : σ) :
    (x >>= f) s = match x s with
      | (.ok a, t) => f a t
      | (.error e, t) => (.error e, t) := by
  change (ExceptT.bindCont f (x s).1) (x s).2 = _
  rcases x s with ⟨_ | _, _⟩ <;> rfl

theorem bind_eq_ok {x : ExceptT ε (StateM σ) α} {f : α → ExceptT ε (StateM σ) β} {s u : σ}
    {b : β} : (x >>= f) s = (.ok b, u) ↔ ∃ a t, x s = (.ok a, t) ∧ f a t = (.ok b, u) := by
  rw [bind_apply]
  constructor
  · intro h
    split at h
    case h_1 a t hx => exact ⟨a, t, hx, h⟩
    case h_2 e t hx => cases h
  · rintro ⟨a, t, hx, hf⟩
    rw [hx]
    exact hf

theorem pure_eq_ok {a b : α} {s t : σ} :
    (pure a : ExceptT ε (StateM σ) α) s = (.ok b, t) ↔ a = b ∧ s = t := by
  change ((Except.ok a, s) : Except ε α × σ) = (.ok b, t) ↔ _
  simp

theorem throw_ne_ok {e : ε} {b : α} {s t : σ} :
    (throw e : ExceptT ε (StateM σ) α) s ≠ (.ok b, t) := by
  change ((Except.error e, s) : Except ε α × σ) ≠ (.ok b, t)
  simp

theorem throw_eq_error {e f : ε} {s t : σ} :
    (throw e : ExceptT ε (StateM σ) α) s = (.error f, t) ↔ e = f ∧ s = t := by
  change ((Except.error e, s) : Except ε α × σ) = (.error f, t) ↔ _
  simp

theorem lift_eq_ok {x : StateM σ α} {b : α} {s t : σ} :
    (ExceptT.lift x : ExceptT ε (StateM σ) α) s = (.ok b, t) ↔ x s = (b, t) := by
  change ((Except.ok (x s).1, (x s).2) : Except ε α × σ) = (.ok b, t) ↔ _
  rcases x s with ⟨a, u⟩
  constructor
  · rintro ⟨⟩
    rfl
  · rintro ⟨⟩
    rfl

/-- Renaming the errors of a computation leaves its results and states as they are. -/
theorem adapt_apply {κ : Type} (f : ε → κ) (x : ExceptT ε (StateM σ) α) (s : σ) :
    (ExceptT.adapt f x) s = ((x s).1.mapError f, (x s).2) :=
  rfl

theorem adapt_eq_ok {κ : Type} {f : ε → κ} {x : ExceptT ε (StateM σ) α} {a : α} {s t : σ} :
    (ExceptT.adapt f x) s = (.ok a, t) ↔ x s = (.ok a, t) := by
  rw [adapt_apply]
  rcases x s with ⟨cause | b, u⟩
  · constructor <;> rintro ⟨⟩
  · constructor <;> rintro ⟨⟩ <;> rfl

theorem adapt_eq_error {κ : Type} {f : ε → κ} {x : ExceptT ε (StateM σ) α} {e : κ} {s t : σ} :
    (ExceptT.adapt f x) s = (.error e, t) ↔ ∃ cause, x s = (.error cause, t) ∧ f cause = e := by
  rw [adapt_apply]
  rcases x s with ⟨cause | b, u⟩
  · constructor
    · rintro ⟨⟩
      exact ⟨cause, rfl, rfl⟩
    · rintro ⟨_, ⟨⟩, rfl⟩
      rfl
  · constructor
    · rintro ⟨⟩
    · rintro ⟨_, ⟨⟩, -⟩

theorem bind_congr_left {x y : ExceptT ε (StateM σ) α} {f : α → ExceptT ε (StateM σ) β} {s : σ}
    (h : x s = y s) : (x >>= f) s = (y >>= f) s := by
  rw [bind_apply, bind_apply, h]

theorem bind_eq_error {x : ExceptT ε (StateM σ) α} {f : α → ExceptT ε (StateM σ) β} {s u : σ}
    {e : ε} : (x >>= f) s = (.error e, u) ↔
      x s = (.error e, u) ∨ ∃ a t, x s = (.ok a, t) ∧ f a t = (.error e, u) := by
  rw [bind_apply]
  constructor
  · intro h
    split at h
    case h_1 a t hx => exact .inr ⟨a, t, hx, h⟩
    case h_2 e' t hx =>
      cases h
      exact .inl hx
  · rintro (hx | ⟨a, t, hx, hf⟩)
    · rw [hx]
    · rw [hx]
      exact hf

theorem pure_ne_error {a : α} {e : ε} {s t : σ} :
    (pure a : ExceptT ε (StateM σ) α) s ≠ (.error e, t) := by
  change ((Except.ok a, s) : Except ε α × σ) ≠ (.error e, t)
  simp

theorem lift_ne_error {x : StateM σ α} {e : ε} {s t : σ} :
    (ExceptT.lift x : ExceptT ε (StateM σ) α) s ≠ (.error e, t) := by
  change ((Except.ok (x s).1, (x s).2) : Except ε α × σ) ≠ (.error e, t)
  simp

/-- Two computations that do the same in every state a computation ends in may follow it alike. -/
theorem bind_congr_of_ok {x : ExceptT ε (StateM σ) α} {f g : α → ExceptT ε (StateM σ) β} {s : σ}
    (h : ∀ a t, x s = (.ok a, t) → f a t = g a t) : (x >>= f) s = (x >>= g) s := by
  rw [bind_apply, bind_apply]
  split
  case h_1 a t hx => exact h a t hx
  case h_2 => rfl

/-- The states between which the members of one list became those of another, one after the
other. -/
inductive Steps (f : α → ExceptT ε (StateM σ) β) : List α → σ → List β → σ → Prop where
  | nil {s : σ} : Steps f [] s [] s
  | cons {a : α} {as : List α} {b : β} {bs : List β} {s t u : σ} (first : f a s = (.ok b, t))
      (rest : Steps f as t bs u) : Steps f (a :: as) s (b :: bs) u

theorem mapM_eq_ok {f : α → ExceptT ε (StateM σ) β} {as : List α} {bs : List β} {s u : σ} :
    as.mapM f s = (.ok bs, u) ↔ Steps f as s bs u := by
  induction as generalizing bs s with
  | nil =>
      rw [List.mapM_nil, pure_eq_ok]
      constructor
      · rintro ⟨rfl, rfl⟩
        exact .nil
      · rintro ⟨⟩
        exact ⟨rfl, rfl⟩
  | cons a as ih =>
      simp only [List.mapM_cons, bind_eq_ok, pure_eq_ok]
      constructor
      · rintro ⟨b, t, hfirst, rest, _, hrest, rfl, rfl⟩
        exact .cons hfirst (ih.mp hrest)
      · rintro ⟨⟩
        rename_i hfirst hrest
        exact ⟨_, _, hfirst, _, _, ih.mpr hrest, rfl, rfl⟩

theorem Steps.forall₂ {f : α → ExceptT ε (StateM σ) β} {as : List α} {bs : List β} {s u : σ}
    (h : Steps f as s bs u) : List.Forall₂ (fun a b => ∃ s t, f a s = (.ok b, t)) as bs := by
  induction h with
  | nil => exact .nil
  | cons first _ ih => exact .cons ⟨_, _, first⟩ ih

/-! ### What two runs do alike -/

/-- However a computation ends, it keeps a property of states. -/
def Keeps (P : σ → Prop) (x : ExceptT ε (StateM σ) α) : Prop :=
  ∀ s, P s → P (x s).2

/-- Two computations do the same in every state with a property, and end in one with it again. -/
def Same (P : σ → Prop) (x y : ExceptT ε (StateM σ) α) : Prop :=
  ∀ s, P s → x s = y s ∧ P (x s).2

variable {P : σ → Prop}

theorem Same.keeps {x y : ExceptT ε (StateM σ) α} (h : Same P x y) : Keeps P x :=
  fun s hs => (h s hs).2

theorem same_pure (a : α) :
    Same P (pure a : ExceptT ε (StateM σ) α) (pure a) :=
  fun _ h => ⟨rfl, h⟩

theorem same_throw (e : ε) :
    Same P (throw e : ExceptT ε (StateM σ) α) (throw e) :=
  fun _ h => ⟨rfl, h⟩

theorem same_bind {x y : ExceptT ε (StateM σ) α} {f g : α → ExceptT ε (StateM σ) β}
    (hxy : Same P x y) (hfg : ∀ a, Same P (f a) (g a)) : Same P (x >>= f) (y >>= g) := by
  intro s h
  obtain ⟨heq, hnext⟩ := hxy s h
  rw [bind_apply, bind_apply, ← heq]
  rcases hrun : x s with ⟨_ | a, t⟩
  · rw [hrun] at hnext
    exact ⟨rfl, hnext⟩
  · rw [hrun] at hnext
    exact hfg a t hnext

theorem same_mapM {f g : α → ExceptT ε (StateM σ) β} (h : ∀ a, Same P (f a) (g a))
    (as : List α) : Same P (as.mapM f) (as.mapM g) := by
  induction as with
  | nil => exact same_pure []
  | cons a as ih =>
      rw [List.mapM_cons, List.mapM_cons]
      exact same_bind (h a) fun b => same_bind ih fun bs => same_pure (b :: bs)

end Run

/-! ### Lists whose members go together -/

section Pairwise

variable {α β γ : Type} {R : α → β → Prop} {S : β → γ → Prop} {T : α → γ → Prop}

theorem forall₂_chain {as : List α} {bs : List β} {cs : List γ}
    (h : ∀ a b c, R a b → S b c → T a c) (hleft : List.Forall₂ R as bs)
    (hright : List.Forall₂ S bs cs) : List.Forall₂ T as cs := by
  induction hleft generalizing cs with
  | nil =>
      cases hright
      exact .nil
  | cons hab _ ih =>
      cases hright with
      | cons hbc hrest => exact .cons (h _ _ _ hab hbc) (ih hrest)

theorem exists_mem_of_forall₂ {as : List α} {bs : List β} (h : List.Forall₂ R as bs) {b : β}
    (hb : b ∈ bs) : ∃ a ∈ as, R a b := by
  induction h with
  | nil => cases hb
  | cons hfirst _ ih =>
      rcases List.mem_cons.mp hb with rfl | hb
      · exact ⟨_, List.mem_cons_self, hfirst⟩
      · obtain ⟨a, ha, hab⟩ := ih hb
        exact ⟨a, List.mem_cons_of_mem _ ha, hab⟩

theorem forall₂_imp_of_mem {S : α → β → Prop} {as : List α} {bs : List β}
    (h : List.Forall₂ R as bs) (himp : ∀ a ∈ as, ∀ b ∈ bs, R a b → S a b) :
    List.Forall₂ S as bs := by
  induction h with
  | nil => exact .nil
  | cons hfirst _ ih =>
      have hrest := ih fun a ha b hb =>
        himp a (List.mem_cons_of_mem _ ha) b (List.mem_cons_of_mem _ hb)
      exact .cons (himp _ List.mem_cons_self _ List.mem_cons_self hfirst) hrest

theorem rel_cases {x : Option α} {y : Option β} (h : Option.Rel R x y) :
    (x = none ∧ y = none) ∨ ∃ a b, x = some a ∧ y = some b ∧ R a b := by
  cases h with
  | none => exact .inl ⟨rfl, rfl⟩
  | some related => exact .inr ⟨_, _, rfl, rfl, related⟩

theorem exists_of_rel_left {x : Option α} {y : Option β} {a : α} (h : Option.Rel R x y)
    (hx : x = some a) : ∃ b, y = some b ∧ R a b := by
  subst hx
  cases h with
  | some related => exact ⟨_, rfl, related⟩

theorem exists_of_rel_right {x : Option α} {y : Option β} {b : β} (h : Option.Rel R x y)
    (hy : y = some b) : ∃ a, x = some a ∧ R a b := by
  subst hy
  cases h with
  | some related => exact ⟨_, rfl, related⟩

theorem rel_self {R : α → α → Prop} (h : ∀ a, R a a) (x : Option α) : Option.Rel R x x := by
  cases x with
  | none => exact .none
  | some a => exact .some (h a)

theorem rel_imp {S : α → β → Prop} {x : Option α} {y : Option β} (h : Option.Rel R x y)
    (himp : ∀ a b, R a b → S a b) : Option.Rel S x y := by
  cases h with
  | none => exact .none
  | some related => exact .some (himp _ _ related)

theorem rel_getElem? {as : List α} {bs : List β} (h : List.Forall₂ R as bs) (place : Nat) :
    Option.Rel R as[place]? bs[place]? := by
  induction h generalizing place with
  | nil => exact .none
  | cons hfirst _ ih =>
      cases place with
      | zero => exact .some hfirst
      | succ place => exact ih place

theorem keys_eq_of_forall₂ {κ : Type} {Q : κ × α → κ × β → Prop} {entries : List (κ × α)}
    {others : List (κ × β)}
    (h : List.Forall₂ (fun entry other => entry.1 = other.1 ∧ Q entry other) entries others) :
    Assoc.keys entries = Assoc.keys others := by
  induction h with
  | nil => rfl
  | cons hfirst _ ih => exact congrArg₂ List.cons hfirst.1 ih

/-- Entries that go together under the same keys are found together. -/
theorem rel_get?_of_forall₂ {κ : Type} [DecidableEq κ] {Q : κ → α → β → Prop}
    {entries : List (κ × α)} {others : List (κ × β)}
    (h : List.Forall₂ (fun entry other => entry.1 = other.1 ∧ Q entry.1 entry.2 other.2)
      entries others) (key : κ) :
    Option.Rel (Q key) (Assoc.get? key entries) (Assoc.get? key others) := by
  induction h with
  | nil => exact .none
  | @cons entry other entries others hfirst _ ih =>
      obtain ⟨hsame, hrelated⟩ := hfirst
      rw [Assoc.get?, Assoc.get?, ← hsame]
      by_cases hkey : entry.1 = key
      · rw [if_pos hkey, if_pos hkey, ← hkey]
        exact .some hrelated
      · rw [if_neg hkey, if_neg hkey]
        exact ih

end Pairwise

end Specimen
