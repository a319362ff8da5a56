import PetsServer.Foundations.Run

/-!
# Counting the steps of a run

`total step cost s as` adds up what the steps of a run cost, each by the action and the state it is
taken in. `total_le_of_last` is the potential method: when a step's cost and the potential after it
are together at most its credit and the potential before it, then the same holds of a whole run.
This need be known only as long as a condition holds, which goes back from the last state to all
others: so one counts the steps it can take until a goal is reached.
-/

namespace Foundations

variable {σ α : Type*} {step : σ → α → Option σ}

/-- What the steps of the run of `as` from `s` cost together. -/
def total (step : σ → α → Option σ) (cost : σ → α → ℕ) (s : σ) : List α → ℕ
  | [] => 0
  | a :: as =>
    match step s a with
    | none => 0
    | some t => cost s a + total step cost t as

theorem total_cons {cost : σ → α → ℕ} {s t : σ} {a : α} (h : step s a = some t) (as : List α) :
    total step cost s (a :: as) = cost s a + total step cost t as := by
  rw [total, h]

@[simp] theorem total_zero (s : σ) (as : List α) : total step (fun _ _ => 0) s as = 0 := by
  induction as generalizing s with
  | nil => rfl
  | cons a as ih =>
    unfold total
    split
    · rfl
    · rw [ih]

/-- A run in two parts. -/
theorem total_append {cost : σ → α → ℕ} {s m : σ} {as : List α} (h : run step s as = some m)
    (bs : List α) :
    total step cost s (as ++ bs) = total step cost s as + total step cost m bs := by
  induction as generalizing s with
  | nil =>
    obtain rfl := Option.some.inj h
    exact (Nat.zero_add _).symm
  | cons a as ih =>
    obtain ⟨t, ht, hrun⟩ := run_cons_eq_some.mp h
    rw [List.cons_append, total_cons ht, total_cons ht, ih hrun, Nat.add_assoc]

/-- A run extended by one step. -/
theorem total_snoc {cost : σ → α → ℕ} {s m t : σ} {as : List α} {a : α}
    (h : run step s as = some m) (ht : step m a = some t) :
    total step cost s (as ++ [a]) = total step cost s as + cost m a := by
  rw [total_append h, total_cons ht, total, Nat.add_zero]

/-- **The potential method under a condition on the last state.** The potential and the condition
may depend on the actions taken. -/
theorem total_le_of_last {s₀ : σ} (cost credit : σ → α → ℕ) (cond : List α → σ → Prop)
    (Φ : List α → σ → ℕ)
    (hback : ∀ pre s a t, run step s₀ pre = some s → step s a = some t → cond (pre ++ [a]) t →
      cond pre s)
    (hstep : ∀ pre s a t, run step s₀ pre = some s → cond pre s → step s a = some t →
      cost s a + Φ (pre ++ [a]) t ≤ credit s a + Φ pre s)
    {s : σ} {as : List α} (hlast : cond as s) (h : run step s₀ as = some s) :
    total step cost s₀ as + Φ as s ≤ total step credit s₀ as + Φ [] s₀ := by
  refine run_induction (fun as s => cond as s →
    total step cost s₀ as + Φ as s ≤ total step credit s₀ as + Φ [] s₀) (fun _ => Nat.le_refl _) ?_
    as s h hlast
  intro pre s a t hrun ih ht hcond
  have hcs := hback pre s a t hrun ht hcond
  have hle := hstep pre s a t hrun hcs ht
  have hpre := ih hcs
  rw [total_snoc hrun ht, total_snoc hrun ht]
  omega

end Foundations
