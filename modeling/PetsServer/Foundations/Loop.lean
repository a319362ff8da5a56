import Mathlib.Tactic.Common

/-!
# While loops with a way out

A loop body takes the loop's state and goes round again from a new state, leaves the loop with a
result, or fails. `loop` runs it with a bound on the number of passes; a body that decreases a
measure never reaches the bound (`loop_spec`), so that a loop run with enough passes behaves as
the unbounded loop does.
-/

namespace Foundations

universe u

variable {σ ρ τ ε : Type*}

/-- What both parts of a computation that does not fail have returned. -/
theorem except_bind_eq_ok {α β : Type u} {x : Except ε α} {f : α → Except ε β} {b : β} :
    x >>= f = .ok b ↔ ∃ a, x = .ok a ∧ f a = .ok b := by
  cases x <;> simp [bind, Except.bind]

/-- What one pass through a loop body does when it does not fail. -/
inductive Pass (σ ρ : Type*)
  /-- The next pass starts from `s`. -/
  | again (s : σ)
  /-- The loop ends with `r`. -/
  | leave (r : ρ)

/-- At most `n` passes of `body`; `stuck` stands for a loop that is still running after them. -/
def loop (body : σ → Except ε (Pass σ ρ)) (stuck : ε) : ℕ → σ → Except ε ρ
  | 0, _ => .error stuck
  | n + 1, s =>
    match body s with
    | .error e => .error e
    | .ok (.leave r) => .ok r
    | .ok (.again s') => loop body stuck n s'

variable {body : σ → Except ε (Pass σ ρ)} {stuck : ε}

theorem loop_leave {n : ℕ} {s : σ} {r : ρ} (h : body s = .ok (.leave r)) :
    loop body stuck (n + 1) s = .ok r := by
  simp only [loop, h]

theorem loop_again {n : ℕ} {s s' : σ} (h : body s = .ok (.again s')) :
    loop body stuck (n + 1) s = loop body stuck n s' := by
  simp only [loop, h]

/-- More passes than are needed make no difference. -/
theorem loop_mono {n m : ℕ} {s : σ} {r : ρ} (h : loop body stuck n s = .ok r) (hle : n ≤ m) :
    loop body stuck m s = .ok r := by
  induction n generalizing m s with
  | zero => cases h
  | succ n ih =>
    obtain ⟨m, rfl⟩ : ∃ k, m = k + 1 := ⟨m - 1, by omega⟩
    unfold loop at h ⊢
    split at h
    · cases h
    · exact h
    · exact ih h (by omega)

/-- **The loop rule**, total correctness: when every pass from a state satisfying `I` either leaves
with a result satisfying `Q`, or goes round from a smaller state satisfying `I`, the loop ends
without failing and its result satisfies `Q`. -/
theorem loop_spec (I : σ → Prop) (Q : ρ → Prop) (μ : σ → ℕ)
    (hbody : ∀ s, I s → (∃ r, body s = .ok (.leave r) ∧ Q r) ∨
      ∃ s', body s = .ok (.again s') ∧ I s' ∧ μ s' < μ s) :
    ∀ (n : ℕ) (s : σ), I s → μ s < n → ∃ r, loop body stuck n s = .ok r ∧ Q r := by
  intro n
  induction n with
  | zero => intro s _ h; omega
  | succ n ih =>
    intro s hs hn
    rcases hbody s hs with ⟨r, hr, hq⟩ | ⟨s', hs', hI, hlt⟩
    · exact ⟨r, loop_leave hr, hq⟩
    · rw [loop_again hs']
      exact ih s' hI (by omega)

/-- The loop rule for a conserved quantity: what every pass leaves unchanged is the same at the end
as it was at the start. -/
theorem loop_conserves (V : σ → τ) (W : ρ → τ) (μ : σ → ℕ)
    (hbody : ∀ s, (∃ r, body s = .ok (.leave r) ∧ W r = V s) ∨
      ∃ s', body s = .ok (.again s') ∧ V s' = V s ∧ μ s' < μ s)
    {n : ℕ} {s : σ} (hn : μ s < n) : ∃ r, loop body stuck n s = .ok r ∧ W r = V s := by
  refine loop_spec (fun t => V t = V s) (fun r => W r = V s) μ (fun t ht => ?_) n s rfl hn
  rcases hbody t with ⟨r, hr, hW⟩ | ⟨t', ht', hV, hlt⟩
  · exact Or.inl ⟨r, hr, hW.trans ht⟩
  · exact Or.inr ⟨t', ht', hV.trans ht, hlt⟩

end Foundations
