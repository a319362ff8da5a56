import Mathlib.Data.List.Induction
import Mathlib.Tactic.Common

/-!
# Runs of a partial step function

A system is a function `step : σ → α → Option σ`: in the state `s` the action `a` is enabled when
`step s a` is `some t`, and then leads to `t`. An interleaving of several parties is a list of
actions of all of them, and `run` takes the actions of such a list in order.

* `run_induction` and `run_invariant` are the run rules: what holds at the start and is kept by
  every step holds in every state reached. In `run_invariant_of_last` it is kept only in states that
  satisfy a condition, which goes back from the last state to all others.
* `Meets` says that every step of a run satisfies a condition on the action and on the state it is
  taken in; `run_invariant_of_meets` is the run rule for such runs, and `run_iff_meets` the rule for
  a condition that is exact.
* `perform` calls several operations of an object in order. `Simulates R M N` says that the relation
  `R` between the states of two objects is kept by every operation, and that related states return
  the same outputs; then no sequence of operations tells the two apart (`Simulates.perform`).
-/

namespace Foundations

variable {σ α : Type*} {step : σ → α → Option σ}

/-- The state reached by the actions `as`, taken in order, when each is enabled in its turn. -/
def run (step : σ → α → Option σ) (s : σ) (as : List α) : Option σ := as.foldlM step s

@[simp] theorem run_nil (s : σ) : run step s [] = some s := rfl

theorem run_cons (s : σ) (a : α) (as : List α) :
    run step s (a :: as) = (step s a).bind fun t => run step t as := rfl

theorem run_append (s : σ) (as bs : List α) :
    run step s (as ++ bs) = (run step s as).bind fun t => run step t bs :=
  List.foldlM_append

@[simp] theorem run_singleton (s : σ) (a : α) : run step s [a] = step s a := by
  rw [run_cons]
  cases step s a <;> rfl

theorem run_cons_eq_some {s t : σ} {a : α} {as : List α} :
    run step s (a :: as) = some t ↔ ∃ m, step s a = some m ∧ run step m as = some t := by
  rw [run_cons, Option.bind_eq_some_iff]

theorem run_append_eq_some {s t : σ} {as bs : List α} :
    run step s (as ++ bs) = some t ↔ ∃ m, run step s as = some m ∧ run step m bs = some t := by
  rw [run_append, Option.bind_eq_some_iff]

/-- Two runs one after the other are a run. -/
theorem run_trans {s m t : σ} {as bs : List α} (h₁ : run step s as = some m)
    (h₂ : run step m bs = some t) : run step s (as ++ bs) = some t :=
  run_append_eq_some.mpr ⟨m, h₁, h₂⟩

/-- A run extended by one step. -/
theorem run_snoc {s m t : σ} {as : List α} {a : α} (h₁ : run step s as = some m)
    (h₂ : step m a = some t) : run step s (as ++ [a]) = some t :=
  run_trans h₁ (by rwa [run_singleton])

/-- The state before the last step of a run. -/
theorem run_snoc_inv {s t : σ} {as : List α} {a : α} (h : run step s (as ++ [a]) = some t) :
    ∃ m, run step s as = some m ∧ step m a = some t := by
  obtain ⟨m, h₁, h₂⟩ := run_append_eq_some.mp h
  exact ⟨m, h₁, by rwa [run_singleton] at h₂⟩

/-- **The run rule.** A property of the actions taken and the state reached, which holds before
the first action and is kept by every step from a state reached, holds after every run. -/
theorem run_induction {s₀ : σ} (I : List α → σ → Prop) (h₀ : I [] s₀)
    (hstep : ∀ pre s a t, run step s₀ pre = some s → I pre s → step s a = some t →
      I (pre ++ [a]) t) :
    ∀ (as : List α) (s : σ), run step s₀ as = some s → I as s := by
  intro as
  induction as using List.reverseRecOn with
  | nil =>
    intro s h
    obtain rfl := Option.some.inj h
    exact h₀
  | append_singleton pre a ih =>
    intro t h
    obtain ⟨s, h₁, h₂⟩ := run_snoc_inv h
    exact hstep pre s a t h₁ (ih s h₁) h₂

/-- **The invariant rule.** -/
theorem run_invariant (I : σ → Prop) (hstep : ∀ s a t, I s → step s a = some t → I t)
    {s₀ s : σ} {as : List α} (h₀ : I s₀) (h : run step s₀ as = some s) : I s :=
  run_induction (fun _ => I) h₀ (fun _ s a t _ hs => hstep s a t hs) as s h

/-- **The invariant rule under a condition on the last state**: the condition goes back from a state
to the one before, and in states that satisfy it the invariant is kept. -/
theorem run_invariant_of_last (I cond : σ → Prop)
    (hback : ∀ s a t, step s a = some t → cond t → cond s)
    (hstep : ∀ s a t, I s → cond s → step s a = some t → I t) {s₀ s : σ} {as : List α} (h₀ : I s₀)
    (hlast : cond s) (h : run step s₀ as = some s) : I s := by
  refine run_induction (fun _ s => cond s → I s) (fun _ => h₀) ?_ as s h hlast
  intro pre s a t _ ih ht hcond
  have hs : cond s := hback s a t ht hcond
  exact hstep s a t (ih hs) hs ht

/-- Every step that the actions `as` take from `s₀` satisfies `cond`, a condition on the action and
on the state before it. -/
def Meets (step : σ → α → Option σ) (cond : σ → α → Prop) (s₀ : σ) (as : List α) : Prop :=
  ∀ pre a s t, pre ++ [a] <+: as → run step s₀ pre = some s → step s a = some t → cond s a

/-- A condition that the actions satisfy in any state. -/
theorem meets_of_forall {cond : σ → α → Prop} {s₀ : σ} {as : List α}
    (h : ∀ a ∈ as, ∀ s, cond s a) : Meets step cond s₀ as :=
  fun pre a s _ hp _ _ => h a (hp.subset (List.mem_append_right pre List.mem_cons_self)) s

theorem meets_nil {cond : σ → α → Prop} {s₀ : σ} : Meets step cond s₀ [] :=
  fun pre a _ _ hp _ _ => absurd (List.prefix_nil.mp hp) (List.append_ne_nil_of_right_ne_nil pre
    (List.cons_ne_nil a []))

/-- One more step that satisfies the condition. -/
theorem Meets.snoc {cond : σ → α → Prop} {s₀ s : σ} {as : List α} {a : α}
    (h : Meets step cond s₀ as) (hs : run step s₀ as = some s) (ha : cond s a) :
    Meets step cond s₀ (as ++ [a]) := by
  intro pre b s' t hp hs' ht
  rcases List.prefix_concat_iff.mp hp with heq | hp
  · obtain ⟨rfl, hb⟩ := List.append_inj' heq rfl
    obtain rfl := List.singleton_inj.mp hb
    rw [hs] at hs'
    obtain rfl := Option.some.inj hs'
    exact ha
  · exact h pre b s' t hp hs' ht

/-- A run that goes on. -/
theorem Meets.append {cond : σ → α → Prop} {s₀ s : σ} {as bs : List α}
    (has : Meets step cond s₀ as) (hs : run step s₀ as = some s) (hbs : Meets step cond s bs) :
    Meets step cond s₀ (as ++ bs) := by
  intro pre a u t hp hu ht
  rcases List.prefix_or_prefix_of_prefix hp (List.prefix_append as bs) with hle | hle
  · exact has pre a u t hle hu ht
  rcases List.prefix_concat_iff.mp hle with rfl | ⟨mid, rfl⟩
  · exact has pre a u t (List.prefix_refl _) hu ht
  · rw [List.append_assoc, List.prefix_append_right_inj] at hp
    obtain ⟨m, hm, hmid⟩ := run_append_eq_some.mp hu
    obtain rfl := Option.some.inj (hs.symm.trans hm)
    exact hbs mid a u t hp hmid ht

/-- Where a list of actions first goes wrong. -/
theorem exists_first_not {p : α → Prop} {as : List α} (h : ¬ ∀ a ∈ as, p a) :
    ∃ pre a post, as = pre ++ a :: post ∧ (∀ b ∈ pre, p b) ∧ ¬ p a := by
  induction as with
  | nil => exact absurd (fun a ha => absurd ha List.not_mem_nil) h
  | cons a as ih =>
    by_cases ha : p a
    · obtain ⟨pre, b, post, rfl, hpre, hb⟩ := ih fun has => h (List.forall_mem_cons.mpr ⟨ha, has⟩)
      exact ⟨a :: pre, b, post, rfl, List.forall_mem_cons.mpr ⟨ha, hpre⟩, hb⟩
    · exact ⟨[], a, as, rfl, fun b hb => absurd hb List.not_mem_nil, ha⟩

/-- **The invariant rule under a condition**: an invariant that every step satisfying `cond` keeps
holds after every run whose steps all satisfy `cond`. -/
theorem run_invariant_of_meets {cond : σ → α → Prop} (I : σ → Prop)
    (hstep : ∀ s a t, I s → cond s a → step s a = some t → I t) {s₀ : σ} (h₀ : I s₀)
    {as : List α} (hm : Meets step cond s₀ as) {s : σ} (h : run step s₀ as = some s) : I s := by
  have hI : ∀ (pre : List α) (s : σ), run step s₀ pre = some s → pre <+: as → I s :=
    run_induction (fun pre s => pre <+: as → I s) (fun _ => h₀) ?_
  · exact hI as s h (List.prefix_refl as)
  intro pre s a t hrun ih ht hp
  exact hstep s a t (ih ((List.prefix_append pre [a]).trans hp)) (hm pre a s t hp hrun ht) ht

/-- What the steps of a run and one more step satisfy. -/
theorem meets_snoc_iff {cond : σ → α → Prop} {s₀ s t : σ} {as : List α} {a : α}
    (hs : run step s₀ as = some s) (ht : step s a = some t) :
    Meets step cond s₀ (as ++ [a]) ↔ Meets step cond s₀ as ∧ cond s a := by
  refine ⟨fun h => ⟨fun pre b s' t' hp => ?_, ?_⟩, fun h => h.1.snoc hs h.2⟩
  · exact h pre b s' t' (hp.trans (List.prefix_append as [a]))
  · exact h as a s t (List.prefix_refl _) hs ht

/-- **The exact condition**: a property that holds at the start, and holds after a step exactly when
it holds before and the step satisfies `cond`, holds after a run exactly when all its steps satisfy
`cond`. -/
theorem run_iff_meets {cond : σ → α → Prop} {I P : σ → Prop}
    (hI : ∀ s a t, I s → step s a = some t → I t)
    (hP : ∀ s a t, I s → step s a = some t → (P t ↔ P s ∧ cond s a)) {s₀ : σ} (hI₀ : I s₀)
    (hP₀ : P s₀) {as : List α} {s : σ} (h : run step s₀ as = some s) :
    P s ↔ Meets step cond s₀ as := by
  refine run_induction (fun as s => P s ↔ Meets step cond s₀ as) ?_ ?_ as s h
  · exact ⟨fun _ => meets_nil, fun _ => hP₀⟩
  · intro pre s a t hrun ih ht
    rw [meets_snoc_iff hrun ht, ← ih, hP s a t (run_invariant I hI hI₀ hrun) ht]

/-! ## Objects and what they refine

An object takes the state it is called in to the next one, and returns an output, in every state. -/

section Objects

universe u v w

variable {σ : Type u} {τ : Type v} {ι : Type w} {ο : Type*}

/-- The state that the operations `is` leave, called in order, and what they return. -/
def perform (M : σ → ι → σ × ο) (s : σ) : List ι → σ × List ο
  | [] => (s, [])
  | i :: is => ((perform M (M s i).1 is).1, (M s i).2 :: (perform M (M s i).1 is).2)

theorem perform_cons (M : σ → ι → σ × ο) (s : σ) (i : ι) (is : List ι) :
    perform M s (i :: is) = ((perform M (M s i).1 is).1, (M s i).2 :: (perform M (M s i).1 is).2) :=
  rfl

variable {M : σ → ι → σ × ο} {N : τ → ι → τ × ο} {R : σ → τ → Prop}

/-- The object `M` simulates `N`. -/
structure Simulates (R : σ → τ → Prop) (M : σ → ι → σ × ο) (N : τ → ι → τ × ο) : Prop where
  step : ∀ {s t}, R s t → ∀ i, R (M s i).1 (N t i).1
  output : ∀ {s t}, R s t → ∀ i, (M s i).2 = (N t i).2

/-- **The simulation rule.** -/
theorem Simulates.perform (h : Simulates R M N) {s : σ} {t : τ} (hR : R s t) (is : List ι) :
    R (perform M s is).1 (perform N t is).1 ∧
      (perform M s is).2 = (perform N t is).2 := by
  induction is generalizing s t with
  | nil => exact ⟨hR, rfl⟩
  | cons i is ih =>
    obtain ⟨hstate, houts⟩ := ih (h.step hR i)
    exact ⟨hstate, congrArg₂ List.cons (h.output hR i) houts⟩

end Objects

end Foundations
