import Mathlib.Order.Defs.Unbundled
import Mathlib.Tactic.Common

/-!
# Programs with a state, which can fail

A program that reads and writes a state of type `σ`, returns an `α` and can fail with an `ε` is an
`EStateM ε σ α`: it keeps the state it has reached when it fails. `Yields x s r t` says that the
program `x`, started in the state `s`, ends in the state `t` with the result `r`, an error or a
value. The rules below run a program symbolically, one bind at a time, in either direction.

`Moves T x` says where a program can go, whatever it returns; `T` is a preorder. `Returns x` says
that a program does not fail.
`Coupled R x y S` compares two programs: started in states related by `R`, they end with the same
result, and with a value in states related by `S`. `zoom` runs a program on a part of a larger
state.
-/

namespace Foundations

universe u

variable {ε σ τ α β : Type u}

/-- `x`, started in `s`, ends in `t` with the result `r`. -/
def Yields (x : EStateM ε σ α) (s : σ) : Except ε α → σ → Prop
  | .ok a, t => x.run s = .ok a t
  | .error e, t => x.run s = .error e t

theorem yields_ok {x : EStateM ε σ α} {s t : σ} {a : α} (h : x.run s = .ok a t) :
    Yields x s (.ok a) t := h

theorem yields_pure (a : α) (s : σ) : Yields (pure a : EStateM ε σ α) s (.ok a) s := rfl

theorem yields_throw (e : ε) (s : σ) : Yields (throw e : EStateM ε σ α) s (.error e) s := rfl

theorem yields_get (s : σ) : Yields (get : EStateM ε σ σ) s (.ok s) s := rfl

theorem yields_modify (f : σ → σ) (s : σ) :
    Yields (modify f : EStateM ε σ PUnit) s (.ok ⟨⟩) (f s) := rfl

theorem yields_set (s t : σ) : Yields (set t : EStateM ε σ PUnit) s (.ok ⟨⟩) t := rfl

@[simp] theorem run_map (f : α → β) (x : EStateM ε σ α) (s : σ) :
    (f <$> x).run s =
      match x.run s with
      | .ok a t => .ok (f a) t
      | .error e t => .error e t := rfl

/-- Every program ends. -/
theorem exists_yields (x : EStateM ε σ α) (s : σ) : ∃ r t, Yields x s r t := by
  cases h : x.run s with
  | ok a t => exact ⟨.ok a, t, h⟩
  | error e t => exact ⟨.error e, t, h⟩

/-- A program has one result. -/
theorem Yields.unique {x : EStateM ε σ α} {s t t' : σ} {r r' : Except ε α} (h : Yields x s r t)
    (h' : Yields x s r' t') : r = r' ∧ t = t' := by
  cases r <;> cases r' <;> simp only [Yields] at h h' <;> rw [h] at h' <;> cases h' <;>
    exact ⟨rfl, rfl⟩

/-- **The rule of sequencing.** -/
theorem Yields.bind {x : EStateM ε σ α} {f : α → EStateM ε σ β} {s t u : σ} {a : α}
    {r : Except ε β} (hx : Yields x s (.ok a) t) (hf : Yields (f a) t r u) :
    Yields (x >>= f) s r u := by
  cases r <;> simp only [Yields, EStateM.run_bind] at * <;> rw [hx] <;> exact hf

/-- A program that fails does not go on. -/
theorem Yields.bind_error {x : EStateM ε σ α} {f : α → EStateM ε σ β} {s t : σ} {e : ε}
    (hx : Yields x s (.error e) t) : Yields (x >>= f) s (.error e) t := by
  simp only [Yields, EStateM.run_bind] at *
  rw [hx]

/-- How a sequence ends. -/
theorem yields_bind {x : EStateM ε σ α} {f : α → EStateM ε σ β} {s u : σ} {r : Except ε β} :
    Yields (x >>= f) s r u ↔ (∃ a t, Yields x s (.ok a) t ∧ Yields (f a) t r u) ∨
      ∃ e, Yields x s (.error e) u ∧ r = .error e := by
  constructor
  · intro h
    obtain ⟨rx, t, hx⟩ := exists_yields x s
    cases rx with
    | ok a =>
      obtain ⟨rf, u', hf⟩ := exists_yields (f a) t
      obtain ⟨rfl, rfl⟩ := h.unique (hx.bind hf)
      exact .inl ⟨a, t, hx, hf⟩
    | error e =>
      obtain ⟨rfl, rfl⟩ := h.unique hx.bind_error
      exact .inr ⟨e, hx, rfl⟩
  · rintro (⟨a, t, hx, hf⟩ | ⟨e, hx, rfl⟩)
    · exact hx.bind hf
    · exact hx.bind_error

/-- How a sequence returns a value. -/
theorem yields_bind_ok {x : EStateM ε σ α} {f : α → EStateM ε σ β} {s u : σ} {b : β} :
    Yields (x >>= f) s (.ok b) u ↔ ∃ a t, Yields x s (.ok a) t ∧ Yields (f a) t (.ok b) u := by
  refine yields_bind.trans ⟨fun h => ?_, .inl⟩
  rcases h with h | ⟨e, -, he⟩
  · exact h
  · cases he

theorem yields_pure_ok {a b : α} {s t : σ} :
    Yields (pure a : EStateM ε σ α) s (.ok b) t ↔ b = a ∧ t = s := by
  refine ⟨fun h => ?_, fun ⟨hb, ht⟩ => hb ▸ ht ▸ yields_pure b t⟩
  obtain ⟨hb, ht⟩ := h.unique (yields_pure a s)
  exact ⟨Except.ok.inj hb, ht⟩

theorem not_yields_throw_ok {e : ε} {b : α} {s t : σ} :
    ¬ Yields (throw e : EStateM ε σ α) s (.ok b) t := fun h => by
  cases (h.unique (yields_throw e s)).1

/-! ## Where a program can go -/

/-- Wherever it starts, the program ends, failed or not, in a state that `T` relates to that. -/
def Moves (T : σ → σ → Prop) (x : EStateM ε σ α) : Prop := ∀ s r t, Yields x s r t → T s t

section Moves

variable {T : σ → σ → Prop}

theorem moves_pure [Std.Refl T] (a : α) : Moves T (pure a : EStateM ε σ α) := by
  intro s r t hx
  obtain ⟨-, rfl⟩ := hx.unique (yields_pure a s)
  exact Std.Refl.refl t

theorem moves_throw [Std.Refl T] (e : ε) : Moves T (throw e : EStateM ε σ α) := by
  intro s r t hx
  obtain ⟨-, rfl⟩ := hx.unique (yields_throw e s)
  exact Std.Refl.refl t

theorem moves_bind [IsTrans σ T] {x : EStateM ε σ α} {f : α → EStateM ε σ β} (hx : Moves T x)
    (hf : ∀ a, Moves T (f a)) : Moves T (x >>= f) := by
  intro s r u h
  rcases yields_bind.mp h with ⟨a, t, ha, hb⟩ | ⟨e, he, -⟩
  · exact IsTrans.trans s t u (hx s _ t ha) (hf a t r u hb)
  · exact hx s _ u he

theorem moves_get [Std.Refl T] : Moves T (get : EStateM ε σ σ) := by
  intro s r t hx
  obtain ⟨-, rfl⟩ := hx.unique (yields_get s)
  exact Std.Refl.refl t

theorem moves_forM [Std.Refl T] [IsTrans σ T] {f : α → EStateM ε σ PUnit} {as : List α}
    (h : ∀ a ∈ as, Moves T (f a)) : Moves T (as.forM f) := by
  induction as with
  | nil => exact moves_pure _
  | cons a as ih =>
    obtain ⟨ha, has⟩ := List.forall_mem_cons.mp h
    exact moves_bind ha fun _ => ih has

end Moves

/-! ## Programs that do not fail -/

/-- Wherever the program starts, it returns a value. -/
def Returns (x : EStateM ε σ α) : Prop := ∀ s, ∃ a t, Yields x s (.ok a) t

theorem returns_pure (a : α) : Returns (pure a : EStateM ε σ α) :=
  fun s => ⟨a, s, yields_pure a s⟩

theorem returns_get : Returns (get : EStateM ε σ σ) := fun s => ⟨s, s, yields_get s⟩

theorem returns_bind {x : EStateM ε σ α} {f : α → EStateM ε σ β} (hx : Returns x)
    (hf : ∀ a, Returns (f a)) : Returns (x >>= f) := by
  intro s
  obtain ⟨a, t, ha⟩ := hx s
  obtain ⟨b, u, hb⟩ := hf a t
  exact ⟨b, u, ha.bind hb⟩

/-! ## Two runs -/

/-- From states related by `R`, the two programs end with the same result, and when it is a value
the states they end in are related by `S`. -/
def Coupled (R : σ → σ → Prop) (x y : EStateM ε σ α) (S : α → σ → σ → Prop) : Prop :=
  ∀ s s' r t, R s s' → Yields x s r t →
    ∃ t', Yields y s' r t' ∧ ∀ a, r = .ok a → S a t t'

variable {R : σ → σ → Prop} {S : α → σ → σ → Prop} {T : β → σ → σ → Prop}

theorem coupled_pure {a : α} (h : ∀ s s', R s s' → S a s s') :
    Coupled R (pure a : EStateM ε σ α) (pure a) S := by
  intro s s' r t hR hx
  obtain ⟨rfl, rfl⟩ := hx.unique (yields_pure a s)
  refine ⟨s', yields_pure a s', fun b hb => ?_⟩
  cases hb
  exact h t s' hR

theorem coupled_throw {e : ε} : Coupled R (throw e : EStateM ε σ α) (throw e) S := by
  intro s s' r t _ hx
  obtain ⟨rfl, rfl⟩ := hx.unique (yields_throw e s)
  exact ⟨s', yields_throw e s', fun a ha => by cases ha⟩

theorem coupled_bind {x y : EStateM ε σ α} {f g : α → EStateM ε σ β} (hx : Coupled R x y S)
    (hf : ∀ a, Coupled (S a) (f a) (g a) T) : Coupled R (x >>= f) (y >>= g) T := by
  intro s s' r u hR h
  rcases yields_bind.mp h with ⟨a, t, ha, hb⟩ | ⟨e, he, rfl⟩
  · obtain ⟨t', ha', hS⟩ := hx s s' _ t hR ha
    obtain ⟨u', hb', hT⟩ := hf a t t' r u (hS a rfl) hb
    exact ⟨u', ha'.bind hb', hT⟩
  · obtain ⟨u', he', -⟩ := hx s s' _ u hR he
    exact ⟨u', he'.bind_error, fun a ha => by cases ha⟩

theorem Coupled.mono {x y : EStateM ε σ α} {R' : σ → σ → Prop} {S' : α → σ → σ → Prop}
    (h : Coupled R x y S) (hR : ∀ s s', R' s s' → R s s')
    (hS : ∀ a t t', S a t t' → S' a t t') : Coupled R' x y S' := by
  intro s s' r t hs hx
  obtain ⟨t', hy, ht⟩ := h s s' r t (hR s s' hs) hx
  exact ⟨t', hy, fun a ha => hS a t t' (ht a ha)⟩

/-! ## A part of the state -/

/-- Run `x` on the part `view s` of the state. -/
def zoom (view : σ → τ) (put : σ → τ → σ) (x : EStateM ε τ α) : EStateM ε σ α := fun s =>
  match x (view s) with
  | .ok a t => .ok a (put s t)
  | .error e t => .error e (put s t)

@[simp] theorem run_zoom (view : σ → τ) (put : σ → τ → σ) (x : EStateM ε τ α) (s : σ) :
    (zoom view put x).run s =
      match x.run (view s) with
      | .ok a t => .ok a (put s t)
      | .error e t => .error e (put s t) := rfl

theorem Yields.zoom {view : σ → τ} {put : σ → τ → σ} {x : EStateM ε τ α} {s : σ} {t : τ}
    {r : Except ε α} (h : Yields x (view s) r t) : Yields (zoom view put x) s r (put s t) := by
  cases r <;> simp only [Yields, EStateM.run, Foundations.zoom] at * <;> rw [h]

/-- What a program does to a part of the state. -/
theorem yields_zoom {view : σ → τ} {put : σ → τ → σ} {x : EStateM ε τ α} {s u : σ}
    {r : Except ε α} (h : Yields (Foundations.zoom view put x) s r u) :
    ∃ t, Yields x (view s) r t ∧ u = put s t := by
  obtain ⟨r', t, hx⟩ := exists_yields x (view s)
  obtain ⟨rfl, rfl⟩ := h.unique hx.zoom
  exact ⟨t, hx, rfl⟩

/-- Where a program on a part of the state can go. -/
theorem moves_zoom {T : σ → σ → Prop} {P : τ → τ → Prop} {view : σ → τ} {put : σ → τ → σ}
    {x : EStateM ε τ α} (hput : ∀ s t, P (view s) t → T s (put s t)) (hx : Moves P x) :
    Moves T (Foundations.zoom view put x) := by
  intro s r u h
  obtain ⟨t, ht, rfl⟩ := yields_zoom h
  exact hput s t (hx _ r t ht)

end Foundations
