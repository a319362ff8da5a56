import Mathlib.Data.List.Basic
import PetsServer.Foundations.Program

/-!
# Programs that append to a block

A program writes a text into a block of a fixed size, each piece after the text that the block
starts with, and may fail for reasons of its own. `Fills` says what such a program does: as long as
what it writes fits, its result is known, and if it returns, the block starts with the longer text;
when it does not fit, the program fails with the error `overrun`.
-/

namespace Foundations

universe u

variable {ε γ α β : Type u} {size : ℕ} {overrun : ε}

/-- On a block of the size `size` that starts with `text`, the program ends with `r` if what it
writes fits, in a block that starts with `text'` if `r` is a value, and else fails with
`overrun`. -/
def Fills (size : ℕ) (overrun : ε) (x : EStateM ε (List γ) α) (text : List γ) (fits : Prop)
    (r : Except ε α) (text' : List γ) : Prop :=
  ∀ b : List γ, b.length = size → text <+: b →
    (fits → ∃ b', Yields x b r b' ∧ (r.isOk = true → b'.length = size ∧ text' <+: b')) ∧
    (¬ fits → ∃ b', Yields x b (.error overrun) b')

variable {x : EStateM ε (List γ) α} {f : α → EStateM ε (List γ) β} {text mid text' : List γ}
  {fits further : Prop} {a : α} {r : Except ε β} {o : Option ε}

theorem fills_pure (a : α) (text : List γ) :
    Fills size overrun (pure a : EStateM ε (List γ) α) text True (.ok a) text :=
  fun b hsize hpre => ⟨fun _ => ⟨b, yields_pure a b, fun _ => ⟨hsize, hpre⟩⟩,
    fun h => absurd trivial h⟩

theorem fills_throw (e : ε) (text text' : List γ) :
    Fills size overrun (throw e : EStateM ε (List γ) α) text True (.error e) text' :=
  fun b _ _ => ⟨fun _ => ⟨b, yields_throw e b, nofun⟩, fun h => absurd trivial h⟩

/-- Only texts that are not longer than the block matter. -/
theorem Fills.congr {fits' : Prop} {r : Except ε α} (h : Fills size overrun x text fits r text')
    (hiff : text.length ≤ size → (fits' ↔ fits)) : Fills size overrun x text fits' r text' := by
  intro b hsize hpre
  rw [hiff (hsize ▸ hpre.length_le)]
  exact h b hsize hpre

/-- A shorter part of the text. -/
theorem Fills.mono {r : Except ε α} (h : Fills size overrun x text fits r text')
    (hpre : mid <+: text') : Fills size overrun x text fits r mid := by
  intro b hsize htext
  obtain ⟨hfits, hnot⟩ := h b hsize htext
  refine ⟨fun hf => ?_, hnot⟩
  obtain ⟨b', hx, hok⟩ := hfits hf
  exact ⟨b', hx, fun hr => ⟨(hok hr).1, hpre.trans (hok hr).2⟩⟩

/-- **The rule of sequencing.** The first program may fail with the error in `o`. -/
theorem Fills.bind (hx : Fills size overrun x text fits (o.elim (.ok a) .error) mid)
    (hf : o = none → Fills size overrun (f a) mid further r text') :
    Fills size overrun (x >>= f) text (fits ∧ (o = none → further)) (o.elim r .error) text' := by
  intro b hsize hpre
  obtain ⟨hfits, hnot⟩ := hx b hsize hpre
  by_cases hf₁ : fits
  swap
  · obtain ⟨b', hover⟩ := hnot hf₁
    exact ⟨fun h => absurd h.1 hf₁, fun _ => ⟨b', hover.bind_error⟩⟩
  obtain ⟨m, hm, hok⟩ := hfits hf₁
  cases o with
  | some e =>
    exact ⟨fun _ => ⟨m, hm.bind_error, nofun⟩, fun h => absurd ⟨hf₁, nofun⟩ h⟩
  | none =>
    obtain ⟨hsize', hmid⟩ := hok rfl
    obtain ⟨hthen, helse⟩ := hf rfl m hsize' hmid
    refine ⟨fun h => ?_, fun h => ?_⟩
    · obtain ⟨b', hb, hr⟩ := hthen (h.2 rfl)
      exact ⟨b', hm.bind hb, hr⟩
    · obtain ⟨b', hb⟩ := helse fun hfurther => h ⟨hf₁, fun _ => hfurther⟩
      exact ⟨b', hm.bind hb⟩

/-- The first program does not fail for reasons of its own. -/
theorem Fills.bind_ok (hx : Fills size overrun x text fits (.ok a) mid)
    (hf : Fills size overrun (f a) mid further r text') :
    Fills size overrun (x >>= f) text (fits ∧ further) r text' :=
  (Fills.bind (o := none) hx fun _ => hf).congr fun _ => by simp

/-- A value is returned after a program that may fail. -/
theorem Fills.bind_pure {c : β} (hx : Fills size overrun x text fits (o.elim (.ok a) .error) mid)
    (hf : f a = pure c) : Fills size overrun (x >>= f) text fits (o.elim (.ok c) .error) mid := by
  have hpure : o = none → Fills size overrun (f a) mid True (.ok c) mid := fun _ => by
    rw [hf]
    exact fills_pure c mid
  exact (hx.bind hpure).congr fun _ => by simp

end Foundations
