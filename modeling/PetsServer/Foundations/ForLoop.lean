import Mathlib.Data.List.Chain
import Mathlib.Tactic.Common

/-!
# Loops over a list with a way out

The body of a loop over a list takes the loop's state and the next element, and returns the next
state and whether the loop goes on. `turns` lists the elements that the loop comes to, each with the
state in which its turn comes, and describes the loop whatever the body does to the state: the
elements are a prefix of the list (`turns_isPrefix`), all of it if the loop is not left
(`turns_of_forall`); a turn finds the state that the one before has left, which has gone on
(`isChain_turns`); and what the turns add to the state adds up (`forLoop_append`).
-/

namespace Foundations

variable {σ α β : Type*}

/-- A loop over a list. -/
def forLoop (body : σ → α → σ × Bool) (s : σ) : List α → σ
  | [] => s
  | a :: as => if (body s a).2 then forLoop body (body s a).1 as else (body s a).1

/-- The turns of the loop. -/
def turns (body : σ → α → σ × Bool) (s : σ) : List α → List (σ × α)
  | [] => []
  | a :: as => (s, a) :: if (body s a).2 then turns body (body s a).1 as else []

variable {body : σ → α → σ × Bool}

theorem turns_cons (s : σ) (a : α) (as : List α) :
    turns body s (a :: as) =
      (s, a) :: if (body s a).2 then turns body (body s a).1 as else [] := rfl

/-- The first turn finds the state at the start. -/
theorem fst_of_mem_head?_turns (s : σ) (as : List α) {t : σ × α}
    (h : t ∈ (turns body s as).head?) : t.1 = s := by
  cases as with
  | nil => cases h
  | cons a as => rw [← Option.some.inj h]

/-- The loop comes to the elements in their order. -/
theorem turns_isPrefix (s : σ) (as : List α) : (turns body s as).map Prod.snd <+: as := by
  induction as generalizing s with
  | nil => exact List.prefix_refl []
  | cons a as ih =>
    rw [turns_cons, List.map_cons, List.prefix_cons_inj]
    split
    · exact ih _
    · exact List.nil_prefix

/-- A turn after another finds what that one has left, and that one has not left the loop. -/
theorem isChain_turns (s : σ) (as : List α) :
    (turns body s as).IsChain fun t t' => body t.1 t.2 = (t'.1, true) := by
  induction as generalizing s with
  | nil => exact .nil
  | cons a as ih =>
    rw [turns_cons, List.isChain_cons]
    split
    · rename_i hon
      refine ⟨fun t ht => ?_, ih _⟩
      rw [fst_of_mem_head?_turns _ _ ht, ← hon]
    · exact ⟨fun t ht => (by cases ht), .nil⟩

/-- A loop that is not left comes to every element. -/
theorem turns_of_forall (s : σ) (as : List α)
    (h : ∀ t ∈ turns body s as, (body t.1 t.2).2 = true) :
    (turns body s as).map Prod.snd = as := by
  induction as generalizing s with
  | nil => rfl
  | cons a as ih =>
    have hon : (body s a).2 = true := h (s, a) List.mem_cons_self
    rw [turns_cons, if_pos hon] at h ⊢
    rw [List.map_cons, ih _ fun t ht => h t (List.mem_cons_of_mem _ ht)]

/-- **The rule for what adds up.** What every turn adds to a part of the state, a list, is there in
the end, in the order of the turns. -/
theorem forLoop_append (V : σ → List β) (g : σ → α → List β)
    (hbody : ∀ s a, V (body s a).1 = V s ++ g s a) (s : σ) (as : List α) :
    V (forLoop body s as) = V s ++ (turns body s as).flatMap fun t => g t.1 t.2 := by
  induction as generalizing s with
  | nil => exact (List.append_nil _).symm
  | cons a as ih =>
    rw [forLoop, turns_cons, List.flatMap_cons, ← List.append_assoc, ← hbody]
    split
    · exact ih _
    · exact (List.append_nil _).symm

/-- **The rule for what stays.** -/
theorem forLoop_invariant (I : σ → Prop) (hbody : ∀ s a, I s → I (body s a).1) {s : σ} (h : I s)
    (as : List α) : I (forLoop body s as) := by
  induction as generalizing s with
  | nil => exact h
  | cons a as ih =>
    rw [forLoop]
    split
    · exact ih (hbody s a h)
    · exact hbody s a h

end Foundations
