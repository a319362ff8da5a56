import Mathlib.Data.List.Basic
import Mathlib.Data.List.Range

/-!
# Positions

The positions of the elements of a list that have not a property. They are consecutive, and come
after all others, when no element with the property comes after one without.
-/

namespace Foundations

variable {α : Type*} {p : α → Prop} [DecidablePred p]

/-- The positions of the elements without the property, counted from `i` on. -/
def positionsFrom (p : α → Prop) [DecidablePred p] (i : ℕ) (l : List α) : List ℕ :=
  (l.zipIdx i).filterMap fun x => if p x.1 then none else some x.2

/-- No element with the property comes after one without. -/
def ComesFirst (p : α → Prop) (l : List α) : Prop := l.Pairwise fun a b => ¬ p a → ¬ p b

theorem positionsFrom_cons_of_pos {a : α} (ha : p a) (i : ℕ) (l : List α) :
    positionsFrom p i (a :: l) = positionsFrom p (i + 1) l := by
  simp [positionsFrom, List.zipIdx_cons, ha]

theorem positionsFrom_cons_of_neg {a : α} (ha : ¬ p a) (i : ℕ) (l : List α) :
    positionsFrom p i (a :: l) = i :: positionsFrom p (i + 1) l := by
  simp [positionsFrom, List.zipIdx_cons, ha]

theorem positionsFrom_map {β : Type*} {f : β → α} (i : ℕ) (l : List β) :
    positionsFrom p i (l.map f) = positionsFrom (fun b => p (f b)) i l := by
  induction l generalizing i with
  | nil => rfl
  | cons b l ih =>
    by_cases hb : p (f b)
    · rw [List.map_cons, positionsFrom_cons_of_pos hb, ih]
      exact (positionsFrom_cons_of_pos (p := fun b => p (f b)) hb i l).symm
    · rw [List.map_cons, positionsFrom_cons_of_neg hb, ih]
      exact (positionsFrom_cons_of_neg (p := fun b => p (f b)) hb i l).symm

theorem length_positionsFrom (i : ℕ) (l : List α) :
    (positionsFrom p i l).length + l.countP p = l.length := by
  induction l generalizing i with
  | nil => rfl
  | cons a l ih =>
    have hrest := ih (i + 1)
    by_cases ha : p a
    · rw [positionsFrom_cons_of_pos ha, List.countP_cons_of_pos (by simpa using ha),
        List.length_cons]
      omega
    · rw [positionsFrom_cons_of_neg ha, List.countP_cons_of_neg (by simpa using ha),
        List.length_cons, List.length_cons]
      omega

/-- An element at one of the positions. -/
theorem mem_positionsFrom {i j : ℕ} {l : List α} :
    j ∈ positionsFrom p i l ↔ ∃ k, ∃ hk : k < l.length, j = i + k ∧ ¬ p l[k] := by
  induction l generalizing i with
  | nil => simp [positionsFrom]
  | cons a l ih =>
    have hshift : (∃ k, ∃ hk : k < l.length, j = i + 1 + k ∧ ¬ p l[k]) ↔
        ∃ k, ∃ hk : k + 1 < (a :: l).length, j = i + (k + 1) ∧ ¬ p (a :: l)[k + 1] := by
      refine exists_congr fun k => ?_
      simp only [List.length_cons, Nat.add_lt_add_iff_right, List.getElem_cons_succ]
      refine exists_congr fun hk => and_congr_left fun _ => ?_
      omega
    by_cases ha : p a
    · rw [positionsFrom_cons_of_pos ha, ih, hshift]
      refine ⟨fun ⟨k, hk, h⟩ => ⟨k + 1, hk, h⟩, fun ⟨k, hk, hj, hp⟩ => ?_⟩
      cases k with
      | zero => exact absurd ha hp
      | succ k => exact ⟨k, hk, hj, hp⟩
    · rw [positionsFrom_cons_of_neg ha, List.mem_cons, ih, hshift]
      refine ⟨fun h => ?_, fun ⟨k, hk, hj, hp⟩ => ?_⟩
      · rcases h with rfl | ⟨k, hk, h⟩
        · exact ⟨0, Nat.succ_pos _, rfl, ha⟩
        · exact ⟨k + 1, hk, h⟩
      · cases k with
        | zero => exact .inl hj
        | succ k => exact .inr ⟨k, hk, hj, hp⟩

/-- The positions one further. -/
theorem positionsFrom_succ (i : ℕ) (l : List α) :
    positionsFrom p (i + 1) l = (positionsFrom p i l).map (· + 1) := by
  induction l generalizing i with
  | nil => rfl
  | cons a l ih =>
    by_cases ha : p a
    · rw [positionsFrom_cons_of_pos ha, positionsFrom_cons_of_pos ha]
      exact ih (i + 1)
    · rw [positionsFrom_cons_of_neg ha, positionsFrom_cons_of_neg ha, List.map_cons, ih (i + 1)]

theorem nodup_positionsFrom (i : ℕ) (l : List α) : (positionsFrom p i l).Nodup := by
  induction l generalizing i with
  | nil => exact List.nodup_nil
  | cons a l ih =>
    by_cases ha : p a
    · rw [positionsFrom_cons_of_pos ha]
      exact ih (i + 1)
    · rw [positionsFrom_cons_of_neg ha]
      refine List.nodup_cons.mpr ⟨fun h => ?_, ih (i + 1)⟩
      obtain ⟨k, -, hk, -⟩ := mem_positionsFrom.mp h
      omega

/-- **Consecutive positions.** -/
theorem comesFirst_iff (i : ℕ) (l : List α) : ComesFirst p l ↔
    positionsFrom p i l = List.range' (i + l.countP p) (positionsFrom p i l).length := by
  induction l generalizing i with
  | nil => exact iff_of_true List.Pairwise.nil rfl
  | cons a l ih =>
    unfold ComesFirst
    rw [List.pairwise_cons]
    change _ ∧ ComesFirst p l ↔ _
    by_cases ha : p a
    · rw [positionsFrom_cons_of_pos ha, List.countP_cons_of_pos (by simpa using ha), ih (i + 1),
        Nat.add_right_comm, ← Nat.add_assoc]
      exact and_iff_right fun _ _ h => absurd ha h
    · rw [positionsFrom_cons_of_neg ha, List.countP_cons_of_neg (by simpa using ha),
        List.length_cons, List.range'_succ, List.cons.injEq, ih (i + 1)]
      have hcount : (∀ b ∈ l, ¬ p a → ¬ p b) ↔ i = i + l.countP p := by
        rw [Nat.left_eq_add, List.countP_eq_zero]
        exact forall₂_congr fun b _ => by simp [ha]
      rw [hcount]
      refine and_congr_right fun hi => ?_
      rw [← hi, show i + 1 + l.countP p = i + 1 by omega]

end Foundations
