import Mathlib.Data.List.Infix
import Mathlib.Data.Nat.Find
import Mathlib.Tactic.Common
import PetsServer.Foundations.Joining

/-!
# Splitting at the occurrences of a word

A text is split at the first occurrence of a word `d`: what comes before is a piece, and `step`
elements are cut off with it, counted from the occurrence on. This goes on until `d` does not occur
any more. No piece contains `d` (`SplitsInto.not_occurs`).

When `step` is the length of `d`, a text is read back from the pieces of `str ++ d` if and only if
nothing is left over (`SplitsInto.intercalate_iff`). That is so for every text when `d` does not
overlap itself (`SplitsInto.rest_eq_nil`), and only then (`exists_rest_ne_nil`): an occurrence can
straddle the end of the text.
-/

namespace Foundations

/-- A word that overlaps itself: a part of it, neither empty nor all of it, is both at its beginning
and at its end. -/
def SelfOverlapping {α : Type*} (d : List α) : Prop := ∃ w, w ≠ [] ∧ w ≠ d ∧ w <+: d ∧ w <:+ d

theorem not_selfOverlapping_singleton {α : Type*} (a : α) : ¬ SelfOverlapping [a] := by
  rintro ⟨w, hne, hprop, hpre, -⟩
  have hpos := List.length_pos_of_ne_nil hne
  have hle : w.length ≤ 1 := hpre.length_le
  exact hprop (hpre.eq_of_length (Nat.le_antisymm hle hpos))

variable {α : Type*} [DecidableEq α]

/-- Where `d` first occurs in `l`. -/
def firstIndex (d l : List α) : Option ℕ := (l.dropInfix? d).map fun p => p.1.length

theorem firstIndex_eq_some_iff {d l : List α} {n : ℕ} :
    firstIndex d l = some n ↔ ∃ p s, l = p ++ d ++ s ∧ p.length = n ∧
      ∀ p' s', l = p' ++ d ++ s' → n ≤ p'.length := by
  simp only [firstIndex, Option.map_eq_some_iff, Prod.exists, List.dropInfix?_eq_some_iff,
    beq_iff_eq]
  constructor
  · rintro ⟨p, s, ⟨⟨_, hl, rfl⟩, hmin⟩, rfl⟩
    exact ⟨p, s, hl, rfl, fun p' s' h => hmin p' _ s' h rfl⟩
  · rintro ⟨p, s, hl, rfl, hmin⟩
    exact ⟨p, s, ⟨⟨d, hl, rfl⟩, fun p' i' s' h hi => hmin p' s' (hi ▸ h)⟩, rfl⟩

theorem firstIndex_eq_none_iff {d l : List α} : firstIndex d l = none ↔ ¬ d <:+: l := by
  constructor
  · classical
    rintro hnone ⟨p, s, hl⟩
    have hex : ∃ n, ∃ p s, l = p ++ d ++ s ∧ p.length = n := ⟨_, p, s, hl.symm, rfl⟩
    obtain ⟨p₀, s₀, hl₀, hp₀⟩ := Nat.find_spec hex
    have hsome : firstIndex d l = some (Nat.find hex) :=
      firstIndex_eq_some_iff.mpr ⟨p₀, s₀, hl₀, hp₀, fun p' s' h =>
        Nat.find_min' hex ⟨p', s', h, rfl⟩⟩
    rw [hnone] at hsome
    cases hsome
  · intro hnot
    cases hfirst : firstIndex d l with
    | none => rfl
    | some n =>
      obtain ⟨p, s, hl, -⟩ := firstIndex_eq_some_iff.mp hfirst
      exact absurd ⟨p, s, hl.symm⟩ hnot

/-- Before its first occurrence `d` does not occur. -/
theorem not_infix_take {d l : List α} {n : ℕ} (h : firstIndex d l = some n) (hd : d ≠ []) :
    ¬ d <:+: l.take n := by
  rintro ⟨p, s, htake⟩
  obtain ⟨-, -, -, -, hmin⟩ := firstIndex_eq_some_iff.mp h
  have hle := hmin p (s ++ l.drop n) (by
    rw [← List.append_assoc, htake, List.take_append_drop])
  have hlen := congrArg List.length htake
  have hpos := List.length_pos_of_ne_nil hd
  simp only [List.length_append, List.length_take] at hlen
  omega

/-- At its first occurrence `d` occurs. -/
theorem take_append_drop_firstIndex {d l : List α} {n : ℕ} (h : firstIndex d l = some n) :
    l.take n ++ d ++ l.drop (n + d.length) = l := by
  obtain ⟨p, s, rfl, rfl, -⟩ := firstIndex_eq_some_iff.mp h
  have htake : (p ++ d ++ s).take p.length = p := by rw [List.append_assoc, List.take_left]
  rw [htake, ← List.length_append, List.drop_left]

theorem length_le_of_firstIndex {d l : List α} {n : ℕ} (h : firstIndex d l = some n) :
    n + d.length ≤ l.length := by
  obtain ⟨p, s, rfl, rfl, -⟩ := firstIndex_eq_some_iff.mp h
  simp only [List.length_append]
  omega

/-- A word that a text begins with occurs first at its beginning. -/
theorem firstIndex_append (d s : List α) : firstIndex d (d ++ s) = some 0 :=
  firstIndex_eq_some_iff.mpr ⟨[], s, rfl, rfl, fun _ _ _ => Nat.zero_le _⟩

/-- `l` is split into `pieces`, with `rest` left over. -/
inductive SplitsInto (d : List α) (step : ℕ) : List α → List (List α) → List α → Prop
  | last {l : List α} (h : firstIndex d l = none) : SplitsInto d step l [] l
  | cut {l rest : List α} {n : ℕ} {pieces : List (List α)} (h : firstIndex d l = some n)
    (hrest : SplitsInto d step (l.drop (n + step)) pieces rest) :
    SplitsInto d step l (l.take n :: pieces) rest

variable {d l rest str : List α} {step : ℕ} {pieces : List (List α)}

/-- Every text is split. -/
theorem exists_splitsInto (hd : d ≠ []) (hstep : 0 < step) (l : List α) :
    ∃ pieces rest, SplitsInto d step l pieces rest := by
  induction hlen : l.length using Nat.strong_induction_on generalizing l with
  | _ k ih =>
    cases hfirst : firstIndex d l with
    | none => exact ⟨[], l, .last hfirst⟩
    | some n =>
      have hle := length_le_of_firstIndex hfirst
      have hpos := List.length_pos_of_ne_nil hd
      obtain ⟨pieces, rest, hrest⟩ :=
        ih _ (by rw [List.length_drop]; omega) (l.drop (n + step)) rfl
      exact ⟨_, _, .cut hfirst hrest⟩

namespace SplitsInto

/-- A text that begins with the word. -/
theorem cons (h : SplitsInto d d.length l pieces rest) :
    SplitsInto d d.length (d ++ l) ([] :: pieces) rest := by
  refine .cut (n := 0) (firstIndex_append d l) ?_
  rw [Nat.zero_add, List.drop_left]
  exact h

/-- No piece contains the word. -/
theorem not_occurs (h : SplitsInto d step l pieces rest) (hd : d ≠ []) :
    ∀ piece ∈ pieces, ¬ d <:+: piece := by
  induction h with
  | last => exact fun _ hmem => absurd hmem List.not_mem_nil
  | cut hfirst _ ih => exact List.forall_mem_cons.mpr ⟨not_infix_take hfirst hd, ih⟩

theorem rest_not_occurs (h : SplitsInto d step l pieces rest) : ¬ d <:+: rest := by
  induction h with
  | last hnone => exact firstIndex_eq_none_iff.mp hnone
  | cut _ _ ih => exact ih

theorem pieces_ne_nil (h : SplitsInto d step l pieces rest) (hoccurs : d <:+: l) : pieces ≠ [] := by
  cases h with
  | last hnone => exact absurd hoccurs (firstIndex_eq_none_iff.mp hnone)
  | cut => exact List.cons_ne_nil _ _

/-- The pieces, each with the word after it, and what is left over. -/
theorem flatMap_append (h : SplitsInto d d.length l pieces rest) :
    pieces.flatMap (· ++ d) ++ rest = l := by
  induction h with
  | last => rfl
  | cut hfirst _ ih =>
    rw [List.flatMap_cons, List.append_assoc, ih, take_append_drop_firstIndex hfirst]

/-- Nothing is left over if and only if the text is read back from its pieces. -/
theorem intercalate_iff (h : SplitsInto d d.length (str ++ d) pieces rest) :
    d.intercalate pieces = str ↔ rest = [] := by
  have hjoin := h.flatMap_append
  rw [flatMap_append_eq_intercalate d (h.pieces_ne_nil ⟨str, [], List.append_nil _⟩)] at hjoin
  constructor
  · rintro rfl
    simpa using hjoin
  · rintro rfl
    simpa using hjoin

/-- Nothing is left over when the word does not overlap itself. -/
theorem rest_eq_nil (h : SplitsInto d d.length (str ++ d) pieces rest)
    (hd : ¬ SelfOverlapping d) : rest = [] := by
  by_contra hne
  have hjoin := h.flatMap_append
  rw [flatMap_append_eq_intercalate d (h.pieces_ne_nil ⟨str, [], List.append_nil _⟩),
    List.append_assoc] at hjoin
  have hrest : rest <:+ str ++ d := ⟨d.intercalate pieces ++ d, by rw [List.append_assoc, hjoin]⟩
  have hlt : rest.length < d.length := by
    by_contra hle
    have hsuffix := List.suffix_of_suffix_length_le (List.suffix_append str d) hrest (by omega)
    exact h.rest_not_occurs hsuffix.isInfix
  -- the last occurrence that is cut off overlaps the word at the end of the text
  obtain ⟨u, hu⟩ : d <:+ d ++ rest :=
    List.suffix_of_suffix_length_le (List.suffix_append str d) ⟨_, hjoin⟩
      (by rw [List.length_append]; omega)
  have hlen := congrArg List.length hu
  rw [List.length_append, List.length_append] at hlen
  obtain ⟨w, hw⟩ : u <+: d :=
    List.prefix_of_prefix_length_le ⟨d, hu⟩ (List.prefix_append d rest) (by omega)
  have hsplit : w ++ rest = d := by
    rw [← hw, List.append_assoc] at hu
    exact (List.append_cancel_left hu).symm.trans hw
  refine hd ⟨w, ?_, ?_, ⟨rest, hsplit⟩, ⟨u, hw⟩⟩
  · rintro rfl
    exact absurd (congrArg List.length hsplit) (by simpa using hlt.ne)
  · rintro rfl
    exact hne (by simpa using hsplit)

end SplitsInto

/-- When at most half of the word is cut off at a time, the word is not read back. -/
theorem SplitsInto.intercalate_ne (h : SplitsInto d step (d ++ d) pieces rest) (hd : d ≠ [])
    (hstep : 2 * step ≤ d.length) : d.intercalate pieces ≠ d := by
  have hoccurs (k : ℕ) (hk : k ≤ d.length) : d <:+: (d ++ d).drop k :=
    ⟨d.drop k, [], by rw [List.append_nil, List.drop_append_of_le_length hk]⟩
  intro hjoin
  cases h with
  | last hnone => rw [firstIndex_append] at hnone; cases hnone
  | cut hsome hrest =>
    obtain rfl := Option.some.inj ((firstIndex_append d d).symm.trans hsome)
    rw [Nat.zero_add] at hrest
    cases hrest with
    | last hnone => exact firstIndex_eq_none_iff.mp hnone (hoccurs step (by omega))
    | @cut _ _ n _ hsome' hrest' =>
      -- nothing comes after the second occurrence in what is read, so that it ends the first half
      rw [intercalate_cons_eq_flatMap, List.take_zero, List.nil_append, List.flatMap_cons,
        List.append_assoc, List.append_right_eq_self, List.append_eq_nil_iff] at hjoin
      obtain ⟨hpiece, hpieces⟩ := hjoin
      have hn : n = 0 := by
        have hle := length_le_of_firstIndex hsome'
        have hlen := congrArg List.length hpiece
        rw [List.length_take, List.length_nil] at hlen
        omega
      rw [List.drop_drop, hn] at hrest'
      obtain ⟨piece, hmem⟩ :=
        List.exists_mem_of_ne_nil _ (hrest'.pieces_ne_nil (hoccurs _ (by omega)))
      exact hd (List.append_eq_nil_iff.mp (List.flatMap_eq_nil_iff.mp hpieces piece hmem)).1

/-- A text of which something is left over. -/
theorem exists_rest_ne_nil (hd : SelfOverlapping d) :
    ∃ str pieces rest, 2 ≤ str.length ∧ SplitsInto d d.length (str ++ d) pieces rest ∧
      rest ≠ [] := by
  obtain ⟨w, hw, hne, ⟨x, hx⟩, ⟨y, hy⟩⟩ := hd
  have hxne : x ≠ [] := by
    rintro rfl
    exact hne (by simpa using hx)
  have hxpos := List.length_pos_of_ne_nil hxne
  have hwpos := List.length_pos_of_ne_nil hw
  have hlen := congrArg List.length hx
  rw [List.length_append] at hlen
  have hlast : firstIndex d x = none :=
    firstIndex_eq_none_iff.mpr fun hoccurs => by
      have hle := hoccurs.length_le
      omega
  -- `d` occurs at the beginning of `d ++ y ++ d`, and after that again at the beginning
  have hagain : d ++ y ++ d = d ++ (d ++ x) := by
    nth_rewrite 2 [← hx]
    rw [List.append_assoc, ← List.append_assoc y, hy]
  have hsplits : SplitsInto d d.length (d ++ y ++ d) [[], []] x := by
    rw [hagain]
    exact (SplitsInto.last hlast).cons.cons
  refine ⟨d ++ y, _, x, ?_, hsplits, hxne⟩
  rw [List.length_append]
  omega

end Foundations
