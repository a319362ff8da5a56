import Mathlib.Data.List.Basic

/-!
# Words between blanks

`words` cuts a text at its blanks, and `Spaced ws l` says that `l` is made of the words `ws` with
blanks between them, and perhaps before the first and after the last. What is written so is read
back (`words_of_spaced`).
-/

namespace Foundations

variable {α β : Type*} {blank : α → Bool}

/-- The words of a text. -/
def words (blank : α → Bool) (l : List α) : List (List α) :=
  (l.splitOnP blank).filter fun word => !word.isEmpty

/-- The text is made of the words, with blanks between them. -/
inductive Spaced (blank : α → Bool) : List (List α) → List α → Prop
  | nil (gap : List α) (hgap : ∀ b ∈ gap, blank b = true) : Spaced blank [] gap
  | cons (gap word : List α) {ws : List (List α)} {rest : List α}
    (hgap : ∀ b ∈ gap, blank b = true) (hrest : Spaced blank ws rest)
    (hsep : ∀ b ∈ rest.head?, blank b = true) : Spaced blank (word :: ws) (gap ++ word ++ rest)

/-- A word: there is something in it, and no blank. -/
def IsWord (blank : α → Bool) (word : List α) : Prop := word ≠ [] ∧ ∀ b ∈ word, blank b = false

theorem words_cons_of_blank {b : α} (hb : blank b = true) (l : List α) :
    words blank (b :: l) = words blank l := by
  have hsplit := List.splitOnP_append_cons (p := blank) [] l hb
  rw [List.nil_append, List.splitOnP_nil] at hsplit
  rw [words, hsplit]
  rfl

theorem words_append_of_blank {gap : List α} (hgap : ∀ b ∈ gap, blank b = true) (l : List α) :
    words blank (gap ++ l) = words blank l := by
  induction gap with
  | nil => rfl
  | cons b gap ih =>
    obtain ⟨hb, hgap⟩ := List.forall_mem_cons.mp hgap
    rw [List.cons_append, words_cons_of_blank hb, ih hgap]

theorem words_of_blank {gap : List α} (hgap : ∀ b ∈ gap, blank b = true) :
    words blank gap = [] := by
  have hnil := words_append_of_blank hgap []
  rw [List.append_nil] at hnil
  exact hnil

/-- A word at the start of a text, before a blank or the end. -/
theorem words_append_of_isWord {word rest : List α} (hword : IsWord blank word)
    (hsep : ∀ b ∈ rest.head?, blank b = true) :
    words blank (word ++ rest) = word :: words blank rest := by
  have hne : (!word.isEmpty) = true := by simpa using hword.1
  cases rest with
  | nil =>
    rw [List.append_nil, words, List.splitOnP_eq_singleton hword.2, List.filter_singleton, hne]
    rfl
  | cons b rest =>
    have hb : blank b = true := hsep b rfl
    rw [words_cons_of_blank hb, words, List.splitOnP_append_cons _ _ hb,
      List.splitOnP_eq_singleton hword.2, List.singleton_append]
    exact List.filter_cons_of_pos hne

/-- **Words that are written with blanks between them are read back.** -/
theorem words_of_spaced {ws : List (List α)} {l : List α} (h : Spaced blank ws l)
    (hws : ∀ word ∈ ws, IsWord blank word) : words blank l = ws := by
  induction h with
  | nil gap hgap => exact words_of_blank hgap
  | cons gap word hgap hrest hsep ih =>
    obtain ⟨hword, hws⟩ := List.forall_mem_cons.mp hws
    rw [List.append_assoc, words_append_of_blank hgap, words_append_of_isWord hword hsep, ih hws]

/-- A function that keeps blanks apart from the rest is applied to a text. -/
theorem Spaced.map {blank' : β → Bool} {f : α → β} (hf : ∀ b, blank' (f b) = blank b)
    {ws : List (List α)} {l : List α} (h : Spaced blank ws l) :
    Spaced blank' (ws.map (List.map f)) (l.map f) := by
  induction h with
  | nil gap hgap => exact .nil _ (List.forall_mem_map.mpr fun b hb => (hf b).trans (hgap b hb))
  | @cons gap word ws rest hgap hrest hsep ih =>
    rw [List.map_append, List.map_append]
    refine .cons _ _ (List.forall_mem_map.mpr fun b hb => (hf b).trans (hgap b hb)) ih ?_
    cases rest with
    | nil => exact fun b hb => by cases hb
    | cons b rest => simpa [hf] using hsep

/-- Everything in the text is a blank, or in a word. -/
theorem Spaced.mem {ws : List (List α)} {l : List α} (h : Spaced blank ws l) {b : α}
    (hb : b ∈ l) : blank b = true ∨ ∃ word ∈ ws, b ∈ word := by
  induction h with
  | nil gap hgap => exact .inl (hgap b hb)
  | cons gap word hgap hrest hsep ih =>
    rcases List.mem_append.mp hb with hb | hb
    · rcases List.mem_append.mp hb with hb | hb
      · exact .inl (hgap b hb)
      · exact .inr ⟨word, List.mem_cons_self, hb⟩
    · refine (ih hb).imp_right fun ⟨v, hv, hbv⟩ => ⟨v, List.mem_cons_of_mem word hv, hbv⟩

end Foundations
