import Mathlib.Data.List.TakeWhile

/-!
# Texts that are joined

A text is written piece by piece, with a word before the first piece and a separator before each of
the others, and read by splitting it at the separators.
-/

namespace Foundations

variable {α : Type*}

theorem intercalate_cons_eq_flatMap (sep a : List α) (as : List (List α)) :
    sep.intercalate (a :: as) = a ++ as.flatMap (sep ++ ·) := by
  induction as generalizing a with
  | nil => simp
  | cons b as ih =>
    rw [List.intercalate_cons_cons, ih, List.flatMap_cons, List.append_assoc, List.append_assoc]

/-- A separator after the last piece as well. -/
theorem flatMap_append_eq_intercalate (sep : List α) {as : List (List α)} (h : as ≠ []) :
    as.flatMap (· ++ sep) = sep.intercalate as ++ sep := by
  induction as with
  | nil => exact absurd rfl h
  | cons a as ih =>
    cases as with
    | nil => simp
    | cons b as =>
      rw [List.flatMap_cons, ih (List.cons_ne_nil _ _), List.intercalate_cons_cons]
      simp only [List.append_assoc]

theorem notMem_intercalate {a : α} {sep : List α} {pieces : List (List α)}
    (hsep : a ∉ sep) (h : ∀ piece ∈ pieces, a ∉ piece) : a ∉ sep.intercalate pieces := by
  cases pieces with
  | nil => exact List.not_mem_nil
  | cons piece pieces =>
    obtain ⟨hpiece, hpieces⟩ := List.forall_mem_cons.mp h
    rw [intercalate_cons_eq_flatMap]
    simp only [List.mem_append, List.mem_flatMap, not_or, not_exists, not_and]
    exact ⟨hpiece, fun piece hmem => ⟨hsep, hpieces piece hmem⟩⟩

/-- The second element of the separator counts as the first of a piece. -/
theorem intercalate_pair (a b : α) (piece : List α) (pieces : List (List α)) :
    [a, b].intercalate (piece :: pieces) =
      [a].intercalate (piece :: pieces.map (b :: ·)) := by
  rw [intercalate_cons_eq_flatMap, intercalate_cons_eq_flatMap, List.flatMap_map]
  rfl

/-- The text before the next piece: the word `first`, or a separator after the text so far. -/
def separated (first sep text : List α) : List α :=
  if text.isEmpty then first else text ++ sep

/-- A piece after the text so far. -/
def joinPiece (first sep text piece : List α) : List α := separated first sep text ++ piece

theorem length_le_separated (first sep text : List α) :
    text.length ≤ (separated first sep text).length := by
  unfold separated
  cases text with
  | nil => exact Nat.zero_le _
  | cons c text =>
    change _ ≤ (c :: text ++ sep).length
    rw [List.length_append]
    exact Nat.le_add_right _ _

/-- Pieces that are joined to an empty text. -/
theorem foldl_joinPiece {first : List α} (sep : List α) (hfirst : first ≠ [])
    (piece : List α) (pieces : List (List α)) :
    (piece :: pieces).foldl (joinPiece first sep) [] =
      first ++ sep.intercalate (piece :: pieces) := by
  have hfurther : ∀ (pieces : List (List α)) {text : List α}, text ≠ [] →
      pieces.foldl (joinPiece first sep) text = text ++ pieces.flatMap (sep ++ ·) := by
    intro pieces
    induction pieces with
    | nil => exact fun _ => (List.append_nil _).symm
    | cons piece pieces ih =>
      intro text htext
      have hjoin : joinPiece first sep text piece = text ++ sep ++ piece := by
        cases text with
        | nil => exact absurd rfl htext
        | cons c text => rfl
      rw [List.foldl_cons, hjoin, ih (by simp [htext]), List.flatMap_cons]
      simp only [List.append_assoc]
  rw [List.foldl_cons, intercalate_cons_eq_flatMap, ← List.append_assoc]
  exact hfurther pieces (by simp [joinPiece, separated, hfirst])

/-- A function that joins the pieces of a list one after another, some elements without one. -/
theorem eq_foldl_joinPiece {β : Type*} {first sep : List α} {piece : β → ℕ → Option (List α)}
    {join : List α → ℕ → List β → List α} (hnil : ∀ text i, join text i [] = text)
    (hcons : ∀ text i b bs, join text i (b :: bs) =
      join ((piece b i).elim text (joinPiece first sep text)) (i + 1) bs)
    (text : List α) (i : ℕ) (bs : List β) :
    join text i bs = ((bs.zipIdx i).filterMap fun p => piece p.1 p.2).foldl
      (joinPiece first sep) text := by
  induction bs generalizing i text with
  | nil => exact hnil text i
  | cons b bs ih =>
    rw [hcons, ih, List.zipIdx_cons, List.filterMap_cons]
    cases piece b i with
    | none => rfl
    | some piece => rfl

/-! ## Reading piece by piece -/

section Reading

variable {β γ δ : Type*} {g : β → γ} {h : β → δ} {as : List β}

theorem mapM_map_eq_some {f : γ → Option δ} (hread : ∀ a ∈ as, f (g a) = some (h a)) :
    (as.map g).mapM f = some (as.map h) := by
  induction as with
  | nil => rfl
  | cons a as ih =>
    obtain ⟨ha, has⟩ := List.forall_mem_cons.mp hread
    rw [List.map_cons, List.mapM_cons, ha, ih has]
    rfl

variable [DecidableEq α] {f : List α → Option δ} {write : β → List α} {x y : α}

/-- Pieces that are written with separators between them are read back. -/
theorem mapM_splitOn_intercalate (hne : as ≠ []) (hsep : ∀ a ∈ as, x ∉ write a)
    (hread : ∀ a ∈ as, f (write a) = some (h a)) :
    (([x].intercalate (as.map write)).splitOn x).mapM f = some (as.map h) := by
  rw [List.splitOn_intercalate x (List.forall_mem_map.mpr hsep) (by simpa using hne)]
  exact mapM_map_eq_some hread

/-- The same when the reader skips the second element of the separator. -/
theorem mapM_splitOn_intercalate_pair (hne : as ≠ []) (hxy : x ≠ y)
    (hsep : ∀ a ∈ as, x ∉ write a) (hread : ∀ a ∈ as, f (write a) = some (h a))
    (hskip : ∀ a ∈ as, f (y :: write a) = some (h a)) :
    (([x, y].intercalate (as.map write)).splitOn x).mapM f = some (as.map h) := by
  cases as with
  | nil => exact absurd rfl hne
  | cons a as =>
    obtain ⟨ha, has⟩ := List.forall_mem_cons.mp hsep
    obtain ⟨hreada, -⟩ := List.forall_mem_cons.mp hread
    obtain ⟨-, hskips⟩ := List.forall_mem_cons.mp hskip
    have hpieces : ∀ piece ∈ write a :: (as.map write).map (y :: ·), x ∉ piece := by
      refine List.forall_mem_cons.mpr ⟨ha, ?_⟩
      rw [List.map_map]
      exact List.forall_mem_map.mpr fun c hc => List.not_mem_cons_of_ne_of_not_mem hxy (has c hc)
    have hfurther : ((as.map write).map (y :: ·)).mapM f = some (as.map h) := by
      rw [List.map_map]
      exact mapM_map_eq_some hskips
    rw [List.map_cons, intercalate_pair, List.splitOn_intercalate x hpieces (by simp),
      List.mapM_cons, hreada, hfurther]
    rfl

omit [DecidableEq α] in
theorem takeWhile_append_cons_of_notMem {p : α → Bool} {l rest : List α}
    (h : ∀ a ∈ l, p a = true) (hx : p x = false) : (l ++ x :: rest).takeWhile p = l := by
  rw [List.takeWhile_append_of_pos h, List.takeWhile_cons, hx]
  exact List.append_nil l

/-- The text before the first separator is the first piece that is read. -/
theorem takeWhile_mem_splitOn (x : α) (l : List α) :
    l.takeWhile (fun a => decide (a ≠ x)) ∈ l.splitOn x := by
  have hmem : ∀ {l' : List α}, x ∉ l' → ∀ a ∈ l', decide (a ≠ x) = true := fun hl a ha =>
    decide_eq_true fun heq => hl (heq ▸ ha)
  by_cases hx : x ∈ l
  · obtain ⟨l', rest, rfl, hl⟩ := List.eq_append_cons_of_mem hx
    rw [takeWhile_append_cons_of_notMem (hmem hl) (by simp),
      List.splitOn_append_cons_self_of_not_mem hl]
    exact List.mem_cons_self
  · rw [List.takeWhile_eq_self_iff.mpr (hmem hx), List.splitOn_eq_singleton hx]
    exact List.mem_singleton_self l

/-- The pieces that are read off a joined text are those of its parts. -/
theorem mem_splitOn_intercalate {pieces : List (List α)} {piece part : List α}
    (hpiece : piece ∈ pieces) (hpart : part ∈ piece.splitOn x) :
    part ∈ ([x].intercalate pieces).splitOn x := by
  induction pieces with
  | nil => cases hpiece
  | cons first pieces ih =>
    cases pieces with
    | nil =>
      obtain rfl := List.mem_singleton.mp hpiece
      simpa using hpart
    | cons second pieces =>
      rw [List.intercalate_cons_cons, List.append_assoc, List.singleton_append,
        List.splitOn_append_cons_self, List.mem_append]
      rcases List.mem_cons.mp hpiece with rfl | hpiece
      · exact .inl hpart
      · exact .inr (ih hpiece)

end Reading

end Foundations
