import PetsServer.Define
import PetsServer.Foundations.Loop
import PetsServer.Foundations.Splitting
import PetsServer.Foundations.Text

/-!
# The parser of login texts

`Pet::Parse` splits a text at a delimiter. It appends the delimiter to the text and cuts off, at
each occurrence, what comes before it and the delimiter, whose length it keeps in an `int`. It has
no `return` after the loop.
-/

namespace PetsServer

open Foundations

/-- The variables `strs` and `res` of `Parse`. -/
structure Parsing where
  strs : List Byte
  res : List (List Byte)
  deriving DecidableEq, Repr

/-- The variable `step` of `Parse`: the length as an `int`. -/
def parseStep (delimiter : List Byte) : Int32 := Int32.ofNat delimiter.length

/-- `std::string::substr` from `pos` to the end. The position is unsigned, so that a negative one is
out of range like one that is too large. -/
def substr (s : List Byte) (pos : ℤ) : Except Fault (List Byte) :=
  if 0 ≤ pos ∧ pos ≤ s.length then .ok (s.drop pos.toNat) else .error .outOfRange

/-- A pass of the loop of `Parse`, from the `find` at its head. -/
def parsePass (delimiter : List Byte) (p : Parsing) : Except Fault (Pass Parsing Parsing) :=
  match firstIndex delimiter p.strs with
  | none => .ok (.leave p)
  | some pos => do
    let strs ← substr p.strs (pos + (parseStep delimiter).toInt)
    .ok (.again ⟨strs, p.res ++ [p.strs.take pos]⟩)

/-- The loop of `Parse`, for a number of passes: the pieces that are in `res` when it ends. -/
def Pet.parseLoop (passes : ℕ) (str delimiter : List Byte) : Except Fault (List (List Byte)) := do
  let p ← loop (parsePass delimiter) .stillRunning passes ⟨str ++ delimiter, []⟩
  .ok p.res

/-- The vector `res` at the end of `Parse`. -/
def Pet.parseRes (passes : ℕ) (str delimiter : List Byte) : Except Fault (List (List Byte)) :=
  if str.length ≤ 1 then .ok [] else Pet.parseLoop passes str delimiter

/-- `Pet::Parse`, for a number of passes. The value that is taken for the missing one is
`noReturn`. -/
def Pet.parse (noReturn : List (List Byte)) (passes : ℕ) (str delimiter : List Byte) :
    Except Fault (List (List Byte)) :=
  if str.length ≤ 1 then .ok []
  else do
    let _res ← Pet.parseLoop passes str delimiter
    .ok noReturn

/-- The test of `OnNetLoginMsg`, which goes on with an account and a password. -/
def passesSizeTest (vecParam : List (List Byte)) : Bool :=
  !(vecParam.isEmpty || vecParam.length ≠ 2)

/-! ## The loop -/

variable {delimiter strs rest : List Byte} {step : ℕ} {pieces res : List (List Byte)}

/-- The length as an `int`. -/
theorem toInt_parseStep (delimiter : List Byte) :
    (parseStep delimiter).toInt =
      if delimiter.length % 2 ^ 32 < 2 ^ 31 then (delimiter.length % 2 ^ 32 : ℤ)
      else delimiter.length % 2 ^ 32 - 2 ^ 32 := by
  rw [parseStep, Int32.toInt_ofNat', Int.bmod_def]
  simp only [Int32.size]
  split <;> split <;> omega

theorem substr_of_le {n : ℕ} (h : n ≤ strs.length) : substr strs n = .ok (strs.drop n) :=
  if_pos ⟨Int.natCast_nonneg n, Int.ofNat_le.mpr h⟩

/-- A pass that cuts a piece off. -/
theorem parsePass_cut {n : ℕ} (hstep : (parseStep delimiter).toInt = step)
    (hle : step ≤ delimiter.length) (h : firstIndex delimiter strs = some n) :
    parsePass delimiter ⟨strs, res⟩ =
      .ok (.again ⟨strs.drop (n + step), res ++ [strs.take n]⟩) := by
  have hlen := length_le_of_firstIndex h
  rw [parsePass, h]
  change substr strs (n + (parseStep delimiter).toInt) >>= _ = _
  rw [hstep, ← Int.natCast_add, substr_of_le (by omega)]
  rfl

theorem parsePass_last (h : firstIndex delimiter strs = none) :
    parsePass delimiter ⟨strs, res⟩ = .ok (.leave ⟨strs, res⟩) := by
  rw [parsePass, h]

/-- The loop splits the text. -/
theorem loop_parsePass (hstep : (parseStep delimiter).toInt = step)
    (hle : step ≤ delimiter.length) (h : SplitsInto delimiter step strs pieces rest)
    (res : List (List Byte)) :
    loop (parsePass delimiter) .stillRunning (pieces.length + 1) ⟨strs, res⟩ =
      .ok ⟨rest, res ++ pieces⟩ := by
  induction h generalizing res with
  | last hnone => rw [loop_leave (parsePass_last hnone), List.append_nil]
  | cut hsome _ ih =>
    rw [loop_again (parsePass_cut hstep hle hsome), List.length_cons, ih, List.append_assoc]
    rfl

/-- The pieces of `res` are those that the text and a delimiter after it are split into. -/
theorem parseLoop_of_splitsInto (hstep : (parseStep delimiter).toInt = step)
    (hle : step ≤ delimiter.length) {str : List Byte}
    (h : SplitsInto delimiter step (str ++ delimiter) pieces rest) :
    Pet.parseLoop (pieces.length + 1) str delimiter = .ok pieces := by
  rw [Pet.parseLoop, loop_parsePass hstep hle h]
  rfl

/-- The number of passes does not matter, if it is enough. -/
theorem parseLoop_unique {passes passes' : ℕ} {str : List Byte} {res' : List (List Byte)}
    (h : Pet.parseLoop passes str delimiter = .ok res)
    (h' : Pet.parseLoop passes' str delimiter = .ok res') : res = res' := by
  have hends {passes : ℕ} {res : List (List Byte)}
      (h : Pet.parseLoop passes str delimiter = .ok res) :
      ∃ strs, loop (parsePass delimiter) .stillRunning passes ⟨str ++ delimiter, []⟩ =
        .ok ⟨strs, res⟩ := by
    rw [Pet.parseLoop] at h
    cases hloop : loop (parsePass delimiter) .stillRunning passes ⟨str ++ delimiter, []⟩ with
    | error fault => rw [hloop] at h; cases h
    | ok p => rw [hloop] at h; cases h; exact ⟨p.strs, rfl⟩
  obtain ⟨strs, hloop⟩ := hends h
  obtain ⟨strs', hloop'⟩ := hends h'
  have hmono := loop_mono hloop (Nat.le_max_left passes passes')
  rw [loop_mono hloop' (Nat.le_max_right passes passes')] at hmono
  exact (congrArg Parsing.res (Except.ok.inj hmono)).symm

/-- With another step, the loop does not end for the delimiter itself: it stays where it is, or cuts
off at a negative position. -/
theorem parseLoop_ne_ok (hstep : (parseStep delimiter).toInt ≤ 0) (passes : ℕ) :
    Pet.parseLoop passes delimiter delimiter ≠ .ok res := by
  have hloop (passes : ℕ) (res : List (List Byte)) : ∃ fault,
      loop (parsePass delimiter) .stillRunning passes ⟨delimiter ++ delimiter, res⟩ =
        .error fault := by
    induction passes generalizing res with
    | zero => exact ⟨_, rfl⟩
    | succ passes ih =>
      have hpass : parsePass delimiter ⟨delimiter ++ delimiter, res⟩ =
          substr (delimiter ++ delimiter) ((0 : ℕ) + (parseStep delimiter).toInt) >>= fun strs =>
            .ok (.again ⟨strs, res ++ [(delimiter ++ delimiter).take 0]⟩) := by
        rw [parsePass, firstIndex_append]
      by_cases hzero : (parseStep delimiter).toInt = 0
      · rw [hzero] at hpass
        obtain ⟨fault, hfault⟩ := ih (res ++ [[]])
        exact ⟨fault, (loop_again hpass).trans hfault⟩
      · have hsubstr : substr (delimiter ++ delimiter) ((0 : ℕ) + (parseStep delimiter).toInt) =
            .error .outOfRange := if_neg (by omega)
        rw [hsubstr] at hpass
        exact ⟨.outOfRange, by rw [loop, hpass]; rfl⟩
  obtain ⟨fault, hfault⟩ := hloop passes []
  rw [Pet.parseLoop, hfault]
  rintro ⟨⟩

/-! ## The pieces -/

/-- The loop ends, and no piece contains the delimiter. -/
def Pet.SplitsAt (delimiter str : List Byte) : Prop :=
  ∃ passes res, Pet.parseLoop passes str delimiter = .ok res ∧ ∀ piece ∈ res, ¬ delimiter <:+: piece

/-- The loop ends, and the text is read back from the pieces. -/
def Pet.ReadsBack (delimiter str : List Byte) : Prop :=
  ∃ passes res, Pet.parseLoop passes str delimiter = .ok res ∧ delimiter.intercalate res = str

section Splits

variable (hstep : (parseStep delimiter).toInt = step) (hle : step ≤ delimiter.length)
include hstep hle

theorem splitsAt (hpos : 0 < step) (str : List Byte) : Pet.SplitsAt delimiter str := by
  have hd : delimiter ≠ [] := List.ne_nil_of_length_pos (by omega)
  obtain ⟨pieces, rest, hsplits⟩ := exists_splitsInto hd hpos (str ++ delimiter)
  exact ⟨_, pieces, parseLoop_of_splitsInto hstep hle hsplits, hsplits.not_occurs hd⟩

theorem readsBack_iff_intercalate {str : List Byte}
    (h : SplitsInto delimiter step (str ++ delimiter) pieces rest) :
    Pet.ReadsBack delimiter str ↔ delimiter.intercalate pieces = str := by
  have hloop := parseLoop_of_splitsInto hstep hle h
  refine ⟨?_, fun hjoin => ⟨_, pieces, hloop, hjoin⟩⟩
  rintro ⟨passes, res, hres, hjoin⟩
  rwa [parseLoop_unique hloop hres]

end Splits

/-- The delimiters at which every text is read back, when all of the delimiter is cut off. -/
theorem forall_readsBack_iff (hstep : (parseStep delimiter).toInt = delimiter.length)
    (hd : delimiter ≠ []) :
    (∀ str, 2 ≤ str.length → Pet.ReadsBack delimiter str) ↔ ¬ SelfOverlapping delimiter := by
  constructor
  · intro hall hover
    obtain ⟨str, pieces, rest, hlen, hsplits, hrest⟩ := exists_rest_ne_nil hover
    have hjoin := (readsBack_iff_intercalate hstep le_rfl hsplits).mp (hall str hlen)
    exact hrest (hsplits.intercalate_iff.mp hjoin)
  · intro hover str _
    obtain ⟨pieces, rest, hsplits⟩ :=
      exists_splitsInto hd (List.length_pos_of_ne_nil hd) (str ++ delimiter)
    refine (readsBack_iff_intercalate hstep le_rfl hsplits).mpr ?_
    exact hsplits.intercalate_iff.mpr (hsplits.rest_eq_nil hover)

/-- When at most half of it is cut off, the delimiter itself is not read back. -/
theorem not_readsBack_self (hstep : (parseStep delimiter).toInt = step) (hpos : 0 < step)
    (hle : 2 * step ≤ delimiter.length) : ¬ Pet.ReadsBack delimiter delimiter := by
  have hd : delimiter ≠ [] := List.ne_nil_of_length_pos (by omega)
  obtain ⟨pieces, rest, hsplits⟩ := exists_splitsInto hd hpos (delimiter ++ delimiter)
  rw [readsBack_iff_intercalate hstep (by omega) hsplits]
  exact hsplits.intercalate_ne hd hle

/-- **The splitting loop.** For every text of two characters or more the loop ends, no piece
contains the delimiter, and the delimiters at which all these texts are read back are those that do
not overlap themselves: this holds exactly for the delimiters whose length fits in an `int`, and for
those that overlap themselves and whose length becomes positive as an `int`. -/
theorem parseLoop_splits_iff (delimiter : List Byte) (hd : delimiter ≠ []) :
    (((∀ str, 2 ≤ str.length → Pet.SplitsAt delimiter str) ∧
        ((∀ str, 2 ≤ str.length → Pet.ReadsBack delimiter str) ↔ ¬ SelfOverlapping delimiter)) ↔
      delimiter.length < 2 ^ 31 ∨ SelfOverlapping delimiter ∧
        0 < delimiter.length % 2 ^ 32 ∧ delimiter.length % 2 ^ 32 < 2 ^ 31) ∧
      ¬ SelfOverlapping (ascii "&") := by
  refine ⟨?_, not_selfOverlapping_singleton _⟩
  have hlen := List.length_pos_of_ne_nil hd
  have hint := toInt_parseStep delimiter
  by_cases hshort : delimiter.length < 2 ^ 31
  · have hstep : (parseStep delimiter).toInt = delimiter.length := by
      rw [hint, if_pos (by omega)]
      omega
    exact iff_of_true ⟨fun str _ => splitsAt hstep le_rfl hlen str,
      forall_readsBack_iff hstep hd⟩ (.inl hshort)
  by_cases hpos : 0 < delimiter.length % 2 ^ 32 ∧ delimiter.length % 2 ^ 32 < 2 ^ 31
  · have hstep : (parseStep delimiter).toInt = (delimiter.length % 2 ^ 32 : ℕ) := by
      rw [hint, if_pos hpos.2]
      rfl
    have hnot : ¬ ∀ str, 2 ≤ str.length → Pet.ReadsBack delimiter str := fun hall =>
      not_readsBack_self hstep hpos.1 (by omega) (hall delimiter (by omega))
    have hall : ∀ str, 2 ≤ str.length → Pet.SplitsAt delimiter str := fun str _ =>
      splitsAt hstep (by omega) hpos.1 str
    simp only [hshort, hpos, hnot, false_or, and_true, false_iff, not_not]
    exact and_iff_right hall
  · have hstep : (parseStep delimiter).toInt ≤ 0 := by
      rw [hint]
      split <;> omega
    refine iff_of_false (fun h => ?_) (by tauto)
    obtain ⟨passes, res, hloop, -⟩ := h.1 delimiter (by omega)
    exact parseLoop_ne_ok hstep passes hloop

/-- The text `a&b` is split at `&`, and read back. -/
theorem parseLoop_splits_amp :
    Pet.SplitsAt (ascii "&") (ascii "a&b") ∧ Pet.ReadsBack (ascii "&") (ascii "a&b") := by
  obtain ⟨hiff, hamp⟩ := parseLoop_splits_iff (ascii "&") (by decide)
  obtain ⟨hsplits, hreads⟩ := hiff.mpr (.inl (by decide))
  have hlen : 2 ≤ (ascii "a&b").length := by decide
  exact ⟨hsplits _ hlen, hreads.mpr hamp _ hlen⟩

/-- The length of 2147483648 characters is negative as an `int`: they cannot be cut off. -/
theorem parseLoop_long_delimiter :
    ¬ ((∀ str, 2 ≤ str.length → Pet.SplitsAt (List.replicate (2 ^ 31) 38) str) ∧
      ((∀ str, 2 ≤ str.length → Pet.ReadsBack (List.replicate (2 ^ 31) 38) str) ↔
        ¬ SelfOverlapping (List.replicate (2 ^ 31) (38 : Byte)))) := by
  intro h
  have hlen : (List.replicate (2 ^ 31) (38 : Byte)).length = 2 ^ 31 := List.length_replicate
  have hstep : (parseStep (List.replicate (2 ^ 31) 38)).toInt ≤ 0 := by
    rw [toInt_parseStep, hlen]
    decide
  obtain ⟨passes, res, hloop, -⟩ := h.1 (List.replicate (2 ^ 31) 38) (by rw [hlen]; decide)
  exact parseLoop_ne_ok hstep passes hloop

/-! ## Account and password -/

/-- After the loop `Parse` returns anything. -/
theorem parse_of_two_le {noReturn vec : List (List Byte)} {passes : ℕ} {str : List Byte}
    (hlen : 2 ≤ str.length) (h : Pet.parse noReturn passes str delimiter = .ok vec) :
    vec = noReturn := by
  rw [Pet.parse, if_neg (by omega)] at h
  cases hloop : Pet.parseLoop passes str delimiter with
  | error fault => rw [hloop] at h; cases h
  | ok res => rw [hloop] at h; cases h; rfl

/-- What it has built are the pieces between the `&`s. -/
theorem parseLoop_amp (text : List Byte) :
    ∃ passes, Pet.parseLoop passes text (ascii "&") = .ok (text.splitOn 38) := by
  have hamp : ascii "&" = [38] := rfl
  obtain ⟨pieces, rest, hsplits⟩ :=
    exists_splitsInto (List.cons_ne_nil 38 []) Nat.one_pos (text ++ [38])
  have hjoin : [38].intercalate pieces = text :=
    hsplits.intercalate_iff.mpr (hsplits.rest_eq_nil (not_selfOverlapping_singleton _))
  have hpieces : ∀ piece ∈ pieces, 38 ∉ piece := fun piece hmem => by
    rw [← List.singleton_infix_iff]
    exact hsplits.not_occurs (List.cons_ne_nil _ _) piece hmem
  have hne : pieces ≠ [] := hsplits.pieces_ne_nil ⟨text, [], List.append_nil _⟩
  refine ⟨pieces.length + 1, ?_⟩
  rw [hamp, parseLoop_of_splitsInto rfl le_rfl hsplits, ← hjoin,
    List.splitOn_intercalate 38 hpieces hne]

/-- **Account and password.** `OnNetLoginMsg` gets the pieces that `Parse` has built, and goes on
with two if and only if the text has two characters and one `&`, with the parts before and after it:
this holds exactly for the texts of fewer than two characters. -/
theorem parse_login_iff (text : List Byte) :
    (∀ noReturn, ∃ passes vec, Pet.parse noReturn passes text (ascii "&") = .ok vec ∧
        Pet.parseRes passes text (ascii "&") = .ok vec ∧
        (passesSizeTest vec ↔ 2 ≤ text.length ∧ text.count 38 = 1) ∧
        ∀ before after, passesSizeTest vec → text = before ++ 38 :: after →
          vec = [before, after]) ↔
      text.length < 2 := by
  constructor
  · intro h
    by_contra hlen
    obtain ⟨passes, vec, hparse, -, htest, -⟩ := h []
    obtain ⟨passes', vec', hparse', -, htest', -⟩ := h [[], []]
    rw [parse_of_two_le (by omega) hparse] at htest
    rw [parse_of_two_le (by omega) hparse'] at htest'
    exact absurd (htest.mpr (htest'.mp rfl)) Bool.false_ne_true
  · intro hlen noReturn
    have hle : text.length ≤ 1 := by omega
    refine ⟨0, [], if_pos hle, if_pos hle, ?_, fun _ _ h => ?_⟩
    · exact iff_of_false (by simp [passesSizeTest]) (by omega)
    · simp [passesSizeTest] at h

/-- For `a&b` an empty vector can be returned. -/
theorem parse_login_lost :
    ¬ ∀ noReturn, ∃ passes vec, Pet.parse noReturn passes (ascii "a&b") (ascii "&") = .ok vec ∧
      (passesSizeTest vec ↔ 2 ≤ (ascii "a&b").length ∧ (ascii "a&b").count 38 = 1) := by
  intro h
  obtain ⟨passes, vec, hparse, htest⟩ := h []
  rw [parse_of_two_le (by decide) hparse] at htest
  exact absurd (htest.mpr (by decide)) Bool.false_ne_true

end PetsServer
