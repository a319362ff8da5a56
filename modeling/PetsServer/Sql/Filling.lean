import PetsServer.Sql.Texts

/-!
# What the texts depend on

`PrepareBuffer` is one block for all calls, and is not cleared between them. The texts that
`Execute` builds do not depend on what is in it: of two runs from blocks that agree up to the index,
each leaves a block that agrees with the other up to the new index (`coupled_buildTexts`). Nor do
they depend on what `sprintf` makes of a `std::string`, unless there is such a parameter.
-/

namespace PetsServer

open Foundations

/-- Two blocks of one size that agree before the index. -/
def AgreeTo (n : ℕ) (b b' : List Byte) : Prop := b.length = b'.length ∧ b.take n = b'.take n

theorem AgreeTo.mono {m n : ℕ} {b b' : List Byte} (h : AgreeTo n b b') (hm : m ≤ n) :
    AgreeTo m b b' := by
  refine ⟨h.1, ?_⟩
  have htake := congrArg (List.take m) h.2
  rwa [List.take_take, List.take_take, Nat.min_eq_left hm] at htake

/-- Bytes written at the index, or before it. -/
theorem AgreeTo.overwrite {n i : ℕ} {b b' data : List Byte} (h : AgreeTo n b b') (hi : i ≤ n)
    (hfit : i + data.length ≤ b.length) :
    AgreeTo (i + data.length) (overwrite b i data) (overwrite b' i data) := by
  have hfit' : i + data.length ≤ b'.length := h.1 ▸ hfit
  refine ⟨?_, ?_⟩
  · rw [length_overwrite hfit, length_overwrite hfit', h.1]
  · rw [take_overwrite hfit, take_overwrite hfit', (h.mono hi).2]

/-! ## One write -/

theorem coupled_writeAt {n i : ℕ} (data : List Byte) (hi : i ≤ n) :
    Coupled (AgreeTo n) (writeAt i data) (writeAt i data) fun _ => AgreeTo (i + data.length) := by
  intro b b' r t h hx
  by_cases hfit : i + data.length ≤ b.length
  · obtain ⟨rfl, rfl⟩ := hx.unique (writeAt_of_le hfit)
    exact ⟨_, writeAt_of_le (h.1 ▸ hfit), fun _ _ => h.overwrite hi hfit⟩
  · obtain ⟨rfl, rfl⟩ := hx.unique (writeAt_of_not_le hfit)
    exact ⟨_, writeAt_of_not_le (h.1 ▸ hfit), fun _ ha => by cases ha⟩

/-- After `sprintf` the blocks agree up to the end of the text. -/
theorem coupled_sprintfAt {n i : ℕ} (text : List Byte) (hi : i ≤ n) :
    Coupled (AgreeTo n) (sprintfAt i text) (sprintfAt i text)
      fun len b b' => len = text.length ∧ AgreeTo (i + text.length) b b' := by
  refine coupled_bind (coupled_writeAt (text ++ [0]) hi) fun _ => coupled_pure fun b b' h => ?_
  refine ⟨rfl, h.mono ?_⟩
  rw [List.length_append]
  omega

theorem coupled_separateSet {n : ℕ} :
    Coupled (AgreeTo n) (separateSet n) (separateSet n) fun idx => AgreeTo idx := by
  unfold separateSet
  split
  · exact coupled_bind (coupled_writeAt (ascii ",") (Nat.le_refl n)) fun _ =>
      coupled_pure fun _ _ h => h
  · exact coupled_bind (coupled_writeAt (ascii "set" ++ [0]) (Nat.zero_le n)) fun _ =>
      coupled_pure fun _ _ h => h.mono (by decide)

theorem coupled_writeHex {idx : ℕ} (block : List Byte) (m k : ℕ) :
    Coupled (AgreeTo (idx + m * 2)) (writeHex idx block m k) (writeHex idx block m k)
      fun _ => AgreeTo (idx + (m + k) * 2) := by
  induction k generalizing m with
  | zero => exact coupled_pure fun _ _ h => h
  | succ k ih =>
    unfold writeHex
    split
    · exact coupled_throw
    · refine coupled_bind (coupled_sprintfAt _ (Nat.le_refl _)) fun len => ?_
      refine (ih (m + 1)).mono (fun b b' h => h.2.mono ?_) fun _ b b' h => h.mono ?_
      · rw [length_hexByte]
        omega
      · omega

/-! ## One parameter -/

variable {R : List Byte → List Byte → Prop}

/-- The programs that read a value leave the block alone. -/
theorem coupled_anyValueToString (param : SqlParam) :
    Coupled R (anyValueToString param) (anyValueToString param) fun _ => R := by
  unfold anyValueToString
  split
  · refine coupled_bind (S := fun _ => R) ?_ fun _ => coupled_pure fun _ _ h => h
    unfold anyCastInt
    split <;> first | exact coupled_pure fun _ _ h => h | exact coupled_throw
  · refine coupled_bind (S := fun _ => R) ?_ fun _ => coupled_pure fun _ _ h => h
    unfold anyCastInt64
    split <;> first | exact coupled_pure fun _ _ h => h | exact coupled_throw
  · refine coupled_bind (S := fun _ => R) ?_ fun _ => coupled_pure fun _ _ h => h
    unfold anyCastString
    split <;> first | exact coupled_pure fun _ _ h => h | exact coupled_throw
  all_goals exact coupled_pure fun _ _ h => h

theorem coupled_anyCastBlock (value : AnyValue) :
    Coupled R (anyCastBlock value) (anyCastBlock value) fun _ => R := by
  unfold anyCastBlock
  split
  · exact coupled_pure fun _ _ h => h
  · exact coupled_throw

/-- The blocks agree up to the index of the texts, if there are texts. -/
def AgreeOn (t : Option Texts) (b b' : List Byte) : Prop := ∀ u ∈ t, AgreeTo u.prepareIdx b b'

theorem agreeOn_some {t : Texts} {b b' : List Byte} :
    AgreeOn (some t) b b' ↔ AgreeTo t.prepareIdx b b' := by
  simp [AgreeOn]

theorem agreeOn_none (b b' : List Byte) : AgreeOn none b b' := fun _ h => by cases h

theorem coupled_executeIn (i : ℕ) (param : SqlParam) (t : Texts) :
    Coupled (AgreeTo t.prepareIdx) (executeIn i param t) (executeIn i param t) AgreeOn := by
  unfold executeIn
  split
  · refine coupled_bind (coupled_anyValueToString param) fun ret => ?_
    split
    · exact coupled_pure fun b b' _ => agreeOn_none b b'
    · exact coupled_pure fun b b' h => agreeOn_some.mpr h
  · refine coupled_bind coupled_separateSet fun idx => ?_
    refine coupled_bind (coupled_writeAt _ (Nat.le_refl idx)) fun _ => ?_
    refine coupled_bind (coupled_anyCastBlock param.bindValue) fun block => ?_
    refine coupled_bind ((coupled_writeHex block 0 param.lens).mono ?_ fun _ _ _ h => h) fun _ => ?_
    · exact fun b b' h => h.mono (by omega)
    · exact coupled_pure fun b b' h => agreeOn_some.mpr (h.mono (by simp))

/-- What `sprintf` makes of a `std::string` matters for the parameters that are passed both ways
and are not blobs. -/
theorem coupled_initialise {garbage garbage' : List Byte} (i : ℕ) (param : SqlParam) (idx : ℕ)
    (h : param.direction = .vInout → param.type ≠ .blob → garbage = garbage') :
    Coupled (AgreeTo idx) (initialise garbage i param idx) (initialise garbage' i param idx)
      fun r b b' => ∀ n ∈ r, AgreeTo n b b' := by
  unfold initialise
  split
  · rename_i hdir
    split
    · rename_i htype
      rw [h hdir htype]
      refine coupled_bind (coupled_anyValueToString param) fun ret => ?_
      split
      · exact coupled_pure fun b b' _ n hn => by cases hn
      · refine coupled_bind (coupled_sprintfAt _ (Nat.le_refl idx)) fun len => ?_
        refine coupled_pure fun b b' hb n hn => ?_
        rw [← Option.some.inj hn, hb.1]
        exact hb.2
    · refine coupled_bind (coupled_anyCastBlock param.bindValue) fun block => ?_
      refine coupled_bind ((coupled_writeHex block 0 param.lens).mono ?_ fun _ _ _ h => h)
        fun _ => ?_
      · exact fun b b' hb => hb.mono (by omega)
      · refine coupled_pure fun b b' hb n hn => ?_
        rw [← Option.some.inj hn]
        exact hb.mono (by omega)
  · refine coupled_bind (coupled_sprintfAt _ (Nat.le_refl idx)) fun len => ?_
    refine coupled_pure fun b b' hb n hn => ?_
    rw [← Option.some.inj hn, hb.1]
    exact hb.2

theorem coupled_executeOut {garbage garbage' : List Byte} (i : ℕ) (param : SqlParam) (t : Texts)
    (h : param.direction = .vInout → param.type ≠ .blob → garbage = garbage') :
    Coupled (AgreeTo t.prepareIdx) (executeOut garbage i param t)
      (executeOut garbage' i param t) AgreeOn := by
  refine coupled_bind coupled_separateSet fun idx => ?_
  refine coupled_bind (coupled_initialise i param idx h) fun r => ?_
  cases r with
  | none => exact coupled_pure fun b b' _ => agreeOn_none b b'
  | some n => exact coupled_pure fun b b' hb => agreeOn_some.mpr (hb n rfl)

theorem coupled_executeParam {garbage garbage' : List Byte} (i : ℕ) (param : SqlParam) (t : Texts)
    (h : param.direction = .vInout → param.type ≠ .blob → garbage = garbage') :
    Coupled (AgreeTo t.prepareIdx) (executeParam garbage i param t)
      (executeParam garbage' i param t) AgreeOn := by
  have hcases : ∀ u : Texts, Coupled (AgreeTo u.prepareIdx)
      (if param.direction = .vIn then executeIn i param u else executeOut garbage i param u)
      (if param.direction = .vIn then executeIn i param u else executeOut garbage' i param u)
      AgreeOn := by
    intro u
    split
    · exact coupled_executeIn i param u
    · exact coupled_executeOut i param u h
  by_cases hi : i = 0
  · simpa [executeParam, hi] using hcases t
  · simpa [executeParam, hi] using hcases { t with pecedureCall := t.pecedureCall ++ ascii ", " }

/-! ## The loop -/

/-- **The loop does not read the block.** -/
theorem coupled_executeParams {garbage garbage' : ℕ → List Byte} (params : List SqlParam) (i : ℕ)
    (t : Texts) (h : ∀ j (hj : j < params.length), params[j].direction = .vInout →
      params[j].type ≠ .blob → garbage (i + j) = garbage' (i + j)) :
    Coupled (AgreeTo t.prepareIdx) (executeParams garbage i params t)
      (executeParams garbage' i params t) AgreeOn := by
  induction params generalizing i t with
  | nil => exact coupled_pure fun b b' hb => agreeOn_some.mpr hb
  | cons param params ih =>
    refine coupled_bind (coupled_executeParam i param t (h 0 (Nat.succ_pos _))) fun r => ?_
    cases r with
    | none => exact coupled_pure fun b b' hb => agreeOn_none b b'
    | some u =>
      refine (ih (i + 1) u fun j hj hdir htype => ?_).mono (fun b b' hb => agreeOn_some.mp hb)
        fun _ _ _ hb => hb
      have hgarbage := h (j + 1) (Nat.succ_lt_succ hj) hdir htype
      rwa [Nat.add_comm j 1, ← Nat.add_assoc] at hgarbage

/-- **The texts do not depend on `PrepareBuffer`.** -/
theorem coupled_buildTexts {garbage garbage' : ℕ → List Byte} (strProc : List Byte)
    (params : List SqlParam) (h : ∀ j (hj : j < params.length), params[j].direction = .vInout →
      params[j].type ≠ .blob → garbage j = garbage' j) :
    Coupled (fun b b' => b.length = b'.length) (buildTexts garbage strProc params)
      (buildTexts garbage' strProc params) AgreeOn := by
  refine coupled_bind ((coupled_executeParams params 0 _ ?_).mono ?_ fun _ _ _ hb => hb) fun r => ?_
  · intro j hj
    rw [Nat.zero_add]
    exact h j hj
  · exact fun b b' hb => ⟨hb, rfl⟩
  · cases r with
    | none => exact coupled_pure fun b b' _ => agreeOn_none b b'
    | some t =>
      refine coupled_pure fun b b' hb => ?_
      rw [agreeOn_some] at hb ⊢
      exact hb

/-! ## The size of the block -/

/-- Two blocks of one size. -/
def SameSize (b b' : List Byte) : Prop := b'.length = b.length

instance : Std.Refl SameSize := ⟨fun _ => rfl⟩

instance : IsTrans (List Byte) SameSize := ⟨fun _ _ _ h h' => h'.trans h⟩

theorem moves_writeAt (i : ℕ) (data : List Byte) : Moves SameSize (writeAt i data) := by
  intro b r t hx
  unfold SameSize
  by_cases hfit : i + data.length ≤ b.length
  · rw [(hx.unique (writeAt_of_le hfit)).2, length_overwrite hfit]
  · rw [(hx.unique (writeAt_of_not_le hfit)).2]

theorem moves_sprintfAt (i : ℕ) (text : List Byte) :
    Moves SameSize (sprintfAt i text) :=
  moves_bind (moves_writeAt i _) fun _ => moves_pure _

theorem moves_separateSet (i : ℕ) : Moves SameSize (separateSet i) := by
  unfold separateSet
  split <;> exact moves_bind (moves_writeAt _ _) fun _ => moves_pure _

theorem moves_writeHex (i : ℕ) (block : List Byte) (m k : ℕ) :
    Moves SameSize (writeHex i block m k) := by
  induction k generalizing m with
  | zero => exact moves_pure _
  | succ k ih =>
    unfold writeHex
    split
    · exact moves_throw _
    · exact moves_bind (moves_sprintfAt _ _) fun _ => ih (m + 1)

variable {T : List Byte → List Byte → Prop} [Std.Refl T]

theorem moves_anyCastBlock (value : AnyValue) : Moves T (anyCastBlock value) := by
  unfold anyCastBlock
  split
  · exact moves_pure _
  · exact moves_throw _

variable [IsTrans (List Byte) T]

theorem moves_anyValueToString (param : SqlParam) : Moves T (anyValueToString param) := by
  unfold anyValueToString
  split
  · refine moves_bind ?_ fun _ => moves_pure _
    unfold anyCastInt
    split <;> first | exact moves_pure _ | exact moves_throw _
  · refine moves_bind ?_ fun _ => moves_pure _
    unfold anyCastInt64
    split <;> first | exact moves_pure _ | exact moves_throw _
  · refine moves_bind ?_ fun _ => moves_pure _
    unfold anyCastString
    split <;> first | exact moves_pure _ | exact moves_throw _
  all_goals exact moves_pure _

theorem moves_executeIn (i : ℕ) (param : SqlParam) (t : Texts) :
    Moves SameSize (executeIn i param t) := by
  unfold executeIn
  split
  · refine moves_bind (moves_anyValueToString param) fun ret => ?_
    split <;> exact moves_pure _
  · refine moves_bind (moves_separateSet _) fun _ => moves_bind (moves_writeAt _ _) fun _ => ?_
    refine moves_bind (moves_anyCastBlock _) fun _ => ?_
    refine moves_bind (moves_writeHex _ _ _ _) fun _ => ?_
    exact moves_pure _

theorem moves_initialise (garbage : List Byte) (i : ℕ) (param : SqlParam) (idx : ℕ) :
    Moves SameSize (initialise garbage i param idx) := by
  unfold initialise
  split
  · split
    · refine moves_bind (moves_anyValueToString param) fun ret => ?_
      split
      · exact moves_pure _
      · exact moves_bind (moves_sprintfAt _ _) fun _ => moves_pure _
    · refine moves_bind (moves_anyCastBlock _) fun _ => ?_
      exact moves_bind (moves_writeHex _ _ _ _) fun _ => moves_pure _
  · exact moves_bind (moves_sprintfAt _ _) fun _ => moves_pure _

theorem moves_executeParam (garbage : List Byte) (i : ℕ) (param : SqlParam) (t : Texts) :
    Moves SameSize (executeParam garbage i param t) := by
  have hcases : ∀ u : Texts, Moves SameSize
      (if param.direction = .vIn then executeIn i param u else executeOut garbage i param u) := by
    intro u
    split
    · exact moves_executeIn i param u
    · refine moves_bind (moves_separateSet _) fun _ => moves_bind (moves_initialise _ _ _ _) ?_
      rintro (_ | idx) <;> exact moves_pure _
  exact hcases _

/-- **The block keeps its size.** -/
theorem moves_buildTexts (garbage : ℕ → List Byte) (strProc : List Byte)
    (params : List SqlParam) :
    Moves SameSize (buildTexts garbage strProc params) := by
  have hloop : ∀ (params : List SqlParam) (i : ℕ) (t : Texts),
      Moves SameSize (executeParams garbage i params t) := by
    intro params
    induction params with
    | nil => exact fun _ _ => moves_pure _
    | cons param params ih =>
      refine fun i t => moves_bind (moves_executeParam _ i param t) ?_
      rintro (_ | u)
      · exact moves_pure _
      · exact ih (i + 1) u
  refine moves_bind (hloop params 0 _) ?_
  rintro (_ | t) <;> exact moves_pure _

end PetsServer
