import PetsServer.Foundations.Appending
import PetsServer.Sql.CallText

/-!
# What is written to PrepareBuffer

For any parameters of known types, whatever their directions and values, the text that the loop of
`Execute` writes to `PrepareBuffer` is a function of the parameters: a piece for each of them, with
separators, up to the first parameter whose value cannot be used. `fills_executeParams` says that
the loop writes this text, as long as it fits in the block, and how it ends.
-/

namespace PetsServer

open Foundations

/-- How a program on `PrepareBuffer` ends, which starts with `text`. -/
abbrev FillsBuffer {α : Type} (x : OnBuffer α) (text : List Byte) (fits : Prop)
    (r : Except Fault α) (text' : List Byte) : Prop :=
  Fills prepareBufferSize Fault.bufferOverrun x text fits r text'

/-! ## Values -/

/-- The fault when the value of a parameter is used. -/
def SqlParam.valueFault (param : SqlParam) : Option Fault :=
  match param.type, param.bindValue with
  | .long, .int _ | .longlong, .int64 _ | .string, .charPtr (some _) => none
  | .string, .charPtr none => some .nullPointer
  | .blob, .voidPtr block => if param.lens ≤ block.length then none else some .outOfBounds
  | .decimal, _ | .errtype, _ => none
  | _, _ => some .badAnyCast

/-- The fault at a parameter. -/
def SqlParam.fault (param : SqlParam) : Option Fault :=
  if param.direction = .vOut then none else param.valueFault

/-- The bytes of a blob that are written. -/
def SqlParam.blobBytes (param : SqlParam) : List Byte :=
  match param.bindValue with
  | .voidPtr block => block.take param.lens
  | _ => []

/-! ## Pieces -/

/-- What is written for a parameter after the separator, if anything is. -/
def SqlParam.piece (garbage : List Byte) (i : ℕ) (param : SqlParam) : Option (List Byte) :=
  match param.direction with
  | .vIn =>
    if param.type = .blob then
      some (userVariable i ++ ascii " = 0x" ++ param.blobBytes.flatMap hexByte)
    else none
  | .vOut => some (ascii " " ++ userVariable i ++ ascii " = null")
  | .vInout =>
    if param.type = .blob then some (param.blobBytes.flatMap hexByte)
    else if param.valueText = [] then some []
    else some (ascii " " ++ userVariable i ++ ascii " = " ++ cString garbage)

/-- The zero that is left after the piece of a parameter. -/
def SqlParam.terminator (param : SqlParam) : List Byte :=
  match param.direction with
  | .vIn => if param.type = .blob ∧ param.blobBytes ≠ [] then [0] else []
  | .vOut => [0]
  | .vInout =>
    if param.type = .blob then if param.blobBytes = [] then [] else [0]
    else if param.valueText = [] then [] else [0]

/-- The text of the `SET` with the piece of one more parameter. -/
def addPiece (garbage : List Byte) (i : ℕ) (param : SqlParam) (text : List Byte) : List Byte :=
  (param.piece garbage i).elim text (joinPiece (ascii "set") (ascii ",") text)

/-- The text of the `SELECT` with one more variable, if the parameter is passed out. -/
def addOutput (i : ℕ) (param : SqlParam) (text : List Byte) : List Byte :=
  if param.direction = .vIn then text
  else joinPiece (ascii "select ") (ascii ", ") text (userVariable i)

/-- The text of the `SET` for the parameters from `i` on, after the text so far. -/
def writtenFrom (garbage : ℕ → List Byte) (text : List Byte) : ℕ → List SqlParam → List Byte
  | _, [] => text
  | i, param :: params =>
    writtenFrom garbage (addPiece (garbage i) i param text) (i + 1) params

/-- The text of the `SELECT` for the parameters from `i` on, after the text so far. -/
def selectTextFrom (text : List Byte) : ℕ → List SqlParam → List Byte
  | _, [] => text
  | i, param :: params => selectTextFrom (addOutput i param text) (i + 1) params

/-- The text of the `SET` fits in `PrepareBuffer`, up to the first parameter whose value cannot be
used, and with the zero after each piece. -/
def SetFits (garbage : ℕ → List Byte) (text : List Byte) : ℕ → List SqlParam → Prop
  | _, [] => True
  | i, param :: params =>
    (addPiece (garbage i) i param text ++ param.terminator).length ≤ prepareBufferSize ∧
      (param.fault = none → SetFits garbage (addPiece (garbage i) i param text) (i + 1) params)

/-! ## Pieces of the text -/

section Programs

variable {text block garbage : List Byte} {i : ℕ} {param : SqlParam} {t : Texts}

theorem fills_writeAt (text data : List Byte) :
    FillsBuffer (writeAt text.length data) text ((text ++ data).length ≤ prepareBufferSize)
      (.ok ⟨⟩) (text ++ data) := by
  intro b hsize hpre
  rw [List.length_append, ← hsize]
  refine ⟨fun hfit => ⟨_, writeAt_of_le hfit, fun _ => ⟨length_overwrite hfit, ?_⟩⟩,
    fun hfit => ⟨b, writeAt_of_not_le hfit⟩⟩
  rw [overwrite, ← List.prefix_iff_eq_take.mp hpre]
  exact List.prefix_append _ _

/-- What `sprintf` writes stays, the zero after it is written too. -/
theorem fills_sprintfAt (text piece : List Byte) :
    FillsBuffer (sprintfAt text.length piece) text
      ((text ++ piece ++ [0]).length ≤ prepareBufferSize) (.ok piece.length) (text ++ piece) := by
  have hwrite := fills_writeAt text (piece ++ [0])
  rw [← List.append_assoc] at hwrite
  exact Fills.bind_pure (o := none) (hwrite.mono (List.prefix_append _ _)) rfl

/-- The index after the text that `sprintf` writes. -/
theorem fills_sprintf_index (text piece : List Byte) :
    FillsBuffer (sprintfAt text.length piece >>= fun len => pure (some (text.length + len))) text
      ((text ++ piece ++ [0]).length ≤ prepareBufferSize) (.ok (some (text ++ piece).length))
      (text ++ piece) := by
  rw [@List.length_append _ text piece]
  exact Fills.bind_pure (o := none) (fills_sprintfAt text piece) rfl

/-- The comma, or the word at the start. -/
theorem fills_separateSet (text : List Byte) :
    FillsBuffer (separateSet text.length) text
      ((separated (ascii "set") (ascii ",") text).length ≤ prepareBufferSize)
      (.ok (separated (ascii "set") (ascii ",") text).length)
      (separated (ascii "set") (ascii ",") text) := by
  cases text with
  | nil =>
    have hpre : ascii "set" <+: [] ++ (ascii "set" ++ [0]) := List.prefix_append _ _
    have hwrite := (fills_writeAt [] (ascii "set" ++ [0])).mono hpre
    refine (Fills.bind_pure (o := none) hwrite (by rfl)).congr fun _ => iff_of_true ?_ ?_
    · decide
    · decide
  | cons c text =>
    have hlength : (c :: text ++ ascii ",").length = (c :: text).length + 1 := List.length_append
    have hset : separateSet (c :: text).length = writeAt (c :: text).length (ascii ",") >>=
        fun _ => pure (c :: text ++ ascii ",").length := by
      rw [hlength]
      rfl
    rw [hset]
    exact Fills.bind_pure (o := none) (fills_writeAt (c :: text) (ascii ",")) rfl

/-- The digits of the bytes from the `n`-th on, after those before. -/
theorem fills_writeHex (text block : List Byte) (n k : ℕ) (hn : n ≤ block.length) :
    FillsBuffer (writeHex text.length block n k) (text ++ (block.take n).flatMap hexByte)
      (min (n + k) block.length ≤ n ∨
        text.length + 2 * min (n + k) block.length < prepareBufferSize)
      (if n + k ≤ block.length then .ok ⟨⟩ else .error .outOfBounds)
      (text ++ (block.take (n + k)).flatMap hexByte) := by
  induction k generalizing n with
  | zero =>
    rw [Nat.add_zero, if_pos hn]
    exact (fills_pure _ _).congr fun _ => iff_true_intro (.inl (Nat.min_le_left _ _))
  | succ k ih =>
    by_cases hlt : n < block.length
    · have hlength : (text ++ (block.take n).flatMap hexByte).length = text.length + n * 2 := by
        rw [List.length_append, length_flatMap_hexByte, List.length_take]
        omega
      have htake : (block.take n).flatMap hexByte ++ hexByte block[n] =
          (block.take (n + 1)).flatMap hexByte := by
        rw [List.take_succ_eq_append_getElem hlt, List.flatMap_append, List.flatMap_singleton]
      have hbyte := fills_sprintfAt (text ++ (block.take n).flatMap hexByte) (hexByte block[n])
      rw [hlength, List.length_append, List.length_append, hlength, length_hexByte,
        List.append_assoc, htake] at hbyte
      have hrest := ih (n + 1) hlt
      rw [show n + 1 + k = n + (k + 1) by omega] at hrest
      rw [writeHex, List.getElem?_eq_getElem hlt]
      refine (hbyte.bind_ok hrest).congr fun _ => ?_
      rw [List.length_singleton]
      omega
    · have hend : block[n]? = none := List.getElem?_eq_none_iff.mpr (Nat.not_lt.mp hlt)
      rw [writeHex, hend, if_neg (by omega)]
      exact (fills_throw _ _ _).congr fun _ => iff_true_intro (.inl (by omega))

end Programs

/-! ## One parameter -/

section Parameter

variable {text garbage : List Byte} {i : ℕ} {param : SqlParam} {t : Texts}

/-- The text of a value, when there is one. -/
theorem valueText_eq_nil_iff (hknown : param.type.Known) (htype : param.type ≠ .blob) :
    param.valueText = [] ↔ param.valueFault ≠ none := by
  obtain ⟨direction, type, lens, value⟩ := param
  cases type with
  | blob => exact absurd rfl htype
  | decimal | errtype => cases hknown
  | long =>
    cases value with
    | int n => simpa [SqlParam.valueText, SqlParam.valueFault] using decimal_ne_nil n.toInt
    | empty | int64 | charPtr | voidPtr | other => simp [SqlParam.valueText, SqlParam.valueFault]
  | longlong =>
    cases value with
    | int64 n => simpa [SqlParam.valueText, SqlParam.valueFault] using decimal_ne_nil n.toInt
    | empty | int | charPtr | voidPtr | other => simp [SqlParam.valueText, SqlParam.valueFault]
  | string =>
    cases value with
    | charPtr s => cases s <;> simp [SqlParam.valueText, SqlParam.valueFault, ascii]
    | empty | int | int64 | voidPtr | other => simp [SqlParam.valueText, SqlParam.valueFault]

theorem fills_anyValueToString (hknown : param.type.Known) (htype : param.type ≠ .blob)
    (text : List Byte) :
    FillsBuffer (anyValueToString param) text True
      (param.valueFault.elim (.ok param.valueText) .error) text := by
  obtain ⟨direction, type, lens, value⟩ := param
  cases type with
  | blob => exact absurd rfl htype
  | decimal | errtype => cases hknown
  | long =>
    cases value with
    | int n => exact fills_pure _ _
    | empty | int64 | charPtr | voidPtr | other => exact fills_throw _ _ _
  | longlong =>
    cases value with
    | int64 n => exact fills_pure _ _
    | empty | int | charPtr | voidPtr | other => exact fills_throw _ _ _
  | string =>
    cases value with
    | charPtr s =>
      cases s with
      | none => exact fills_throw _ _ _
      | some s => exact fills_pure _ _
    | empty | int | int64 | voidPtr | other => exact fills_throw _ _ _

/-- The digits of a blob, if its value is one. -/
theorem fills_writeBlob (htype : param.type = .blob) (text : List Byte) :
    FillsBuffer
      (anyCastBlock param.bindValue >>= fun block => writeHex text.length block 0 param.lens) text
      (param.blobBytes = [] ∨ text.length + 2 * param.blobBytes.length < prepareBufferSize)
      (param.valueFault.elim (.ok ⟨⟩) .error) (text ++ param.blobBytes.flatMap hexByte) := by
  obtain ⟨direction, type, lens, value⟩ := param
  obtain rfl : type = .blob := htype
  cases value with
  | voidPtr block =>
    have hhex := fills_writeHex text block 0 lens (Nat.zero_le _)
    rw [Nat.zero_add, List.take_zero, List.flatMap_nil, List.append_nil] at hhex
    have hlength : (block.take lens).length = min lens block.length := List.length_take
    have hnil : block.take lens = [] ↔ min lens block.length ≤ 0 := by
      rw [← List.length_eq_zero_iff, hlength, Nat.le_zero]
    have hr : (if lens ≤ block.length then Except.ok PUnit.unit else .error .outOfBounds) =
        (SqlParam.valueFault ⟨direction, .blob, lens, .voidPtr block⟩).elim (.ok PUnit.unit)
          .error := by
      change _ = (if lens ≤ block.length then none else some Fault.outOfBounds).elim _ _
      split <;> rfl
    rw [← hr]
    refine hhex.congr fun _ => ?_
    change block.take lens = [] ∨ _ + 2 * (block.take lens).length < _ ↔ _
    rw [hnil, hlength]
  | empty | int | int64 | charPtr | other =>
    exact (fills_throw _ _ _).congr fun _ => iff_true_intro (.inl rfl)

/-- The zero after the digits of a blob. -/
theorem digits_fit_iff (param : SqlParam) (text : List Byte) :
    (text.length ≤ prepareBufferSize ∧
        (param.blobBytes = [] ∨ text.length + 2 * param.blobBytes.length < prepareBufferSize)) ↔
      (text ++ param.blobBytes.flatMap hexByte ++
        if param.blobBytes = [] then [] else [0]).length ≤ prepareBufferSize := by
  by_cases hnil : param.blobBytes = []
  · simp [hnil]
  · simp only [hnil, if_false, false_or, List.length_append, length_flatMap_hexByte,
      List.length_singleton]
    omega

/-- The digits of a blob, with the zero after them, and then a value is returned. -/
theorem fills_writeBlob_pure {α : Type} (htype : param.type = .blob) (text : List Byte) (c : α) :
    FillsBuffer (anyCastBlock param.bindValue >>= fun block =>
        writeHex text.length block 0 param.lens >>= fun _ => pure c) text
      ((text ++ param.blobBytes.flatMap hexByte ++
        if param.blobBytes = [] then [] else [0]).length ≤ prepareBufferSize)
      (param.valueFault.elim (.ok c) .error) (text ++ param.blobBytes.flatMap hexByte) := by
  rw [← bind_assoc]
  exact (Fills.bind_pure (fills_writeBlob htype text) (by rfl)).congr fun hle =>
    (digits_fit_iff param text).symm.trans (and_iff_right hle)

theorem length_blobBytes (htype : param.type = .blob) (h : param.valueFault = none) :
    param.blobBytes.length = param.lens := by
  obtain ⟨direction, type, lens, value⟩ := param
  obtain rfl : type = .blob := htype
  cases value with
  | voidPtr block =>
    by_cases hle : lens ≤ block.length
    · simpa [SqlParam.blobBytes] using hle
    · simp [SqlParam.valueFault, hle] at h
  | empty | int | int64 | charPtr | other => cases h

/-- Only without a fault the value that is returned matters. -/
theorem elim_ok_congr {α : Type} {o : Option Fault} {a a' : α} (h : o = none → a = a') :
    o.elim (Except.ok a) .error = o.elim (.ok a') .error := by
  cases o with
  | none => rw [h rfl]
  | some fault => rfl

/-- A parameter that is passed in and is not a blob. -/
theorem fills_executeIn_value (hknown : param.type.Known) (htype : param.type ≠ .blob)
    (text : List Byte) :
    FillsBuffer (executeIn i param t) text True (param.valueFault.elim
      (.ok (some { t with pecedureCall := t.pecedureCall ++ param.valueText })) .error) text := by
  rw [executeIn, if_pos htype]
  refine ((fills_anyValueToString hknown htype text).bind fun hnone => ?_).congr
    fun _ => iff_of_true trivial ⟨trivial, fun _ => trivial⟩
  have hempty : ¬ param.valueText.isEmpty = true := by
    rw [List.isEmpty_iff, valueText_eq_nil_iff hknown htype]
    exact fun h => h hnone
  rw [if_neg hempty]
  exact fills_pure _ _

theorem fills_executeIn_blob (hdir : param.direction = .vIn) (htype : param.type = .blob)
    (htext : t.prepareIdx = text.length) :
    FillsBuffer (executeIn i param t) text
      ((addPiece garbage i param text ++ param.terminator).length ≤ prepareBufferSize)
      (param.valueFault.elim (.ok (some ⟨(addPiece garbage i param text).length,
        t.pecedureCall ++ userVariable i, t.strSelect⟩)) .error)
      (addPiece garbage i param text) := by
  let base := separated (ascii "set") (ascii ",") text
  let name := userVariable i ++ ascii " = 0x"
  have hpiece : addPiece garbage i param text =
      base ++ name ++ param.blobBytes.flatMap hexByte := by
    simp [addPiece, SqlParam.piece, hdir, htype, joinPiece, base, name]
  have hterminator : param.terminator = if param.blobBytes = [] then [] else [0] := by
    by_cases hnil : param.blobBytes = [] <;> simp [SqlParam.terminator, hdir, htype, hnil]
  have hresult : param.valueFault.elim (Except.ok (some (⟨(addPiece garbage i param text).length,
      t.pecedureCall ++ userVariable i, t.strSelect⟩ : Texts))) .error =
      param.valueFault.elim (.ok (some ⟨base.length + name.length + param.lens * 2,
        t.pecedureCall ++ userVariable i, t.strSelect⟩)) .error := by
    refine elim_ok_congr fun hnone => ?_
    rw [hpiece, List.length_append, List.length_append, length_flatMap_hexByte,
      length_blobBytes htype hnone, Nat.mul_comm]
  have hblob := fills_writeBlob_pure htype (base ++ name) (some (⟨base.length + name.length +
    param.lens * 2, t.pecedureCall ++ userVariable i, t.strSelect⟩ : Texts))
  rw [@List.length_append _ base name] at hblob
  have hwrite := (fills_separateSet text).bind_ok (f := fun idx => writeAt idx name >>= fun _ =>
    anyCastBlock param.bindValue >>= fun block =>
      writeHex (idx + name.length) block 0 param.lens >>= fun _ =>
        pure (some (⟨idx + name.length + param.lens * 2, t.pecedureCall ++ userVariable i,
          t.strSelect⟩ : Texts))) ((fills_writeAt base name).bind_ok hblob)
  rw [executeIn, if_neg (not_not_intro htype), htext, hresult, hpiece, hterminator]
  refine hwrite.congr fun _ => ?_
  change _ ↔ base.length ≤ _ ∧ _
  simp only [List.length_append]
  omega

theorem fills_initialise_out (hdir : param.direction = .vOut) (text : List Byte) :
    FillsBuffer (initialise garbage i param text.length) text
      ((text ++ (ascii " " ++ userVariable i ++ ascii " = null") ++ [0]).length ≤ prepareBufferSize)
      (.ok (some (text ++ (ascii " " ++ userVariable i ++ ascii " = null")).length))
      (text ++ (ascii " " ++ userVariable i ++ ascii " = null")) := by
  have hne : param.direction ≠ .vInout := by simp [hdir]
  rw [initialise, if_neg hne]
  exact fills_sprintf_index text _

theorem fills_initialise_blob (hdir : param.direction = .vInout) (htype : param.type = .blob)
    (text : List Byte) :
    FillsBuffer (initialise garbage i param text.length) text
      ((text ++ param.blobBytes.flatMap hexByte ++
        if param.blobBytes = [] then [] else [0]).length ≤ prepareBufferSize)
      (param.valueFault.elim (.ok (some (text ++ param.blobBytes.flatMap hexByte).length)) .error)
      (text ++ param.blobBytes.flatMap hexByte) := by
  have hresult : param.valueFault.elim (Except.ok (some (text ++
      param.blobBytes.flatMap hexByte).length)) .error =
      param.valueFault.elim (.ok (some (text.length + param.lens * 2))) .error := by
    refine elim_ok_congr fun hnone => ?_
    rw [List.length_append, length_flatMap_hexByte, length_blobBytes htype hnone, Nat.mul_comm]
  rw [initialise, if_pos hdir, if_neg (not_not_intro htype), hresult]
  exact fills_writeBlob_pure htype text _

theorem fills_initialise_value (hknown : param.type.Known) (hdir : param.direction = .vInout)
    (htype : param.type ≠ .blob) (text : List Byte) :
    FillsBuffer (initialise garbage i param text.length) text
      (param.valueFault = none →
        (text ++ (ascii " " ++ userVariable i ++ ascii " = " ++ cString garbage) ++ [0]).length ≤
          prepareBufferSize)
      (param.valueFault.elim (.ok (some (text ++
        (ascii " " ++ userVariable i ++ ascii " = " ++ cString garbage)).length)) .error)
      (text ++ (ascii " " ++ userVariable i ++ ascii " = " ++ cString garbage)) := by
  let piece := ascii " " ++ userVariable i ++ ascii " = " ++ cString garbage
  rw [initialise, if_pos hdir, if_pos htype]
  refine ((fills_anyValueToString hknown htype text).bind fun hnone => ?_).congr
    fun _ => (true_and _).symm.to_iff
  have hempty : ¬ param.valueText.isEmpty = true := by
    rw [List.isEmpty_iff, valueText_eq_nil_iff hknown htype]
    exact fun h => h hnone
  rw [if_neg hempty]
  exact fills_sprintf_index text piece

/-- The initial value of a user variable. -/
theorem fills_initialise (hknown : param.direction ≠ .vOut → param.type.Known)
    (hdir : param.direction ≠ .vIn) {piece : List Byte}
    (hpiece : param.piece garbage i = some piece) (text : List Byte) :
    FillsBuffer (initialise garbage i param text.length) text
      ((text ++ piece ++ param.terminator).length ≤ prepareBufferSize)
      (param.fault.elim (.ok (some (text ++ piece).length)) .error) (text ++ piece) := by
  cases hdirection : param.direction with
  | vIn => exact absurd hdirection hdir
  | vOut =>
    have hterminator : param.terminator = [0] := by simp [SqlParam.terminator, hdirection]
    have hfault : param.fault = none := by simp [SqlParam.fault, hdirection]
    obtain rfl : ascii " " ++ userVariable i ++ ascii " = null" = piece := by
      simpa [SqlParam.piece, hdirection] using hpiece
    rw [hterminator, hfault]
    exact fills_initialise_out hdirection text
  | vInout =>
    have hfault : param.fault = param.valueFault := by simp [SqlParam.fault, hdirection]
    have htypes : param.type.Known := hknown (by simp [hdirection])
    rw [hfault]
    by_cases htype : param.type = .blob
    · have hterminator : param.terminator = if param.blobBytes = [] then [] else [0] := by
        simp [SqlParam.terminator, hdirection, htype]
      obtain rfl : param.blobBytes.flatMap hexByte = piece := by
        simpa [SqlParam.piece, hdirection, htype] using hpiece
      rw [hterminator]
      exact fills_initialise_blob hdirection htype text
    · have hvalue := @fills_initialise_value garbage i param htypes hdirection htype text
      have hnil := valueText_eq_nil_iff htypes htype
      cases hnone : param.valueFault with
      | none =>
        have hne : param.valueText ≠ [] := fun h => hnil.mp h hnone
        have hterminator : param.terminator = [0] := by
          simp [SqlParam.terminator, hdirection, htype, hne]
        obtain rfl : ascii " " ++ userVariable i ++ ascii " = " ++ cString garbage = piece := by
          simpa [SqlParam.piece, hdirection, htype, hne] using hpiece
        rw [hnone] at hvalue
        rw [hterminator]
        exact hvalue.congr fun _ => ⟨fun h _ => h, fun h => h rfl⟩
      | some fault =>
        have hempty : param.valueText = [] := hnil.mpr (by simp [hnone])
        have hterminator : param.terminator = [] := by
          simp [SqlParam.terminator, hdirection, htype, hempty]
        obtain rfl : [] = piece := by
          simpa [SqlParam.piece, hdirection, htype, hempty] using hpiece
        rw [hnone] at hvalue
        rw [hterminator, List.append_nil, List.append_nil]
        exact (hvalue.mono (List.prefix_append _ _)).congr fun hle =>
          iff_of_true hle nofun

theorem fills_executeOut (hknown : param.direction ≠ .vOut → param.type.Known)
    (hdir : param.direction ≠ .vIn) (htext : t.prepareIdx = text.length) :
    FillsBuffer (executeOut garbage i param t) text
      ((addPiece garbage i param text ++ param.terminator).length ≤ prepareBufferSize)
      (param.fault.elim (.ok (some ⟨(addPiece garbage i param text).length,
        t.pecedureCall ++ userVariable i, addOutput i param t.strSelect⟩)) .error)
      (addPiece garbage i param text) := by
  let base := separated (ascii "set") (ascii ",") text
  obtain ⟨piece, hpiece⟩ : ∃ piece, param.piece garbage i = some piece := by
    unfold SqlParam.piece
    cases hdirection : param.direction with
    | vIn => exact absurd hdirection hdir
    | vOut => exact ⟨_, rfl⟩
    | vInout => split_ifs <;> exact ⟨_, rfl⟩
  have hadd : addPiece garbage i param text = base ++ piece := by
    rw [addPiece, hpiece]
    rfl
  have hselect : t.strSelect ++ (if t.strSelect.isEmpty then ascii "select " else ascii ", ") ++
      userVariable i = addOutput i param t.strSelect := by
    rw [addOutput, if_neg hdir, joinPiece, separated]
    cases t.strSelect <;> rfl
  rw [executeOut, htext, hadd, ← hselect]
  refine ((fills_separateSet text).bind_ok
    ((fills_initialise hknown hdir hpiece base).bind_pure (by rfl))).congr fun _ => ?_
  change _ ↔ base.length ≤ _ ∧ _
  simp only [List.length_append]
  omega

/-- **One parameter.** -/
theorem fills_executeParam (hknown : param.direction ≠ .vOut → param.type.Known)
    (htext : t.prepareIdx = text.length) :
    FillsBuffer (executeParam garbage i param t) text
      ((addPiece garbage i param text ++ param.terminator).length ≤ prepareBufferSize)
      (param.fault.elim (.ok (some ⟨(addPiece garbage i param text).length,
        t.pecedureCall ++ (if i ≠ 0 then ascii ", " else []) ++ param.argument i,
        addOutput i param t.strSelect⟩)) .error)
      (addPiece garbage i param text) := by
  have hcases : ∀ t : Texts, t.prepareIdx = text.length →
      FillsBuffer (if param.direction = .vIn then executeIn i param t
        else executeOut garbage i param t) text
      ((addPiece garbage i param text ++ param.terminator).length ≤ prepareBufferSize)
      (param.fault.elim (.ok (some ⟨(addPiece garbage i param text).length,
        t.pecedureCall ++ param.argument i, addOutput i param t.strSelect⟩)) .error)
      (addPiece garbage i param text) := by
    rintro t htext
    by_cases hdir : param.direction = .vIn
    · have hfault : param.fault = param.valueFault := by simp [SqlParam.fault, hdir]
      have hselect : addOutput i param t.strSelect = t.strSelect := if_pos hdir
      rw [if_pos hdir, hfault, hselect]
      by_cases htype : param.type = .blob
      · have hargument : param.argument i = userVariable i := by
          simp [SqlParam.argument, htype]
        rw [hargument]
        exact fills_executeIn_blob hdir htype htext
      · have hargument : param.argument i = param.valueText := by
          simp [SqlParam.argument, hdir, htype]
        have hpiece : addPiece garbage i param text = text := by
          simp [addPiece, SqlParam.piece, hdir, htype]
        have hterminator : param.terminator = [] := by
          simp [SqlParam.terminator, hdir, htype]
        rw [hargument, hpiece, hterminator, List.append_nil, ← htext]
        exact (fills_executeIn_value (hknown (by simp [hdir])) htype text).congr fun hle =>
          iff_true_intro (htext ▸ hle)
    · have hargument : param.argument i = userVariable i := by
        simp [SqlParam.argument, hdir]
      rw [if_neg hdir, hargument]
      exact fills_executeOut hknown hdir htext
  by_cases hi : i = 0
  · simpa [executeParam, hi] using hcases t htext
  · simpa [executeParam, hi] using
      hcases { t with pecedureCall := t.pecedureCall ++ ascii ", " } htext

end Parameter

/-! ## The loop -/

/-- The fault of the first parameter whose value cannot be used. -/
def firstFault (params : List SqlParam) : Option Fault := params.findSome? (·.fault)

theorem firstFault_cons (param : SqlParam) (params : List SqlParam) :
    firstFault (param :: params) = param.fault.elim (firstFault params) some := by
  unfold firstFault
  rw [List.findSome?_cons]
  cases param.fault <;> rfl

section Loop

variable {text strProc : List Byte} {i : ℕ} {params : List SqlParam} {t : Texts}
  {garbage : ℕ → List Byte}

/-- **The loop**, for parameters that have known types if they are passed in. -/
theorem fills_executeParams
    (hknown : ∀ param ∈ params, param.direction ≠ .vOut → param.type.Known)
    (htext : t.prepareIdx = text.length) :
    ∃ call, FillsBuffer (executeParams garbage i params t) text (SetFits garbage text i params)
      ((firstFault params).elim (.ok (some ⟨(writtenFrom garbage text i params).length, call,
        selectTextFrom t.strSelect i params⟩)) .error) (writtenFrom garbage text i params) := by
  induction params generalizing i text t with
  | nil =>
    refine ⟨t.pecedureCall, ?_⟩
    obtain ⟨idx, call, select⟩ := t
    obtain rfl : idx = text.length := htext
    exact fills_pure _ _
  | cons param params ih =>
    obtain ⟨hparam, hparams⟩ := List.forall_mem_cons.mp hknown
    have hone := @fills_executeParam text (garbage i) i param t hparam htext
    obtain ⟨call, hrest⟩ := @ih (addPiece (garbage i) i param text) (i + 1)
      ⟨_, t.pecedureCall ++ (if i ≠ 0 then ascii ", " else []) ++ param.argument i,
        addOutput i param t.strSelect⟩ hparams rfl
    refine ⟨call, ?_⟩
    have hresult : (firstFault (param :: params)).elim (Except.ok (some
        (⟨(writtenFrom garbage text i (param :: params)).length, call,
          selectTextFrom t.strSelect i (param :: params)⟩ : Texts))) .error =
        param.fault.elim ((firstFault params).elim (.ok (some
          ⟨(writtenFrom garbage text i (param :: params)).length, call,
            selectTextFrom t.strSelect i (param :: params)⟩)) .error) .error := by
      rw [firstFault_cons]
      cases param.fault <;> rfl
    rw [hresult]
    exact hone.bind fun _ => hrest

/-- **The texts**, for parameters that have known types if they are passed in. -/
theorem fills_buildTexts (hknown : ∀ param ∈ params, param.direction ≠ .vOut → param.type.Known) :
    FillsBuffer (buildTexts garbage strProc params) [] (SetFits garbage [] 0 params)
      ((firstFault params).elim (.ok (some ⟨(writtenFrom garbage [] 0 params).length,
        callText strProc params, selectTextFrom [] 0 params⟩)) .error)
      (writtenFrom garbage [] 0 params) := by
  obtain ⟨call, hloop⟩ := @fills_executeParams [] 0 params
    ⟨0, ascii "call " ++ strProc ++ ascii " ( ", []⟩ garbage hknown rfl
  have hbuild : FillsBuffer (buildTexts garbage strProc params) [] (SetFits garbage [] 0 params)
      ((firstFault params).elim (.ok (some ⟨(writtenFrom garbage [] 0 params).length,
        call ++ ascii " )", selectTextFrom [] 0 params⟩)) .error)
      (writtenFrom garbage [] 0 params) := hloop.bind_pure (by rfl)
  cases hfault : firstFault params with
  | some fault => rwa [hfault] at hbuild
  | none =>
    rw [hfault] at hbuild
    intro b hsize hpre
    obtain ⟨hthen, helse⟩ := hbuild b hsize hpre
    refine ⟨fun hfits => ?_, helse⟩
    obtain ⟨b', hrun, hok⟩ := hthen hfits
    obtain ⟨hcall, -⟩ := yields_buildTexts hrun
    rw [Option.elim_none, ← hcall]
    exact ⟨b', hrun, hok⟩

theorem valueFault_ne_bufferOverrun (param : SqlParam) :
    param.valueFault ≠ some .bufferOverrun := by
  obtain ⟨direction, type, lens, value⟩ := param
  cases type with
  | decimal | errtype => exact nofun
  | long | longlong => cases value <;> exact nofun
  | string =>
    cases value with
    | charPtr s => cases s <;> exact nofun
    | empty | int | int64 | voidPtr | other => exact nofun
  | blob =>
    cases value with
    | voidPtr block =>
      change (if lens ≤ block.length then none else some Fault.outOfBounds) ≠ _
      split_ifs <;> exact nofun
    | empty | int | int64 | charPtr | other => exact nofun

/-- The faults at the parameters are not that of the block. -/
theorem firstFault_ne_bufferOverrun : firstFault params ≠ some .bufferOverrun := by
  intro h
  obtain ⟨param, -, hfault⟩ := List.exists_of_findSome?_eq_some h
  unfold SqlParam.fault at hfault
  split_ifs at hfault
  exact valueFault_ne_bufferOverrun param hfault

/-- **How the texts are built.** -/
theorem buildTexts_cases (hknown : ∀ param ∈ params, param.type.Known) {b b' : List Byte}
    {r : Except Fault (Option Texts)} (hsize : b.length = prepareBufferSize)
    (h : Yields (buildTexts garbage strProc params) b r b') :
    (firstFault params = none ∧ SetFits garbage [] 0 params ∧
      r = .ok (some ⟨(writtenFrom garbage [] 0 params).length, callText strProc params,
        selectTextFrom [] 0 params⟩) ∧
      b'.length = prepareBufferSize ∧ writtenFrom garbage [] 0 params <+: b') ∨
    ∃ fault, r = .error fault ∧ (fault = .bufferOverrun ↔ ¬ SetFits garbage [] 0 params) ∧
      (SetFits garbage [] 0 params → firstFault params ≠ none) := by
  obtain ⟨hthen, helse⟩ := @fills_buildTexts strProc params garbage (fun p hp _ => hknown p hp) b
    hsize List.nil_prefix
  by_cases hfits : SetFits garbage [] 0 params
  swap
  · obtain ⟨c, hover⟩ := helse hfits
    exact .inr ⟨_, (h.unique hover).1, iff_of_true rfl hfits, fun h => absurd h hfits⟩
  obtain ⟨c, hrun, hok⟩ := hthen hfits
  obtain ⟨rfl, rfl⟩ := h.unique hrun
  cases hfault : firstFault params with
  | none =>
    rw [hfault] at hok
    exact .inl ⟨rfl, hfits, rfl, hok rfl⟩
  | some fault =>
    refine .inr ⟨fault, rfl, ?_, fun _ => nofun⟩
    refine iff_of_false ?_ (not_not_intro hfits)
    rintro rfl
    exact firstFault_ne_bufferOverrun hfault

end Loop

end PetsServer
