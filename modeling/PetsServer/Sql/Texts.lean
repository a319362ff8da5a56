import PetsServer.Foundations.Bytes
import PetsServer.Sql.Signature

/-!
# The texts of a procedure call

`ProcedureHelper::Execute` goes over the parameters and builds three texts: the `SET` that assigns
the user variables, in the global block `PrepareBuffer`, the `CALL`, and the `SELECT` that reads the
variables back. Everything is written to `PrepareBuffer` at a moving index, some of it with a zero
after it that the next piece overwrites.
-/

namespace PetsServer

open Foundations

/-- The size of `PrepareBuffer`. -/
def prepareBufferSize : ℕ := 0xFA00

/-- Programs that write to `PrepareBuffer`. -/
abbrev OnBuffer := EStateM Fault (List Byte)

/-- Bytes are written to the block at the index. -/
def writeAt (idx : ℕ) (data : List Byte) : OnBuffer Unit := do
  let buffer ← get
  if idx + data.length ≤ buffer.length then set (overwrite buffer idx data)
  else throw .bufferOverrun

theorem writeAt_of_le {buffer data : List Byte} {idx : ℕ}
    (h : idx + data.length ≤ buffer.length) :
    Yields (writeAt idx data) buffer (.ok ⟨⟩) (overwrite buffer idx data) := by
  simp [Yields, writeAt, h]

theorem writeAt_of_not_le {buffer data : List Byte} {idx : ℕ}
    (h : ¬ idx + data.length ≤ buffer.length) :
    Yields (writeAt idx data) buffer (.error .bufferOverrun) buffer := by
  simp only [Yields, writeAt, EStateM.run_bind, EStateM.run_get, if_neg h]
  rfl

/-- `sprintf` to the block at the index, with the zero after the text. -/
def sprintfAt (idx : ℕ) (text : List Byte) : OnBuffer ℕ := do
  writeAt idx (text ++ [0])
  pure text.length

/-! ## Values as text -/

/-- `any_cast<int>` -/
def anyCastInt : AnyValue → OnBuffer Int32
  | .int n => pure n
  | _ => throw .badAnyCast

/-- `any_cast<int64_t>` -/
def anyCastInt64 : AnyValue → OnBuffer Int64
  | .int64 n => pure n
  | _ => throw .badAnyCast

/-- `any_cast<char*>`, and the string read through the pointer. -/
def anyCastString : AnyValue → OnBuffer (List Byte)
  | .charPtr (some s) => pure (cString s)
  | .charPtr none => throw .nullPointer
  | _ => throw .badAnyCast

/-- `any_cast<void*>` -/
def anyCastBlock : AnyValue → OnBuffer (List Byte)
  | .voidPtr block => pure block
  | _ => throw .badAnyCast

/-- `ProcedureHelper::AnyValueToString` -/
def anyValueToString (param : SqlParam) : OnBuffer (List Byte) :=
  match param.type with
  | .long => do
    let n ← anyCastInt param.bindValue
    pure (decimal n.toInt)
  | .longlong => do
    let n ← anyCastInt64 param.bindValue
    pure (decimal n.toInt)
  | .string => do
    let s ← anyCastString param.bindValue
    pure (ascii "'" ++ s ++ ascii "'")
  | .blob => pure []
  | .decimal | .errtype => pure []

/-! ## The loop over the parameters -/

/-- The name of the user variable of a parameter. -/
def userVariable (i : ℕ) : List Byte := ascii "@_" ++ digits i

/-- The local variables of `Execute`. -/
structure Texts where
  prepareIdx : ℕ
  pecedureCall : List Byte
  strSelect : List Byte
  deriving DecidableEq, Repr

/-- The comma after the assignment before, or the word `set` with the zero after it. -/
def separateSet (prepareIdx : ℕ) : OnBuffer ℕ :=
  if prepareIdx ≠ 0 then do
    writeAt prepareIdx (ascii ",")
    pure (prepareIdx + 1)
  else do
    writeAt 0 (ascii "set" ++ [0])
    pure 3

/-- The digits of the bytes `n, …, n + k - 1` of a block. -/
def writeHex (prepareIdx : ℕ) (block : List Byte) : ℕ → ℕ → OnBuffer Unit
  | _, 0 => pure ()
  | n, k + 1 =>
    match block[n]? with
    | none => throw .outOfBounds
    | some b => do
      let _ ← sprintfAt (prepareIdx + n * 2) (hexByte b)
      writeHex prepareIdx block (n + 1) k

/-- A parameter that is passed in. -/
def executeIn (i : ℕ) (param : SqlParam) (t : Texts) : OnBuffer (Option Texts) :=
  if param.type ≠ .blob then do
    let ret ← anyValueToString param
    if ret.isEmpty then pure none
    else pure (some { t with pecedureCall := t.pecedureCall ++ ret })
  else do
    let idx ← separateSet t.prepareIdx
    let text := userVariable i ++ ascii " = 0x"
    writeAt idx text
    let idx := idx + text.length
    let block ← anyCastBlock param.bindValue
    writeHex idx block 0 param.lens
    pure (some { t with
      prepareIdx := idx + param.lens * 2, pecedureCall := t.pecedureCall ++ userVariable i })

/-- The initial value of a user variable. `garbage` is what `sprintf` prints for a `std::string`
that is passed to it as an object. -/
def initialise (garbage : List Byte) (i : ℕ) (param : SqlParam) (prepareIdx : ℕ) :
    OnBuffer (Option ℕ) :=
  if param.direction = .vInout then
    if param.type ≠ .blob then do
      let ret ← anyValueToString param
      if ret.isEmpty then pure none
      else do
        let len ← sprintfAt prepareIdx
          (ascii " " ++ userVariable i ++ ascii " = " ++ cString garbage)
        pure (some (prepareIdx + len))
    else do
      -- only the digits: neither the variable nor `0x`
      let block ← anyCastBlock param.bindValue
      writeHex prepareIdx block 0 param.lens
      pure (some (prepareIdx + param.lens * 2))
  else do
    let len ← sprintfAt prepareIdx (ascii " " ++ userVariable i ++ ascii " = null")
    pure (some (prepareIdx + len))

/-- A parameter that is passed out. -/
def executeOut (garbage : List Byte) (i : ℕ) (param : SqlParam) (t : Texts) :
    OnBuffer (Option Texts) := do
  let idx ← separateSet t.prepareIdx
  match ← initialise garbage i param idx with
  | none => pure none
  | some idx =>
    let select := if t.strSelect.isEmpty then ascii "select " else ascii ", "
    pure (some ⟨idx, t.pecedureCall ++ userVariable i, t.strSelect ++ select ++ userVariable i⟩)

/-- One pass of the loop of `Execute`, or none when it returns -1. -/
def executeParam (garbage : List Byte) (i : ℕ) (param : SqlParam) (t : Texts) :
    OnBuffer (Option Texts) :=
  let t := if i ≠ 0 then { t with pecedureCall := t.pecedureCall ++ ascii ", " } else t
  if param.direction = .vIn then executeIn i param t else executeOut garbage i param t

/-- The loop of `Execute` from the parameter `i` on. -/
def executeParams (garbage : ℕ → List Byte) : ℕ → List SqlParam → Texts → OnBuffer (Option Texts)
  | _, [], t => pure (some t)
  | i, param :: params, t => do
    match ← executeParam (garbage i) i param t with
    | none => pure none
    | some t => executeParams garbage (i + 1) params t

/-- The texts that `Execute` builds, or none when it returns -1 while it does. -/
def buildTexts (garbage : ℕ → List Byte) (strProc : List Byte) (params : List SqlParam) :
    OnBuffer (Option Texts) := do
  match ← executeParams garbage 0 params ⟨0, ascii "call " ++ strProc ++ ascii " ( ", []⟩ with
  | none => pure none
  | some t => pure (some { t with pecedureCall := t.pecedureCall ++ ascii " )" })

end PetsServer
