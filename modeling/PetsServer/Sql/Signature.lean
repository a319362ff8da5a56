import PetsServer.Define
import PetsServer.Foundations.Program
import PetsServer.Foundations.Text

/-!
# Signatures of stored procedures

The server describes the parameters of a procedure by a text, `in a int, out b varchar(50)`.
`ProcedureHelper::Prepare` cuts it at the blanks and runs over the pieces with a state machine,
`parsePart`, which fills the array `parameters` and counts the parameters of each direction.
-/

namespace PetsServer

open Foundations

/-- `MAX_PARAM_COUNT` -/
def maxParamCount : ℕ := 10

/-- `SqlParam::DIRECTION` -/
inductive Direction
  | vIn | vOut | vInout
  deriving DecidableEq, Repr

/-- The members of `enum_field_types` that `GetMySqlType` returns, with the member that is zero. -/
inductive FieldType
  /-- `MYSQL_TYPE_DECIMAL`, which is zero. -/
  | decimal
  | long
  | longlong
  | string
  | blob
  /-- The value -1. -/
  | errtype
  deriving DecidableEq, Repr

/-- A `boost::any`, by the type it holds. -/
inductive AnyValue
  | empty
  | int (n : Int32)
  | int64 (n : Int64)
  /-- A `char*`, which can be null, and the C string it points to. -/
  | charPtr (s : Option (List Byte))
  /-- A `void*`, and the bytes that can be read through it. -/
  | voidPtr (block : List Byte)
  | other
  deriving DecidableEq

/-- `SqlParam` -/
structure SqlParam where
  direction : Direction
  type : FieldType
  lens : ℕ
  bindValue : AnyValue
  deriving DecidableEq

/-- A `SqlParam` filled with zeros. -/
def SqlParam.zero : SqlParam := ⟨.vIn, .decimal, 0, .empty⟩

/-- The counts and the parameters of a `ProcedureHelper`. A parameter is counted after it is
written. -/
structure Signature where
  totalCount : ℕ
  inCount : ℕ
  outCount : ℕ
  inoutCount : ℕ
  parameters : Vector SqlParam maxParamCount
  totalCount_le : totalCount ≤ maxParamCount
  deriving DecidableEq

namespace Signature

/-- The counts and the parameters filled with zeros. -/
def zero : Signature := ⟨0, 0, 0, 0, Vector.replicate maxParamCount .zero, Nat.zero_le _⟩

/-- The first `totalCount` parameters. -/
def declared (s : Signature) : List SqlParam := s.parameters.toList.take s.totalCount

end Signature

/-- Programs that read and write the signature. -/
abbrev OnSignature := EStateM Fault Signature

/-- `parameters[i]` is changed. -/
def updateParam (i : ℕ) (f : SqlParam → SqlParam) : OnSignature Unit := do
  let s ← get
  if h : i < maxParamCount then
    set { s with parameters := s.parameters.set i (f s.parameters[i]) }
  else throw .bufferOverrun

theorem yields_updateParam {i : ℕ} (h : i < maxParamCount) (f : SqlParam → SqlParam)
    (s : Signature) : Yields (updateParam i f) s (.ok ⟨⟩)
      { s with parameters := s.parameters.set i (f s.parameters[i]) } := by
  simp [Yields, updateParam, h]

/-- A subscript out of range. -/
theorem yields_updateParam_of_not_lt {i : ℕ} (h : ¬ i < maxParamCount) (f : SqlParam → SqlParam)
    (s : Signature) : Yields (updateParam i f) s (.error .bufferOverrun) s := by
  simp only [Yields, updateParam, EStateM.run_bind, EStateM.run_get, dif_neg h]
  rfl

/-- `ProcedureHelper::GetMySqlType`. The switch on the first letters only chooses the comparison. -/
def getMySqlType (typestr : List Byte) : FieldType :=
  if typestr = ascii "blob" then .blob
  else if typestr = ascii "bigint" then .longlong
  else if typestr = ascii "int" then .long
  else if typestr = ascii "char" then .string
  else if typestr = ascii "varchar" then .string
  else .errtype

/-- A type that a signature can name. -/
def FieldType.Known : FieldType → Prop
  | .long | .longlong | .string | .blob => True
  | .decimal | .errtype => False

theorem known_getMySqlType {text : List Byte} (h : getMySqlType text ≠ .errtype) :
    (getMySqlType text).Known := by
  unfold getMySqlType at *
  split_ifs at * <;> trivial

/-! ## Reading a text -/

/-- `isspace` -/
def isSpace (b : Byte) : Bool := b = 32 || (9 ≤ b && b ≤ 13)

/-- `tolower` -/
def toLower (b : Byte) : Byte := if 65 ≤ b ∧ b ≤ 90 then b + 32 else b

/-- The pieces that `>>` takes from a stream, one after another. -/
def streamParts (text : List Byte) : List (List Byte) :=
  (text.splitOnP isSpace).filter fun part => !part.isEmpty

/-- The value of the numeral at the start of a text, after blanks and a sign. -/
def strtol (text : List Byte) : ℤ :=
  match text.dropWhile isSpace with
  | 45 :: rest => -(readNat (rest.takeWhile IsDigit) : ℤ)
  | 43 :: rest => readNat (rest.takeWhile IsDigit)
  | rest => readNat (rest.takeWhile IsDigit)

/-- `atoi`, which cuts the `long` of `strtol` to an `int`. -/
def atoi (text : List Byte) : Int32 := Int32.ofInt (max (-2 ^ 63) (min (2 ^ 63 - 1) (strtol text)))

/-- An `int` converted to `size_t`. -/
def toSize (n : Int32) : ℕ := (n.toInt % 2 ^ 64).toNat

/-- `at(last - 1)`. For `last = 0` the index is the greatest `size_t`. -/
def byteBefore (part : List Byte) : ℕ → OnSignature Byte
  | 0 => throw .outOfRange
  | last + 1 =>
    match part[last]? with
    | some b => pure b
    | none => throw .outOfRange

/-! ## The state machine -/

/-- `whichPart` -/
inductive WhichPart
  | direction | name | type
  deriving DecidableEq, Repr

/-- A declaration starts: its direction is counted and written. -/
def declareDirection (direction : Direction) : OnSignature Unit := do
  modify fun s => match direction with
    | .vIn => { s with inCount := s.inCount + 1 }
    | .vOut => { s with outCount := s.outCount + 1 }
    | .vInout => { s with inoutCount := s.inoutCount + 1 }
  updateParam (← get).totalCount fun p => { p with direction := direction }

/-- `case 0` of `Prepare`. Without a direction the piece is the name. -/
def parseDirection (part : List Byte) : OnSignature WhichPart :=
  if part = ascii "in" then do
    declareDirection .vIn
    pure .name
  else if part = ascii "out" then do
    declareDirection .vOut
    pure .name
  else if part = ascii "inout" then do
    declareDirection .vInout
    pure .name
  else do
    declareDirection .vIn
    pure .type

/-- The type written in a piece, without the comma and the length, which is written to
`parameters[totalCount]`. -/
def parseLength (part : List Byte) : OnSignature (List Byte) := do
  let b ← byteBefore part part.length
  let last := if b = charByte ',' then part.length - 1 else part.length
  let b ← byteBefore part last
  if b = charByte ')' then
    match part.idxOf? (charByte '(') with
    | some last => do
      updateParam (← get).totalCount fun p =>
        { p with lens := toSize (atoi (part.drop (last + 1))) }
      pure (part.take last)
    -- `substr(0, npos)` is all of the piece
    | none => pure part
  else pure (part.take last)

/-- `totalCount++`, after `parameters[totalCount]` was written. -/
def countParam : OnSignature Unit := do
  let s ← get
  if h : s.totalCount < maxParamCount then
    set { s with totalCount := s.totalCount + 1, totalCount_le := h }
  else throw .bufferOverrun

/-- `case 2` of `Prepare`: false when the type is not known. -/
def parseType (part : List Byte) : OnSignature Bool := do
  let typestr ← parseLength part
  updateParam (← get).totalCount fun p => { p with type := getMySqlType typestr }
  if getMySqlType typestr = .errtype then pure false
  else do
    countParam
    pure true

/-- The loop of `Prepare`, and its result. -/
def parseParts : WhichPart → List (List Byte) → OnSignature Int32
  | _, [] => pure 0
  | .direction, part :: parts => do
    let whichPart ← parseDirection part
    parseParts whichPart parts
  | .name, _ :: parts => parseParts .type parts
  | .type, part :: parts => do
    if ← parseType part then parseParts .direction parts
    else pure (-3)

/-! ## The values -/

/-- `parameters[param].bindValue = any_arr[param]`: both sides are places, and the value is read in
the assignment, after both subscripts. -/
def bindValue (anyArr : Option (List AnyValue)) (param : ℕ) : OnSignature Unit :=
  if param < maxParamCount then
    match anyArr with
    | none => throw .nullPointer
    | some values =>
      match values[param]? with
      | none => throw .outOfBounds
      | some value => updateParam param fun p => { p with bindValue := value }
  else throw .bufferOverrun

/-- The loop of `ExecuteProcedure` that takes the values from `any_arr`. -/
def bindValues (anyArr : Option (List AnyValue)) (paramNums : ℕ) : OnSignature Unit :=
  (List.range paramNums).forM (bindValue anyArr)

end PetsServer
