import PetsServer.Define

/-!
# Messages

A message is the block of bytes `malloc` returned for it. Its first byte is the category, one of the
values of `SMessage`; in a message of a known category the second byte is the kind within the
category, and the rest is the payload. The source reads these bytes through pointers to the message
structs; here a read outside the block is a fault.
-/

namespace PetsServer

/-- The categories of messages: the enumeration of `SMessage`, which starts at `0x64`. -/
inductive MessageBase
  | login | move | chat | fight
  deriving DecidableEq, Repr

namespace MessageBase

/-- The byte `_protocol` of `SMessage`. -/
def toByte : MessageBase → Byte
  | login => 0x64
  | move => 0x65
  | chat => 0x66
  | fight => 0x67

/-- The category as a key of the callback map. -/
def toType (base : MessageBase) : MessageType := base.toByte.toUInt16

end MessageBase

/-- The kinds of login messages: the enumeration of `SLoginBaseMsg`. -/
inductive LoginKind
  | login | register | setInfo | getInfo
  deriving DecidableEq, Repr

/-- The byte `_protocol` of `SLoginBaseMsg`. -/
def LoginKind.toByte : LoginKind → Byte
  | login => 0
  | register => 1
  | setInfo => 2
  | getInfo => 3

/-- The kinds of chat messages: the enumeration of `SChatBaseMsg`. -/
inductive ChatKind
  | whisper | broadcast | system | room
  deriving DecidableEq, Repr

/-- The byte `_protocol` of `SChatBaseMsg`. -/
def ChatKind.toByte : ChatKind → Byte
  | whisper => 0
  | broadcast => 1
  | system => 2
  | room => 3

/-- The kinds of move messages: the enumeration of `SMoveBaseMsg`. -/
inductive MoveKind
  | move | position | jump
  deriving DecidableEq, Repr

/-- The byte `_protocol` of `SMoveBaseMsg`. -/
def MoveKind.toByte : MoveKind → Byte
  | move => 0
  | position => 1
  | jump => 2

/-! ## Reading a block -/

/-- The byte at offset `i` of a block. -/
def readByte (block : List Byte) (i : ℕ) : Except Fault Byte :=
  match block[i]? with
  | some b => .ok b
  | none => .error .outOfBounds

/-- The NUL-terminated text at offset `i` of a block: without a NUL the reader runs off its end. -/
def readText (block : List Byte) (i : ℕ) : Except Fault (List Byte) :=
  let text := (block.drop i).takeWhile (· ≠ 0)
  if i + text.length < block.length then .ok text else .error .outOfBounds

@[simp] theorem readByte_zero_cons (b : Byte) (rest : List Byte) :
    readByte (b :: rest) 0 = .ok b := rfl

/-- A text ends before its list does if and only if there is a NUL. -/
theorem length_takeWhile_lt_iff (l : List Byte) :
    (l.takeWhile (· ≠ 0)).length < l.length ↔ (0 : Byte) ∈ l := by
  induction l with
  | nil => simp
  | cons b bs ih =>
    by_cases hb : b = 0
    · simp [hb]
    · rw [List.takeWhile_cons_of_pos (by simpa using hb), List.mem_cons, ← ih]
      simp [Ne.symm hb]

/-- The text at offset `i` is read inside the block if and only if a NUL follows. -/
theorem readText_eq (block : List Byte) (i : ℕ) :
    readText block i = if (0 : Byte) ∈ block.drop i then .ok ((block.drop i).takeWhile (· ≠ 0))
      else .error .outOfBounds := by
  have hiff := length_takeWhile_lt_iff (block.drop i)
  rw [List.length_drop] at hiff
  exact if_congr (by rw [← hiff]; omega) rfl rfl

end PetsServer
