import Mathlib.Algebra.Ring.Int.Defs
import Mathlib.Algebra.Ring.Nat
import Mathlib.Tactic.Common

/-!
# The common definitions

The integer types and constants of `Define.hpp`, the players' objects, and the ways in which the
program can leave the course its source describes: a failed assertion, an exception that nobody
catches, or behaviour that the language leaves undefined.
-/

namespace PetsServer

/-- `BYTE` -/
abbrev Byte := UInt8
/-- `DWORD` -/
abbrev Dword := UInt32
/-- `QWORD` -/
abbrev Qword := UInt64
/-- `DNID`, the number by which the server knows a network connection. -/
abbrev Dnid := Dword
/-- `MESSAGETYPE` -/
abbrev MessageType := UInt16

/-- `HEADMSGLEN` -/
def headMsgLen : ℕ := 4

/-- `IID_PETS` -/
def iidPets : Dword := 0x1

/-- `Pet`, the object of a player. Of its fields the network side reads the number of the connection
that it belongs to; the properties that are stored in the database are not read by the functions
modelled here. -/
structure Pet where
  iid : Dword
  dnid : Dnid
  deriving DecidableEq, Repr

/-- The constructor: a pet starts with the placeholder number. -/
def Pet.new : Pet := ⟨iidPets, 0xFFFFFFFF⟩

/-- `Pet::GetDnid` -/
def Pet.getDnid (pet : Pet) : Dnid := pet.dnid

/-- What ends the program's normal course. -/
inductive Fault
  /-- An `assert` of the network library fails. -/
  | assertFailed
  /-- A signed computation overflows. -/
  | intOverflow
  /-- `boost::any_cast` throws `bad_any_cast`. -/
  | badAnyCast
  /-- A read outside the allocated block. -/
  | outOfBounds
  /-- A write outside the allocated block. -/
  | bufferOverrun
  /-- A null pointer is read through. -/
  | nullPointer
  /-- A `std::string` is indexed out of range, which throws `out_of_range`. -/
  | outOfRange
  /-- An empty `std::function` is called, which throws `bad_function_call`. -/
  | badFunctionCall
  /-- `front` or `pop` of an empty `std::queue`. -/
  | emptyQueue
  /-- A loop is still running after the passes it was given. -/
  | stillRunning
  deriving DecidableEq, Repr

/-- The sum of two `int`s; the sum that does not fit is undefined. -/
def addInt (a b : Int32) : Except Fault Int32 :=
  if -2 ^ 31 ≤ a.toInt + b.toInt ∧ a.toInt + b.toInt < 2 ^ 31 then .ok (a + b)
  else .error .intOverflow

/-- A sum that fits is the sum. -/
theorem addInt_spec {a b : Int32} (h₁ : -2 ^ 31 ≤ a.toInt + b.toInt)
    (h₂ : a.toInt + b.toInt < 2 ^ 31) :
    ∃ c, addInt a b = .ok c ∧ c.toInt = a.toInt + b.toInt := by
  refine ⟨a + b, if_pos ⟨h₁, h₂⟩, ?_⟩
  rw [Int32.toInt_add, Int.bmod_def]
  split <;> omega

end PetsServer
