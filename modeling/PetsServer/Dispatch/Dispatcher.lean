import PetsServer.Codec.OnMessage
import PetsServer.NetMsg.SMessage
import Std.Data.ExtTreeMap

/-!
# The dispatcher

`Dispatcher` holds the queue of packets between the network threads and the game thread, and the
map from the category of a message to its callback. A callback is a value of the type `κ`, and
`invoke` says how calling it with a packet's number, message and player's object ends.

`dispatchPack` is the part of the loop in `DispatchMsg` that deals with one packet; the loop as the
game thread runs it, between the steps of the network threads, is in
`PetsServer.Dispatch.GameThread`.
-/

namespace PetsServer

variable {κ ρ : Type*}

/-- `std::map<MESSAGETYPE, DispatcherCallBack>`; `none` is an empty `std::function`. -/
abbrev CallBackMap (κ : Type*) := Std.ExtTreeMap MessageType (Option κ)

namespace CallBackMap

/-- `operator[]`: the entry, and the map, in which a miss has inserted an empty function. -/
def subscript (m : CallBackMap κ) (type : MessageType) : Option κ × CallBackMap κ :=
  match m[type]? with
  | some cb => (cb, m)
  | none => (none, m.insert type none)

/-- A callback is bound to the type. -/
def Binds (m : CallBackMap κ) (type : MessageType) (cb : κ) : Prop := m[type]? = some (some cb)

theorem binds_insert_self (m : CallBackMap κ) (type : MessageType) (cb : κ) :
    Binds (m.insert type (some cb)) type cb :=
  Std.ExtTreeMap.getElem?_insert_self

theorem subscript_of_binds {m : CallBackMap κ} {type : MessageType} {cb : κ} (h : m.Binds type cb) :
    m.subscript type = (some cb, m) := by
  rw [CallBackMap.subscript, h]

theorem subscript_of_miss {m : CallBackMap κ} {type : MessageType} (h : m[type]? = none) :
    m.subscript type = (none, m.insert type none) := by
  rw [CallBackMap.subscript, h]

end CallBackMap

/-- `Dispatcher`, without the timer, whose readings come from outside. -/
structure Dispatcher (κ : Type*) where
  callBackMap : CallBackMap κ
  msgQueue : List SPacket

namespace Dispatcher

/-- A new dispatcher. -/
def new : Dispatcher κ := ⟨∅, []⟩

/-- `Dispatcher::BindCB` -/
def bindCB (d : Dispatcher κ) (type : MessageType) (cb : κ) : Dispatcher κ :=
  { d with callBackMap := d.callBackMap.insert type (some cb) }

/-- `Dispatcher::PushPack` -/
def pushPack (d : Dispatcher κ) (pack : SPacket) : Dispatcher κ :=
  { d with msgQueue := d.msgQueue ++ [pack] }

end Dispatcher

/-- How calling a callback ends; `ρ` is what is recorded of the call. -/
abbrev Invoke (κ ρ : Type*) := κ → Dnid → List Byte → Option Pet → Except Fault ρ

/-- What the loop in `DispatchMsg` does with a packet it has got: the callback map it leaves, and
the record of the call, or `none` when the packet has no buffer and is skipped. -/
def dispatchPack (invoke : Invoke κ ρ) (m : CallBackMap κ) (pack : SPacket) :
    CallBackMap κ × Except Fault (Option ρ) :=
  match pack.buffer with
  | none => (m, .ok none)
  | some pmsg =>
    match readByte pmsg 0 with
    | .error e => (m, .error e)
    | .ok protocol =>
      match m.subscript protocol.toUInt16 with
      | (none, m') => (m', .error .badFunctionCall)
      | (some cb, m') => (m', (invoke cb pack.dnid pmsg pack.context).map some)

/-- A packet that is handled: it has a buffer, the buffer has a first byte, a callback is bound to
that byte, and the callback returns. -/
def Dispatchable (invoke : Invoke κ ρ) (m : CallBackMap κ) (pack : SPacket) : Prop :=
  ∃ (b : Byte) (rest : List Byte) (cb : κ) (r : ρ), pack.buffer = some (b :: rest) ∧
    m.Binds b.toUInt16 cb ∧ invoke cb pack.dnid (b :: rest) pack.context = .ok r

/-- A packet that is handled leaves the callback map alone. -/
theorem dispatchPack_of_dispatchable {invoke : Invoke κ ρ} {m : CallBackMap κ} {pack : SPacket}
    (h : Dispatchable invoke m pack) : ∃ r, dispatchPack invoke m pack = (m, .ok (some r)) := by
  obtain ⟨b, rest, cb, r, hbuf, hcb, hret⟩ := h
  refine ⟨r, ?_⟩
  simp only [dispatchPack, hbuf, readByte_zero_cons, CallBackMap.subscript_of_binds hcb, hret]
  rfl

/-- A packet of a type that is not in the map: the miss inserts an empty function, which is then
called. -/
theorem dispatchPack_of_miss {invoke : Invoke κ ρ} {m : CallBackMap κ} {pack : SPacket} {b : Byte}
    {rest : List Byte} (hbuf : pack.buffer = some (b :: rest)) (h : m[b.toUInt16]? = none) :
    dispatchPack invoke m pack = (m.insert b.toUInt16 none, .error .badFunctionCall) := by
  simp only [dispatchPack, hbuf, readByte_zero_cons, CallBackMap.subscript_of_miss h]

end PetsServer
