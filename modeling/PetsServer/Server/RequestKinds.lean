import PetsServer.NetMsg.Requests
import PetsServer.Server.CallBacks

/-!
# From the constructor of a request to its case

A request message that a client builds with the constructor of its struct and sends is decoded,
dispatched by its first byte and switched on by its second. `request_reaches_case_iff`: it reaches
the case that belongs to it, with its payload unchanged, unless it is a register message, whose
constructor writes the kind of a login.
-/

namespace PetsServer

open Foundations

/-- The case that belongs to a request message. -/
def Request.ownCase : Request → SwitchCase
  | login => .login .login
  | register => .login .register
  | whisper => .chat .whisper
  | broadcast => .chat .broadcast
  | system => .chat .system
  | room => .chat .room
  | move => .move .move

/-- The case that the two protocol bytes of a request message lead to. -/
def Request.reachedCase : Request → SwitchCase
  | register => .login .login
  | request => request.ownCase

theorem Request.reachedCase_eq_iff {request : Request} :
    request.reachedCase = request.ownCase ↔ request ≠ .register := by
  cases request <;> decide

/-- What the dispatcher does with a request message. -/
theorem dispatchPack_enter_build (request : Request) (a b : Byte) (payload : List Byte)
    {pack : SPacket} (hbuf : pack.buffer = some (request.build a b payload)) :
    (dispatchPack CallBack.enter initServer.callBackMap pack).2 =
      .ok (some (request.reachedCase, request.build a b payload)) := by
  rw [Request.build_eq] at hbuf ⊢
  rw [dispatchPack_initServer _ hbuf]
  cases request <;> rfl

/-- The message, sent by `SendMsg` and received in any chunks, is handed over as one packet, which
reaches the case that belongs to it with its payload unchanged. -/
def Request.Reaches (request : Request) (conn : Established) (a b : Byte) (payload : List Byte)
    (hsize : (request.build a b payload).length < 2 ^ 32) : Prop :=
  ∃ sent, sendMsg ⟨request.build a b payload, hsize⟩ = .ok sent ∧
    ∀ chunks : List (List Byte), chunks.flatten = sent →
      ∃ s pack msg, Session.start.feeds conn.context chunks = .ok s ∧ s.pushed = [pack] ∧
        (dispatchPack CallBack.enter initServer.callBackMap pack).2 =
          .ok (some (request.ownCase, msg)) ∧
        msg.drop 2 = payload

theorem Request.length_build (request : Request) (a b : Byte) (payload : List Byte) :
    (request.build a b payload).length = payload.length + 2 := by
  rw [Request.build_eq]
  rfl

/-- The case that is reached is that of the two protocol bytes. -/
theorem Request.reaches_iff {request : Request} {conn : Established} {a b : Byte}
    {payload : List Byte} (hlimit : payload.length + 2 ≤ 65536)
    (hsize : (request.build a b payload).length < 2 ^ 32) :
    request.Reaches conn a b payload hsize ↔ request.reachedCase = request.ownCase := by
  have hbody : (request.build a b payload).length ≤ maxBody := by
    rw [request.length_build]
    exact hlimit
  have hdispatch : (dispatchPack CallBack.enter initServer.callBackMap
      (conn.packet (request.build a b payload))).2 =
      .ok (some (request.reachedCase, request.build a b payload)) :=
    dispatchPack_enter_build request a b payload rfl
  constructor
  · rintro ⟨sent, hsent, hreach⟩
    rw [sendMsg_eq] at hsent
    injection hsent with hsent
    obtain ⟨s, pack, msg, hs, hpack, hdisp, -⟩ := hreach [sent] (List.flatten_singleton ..)
    have hsingle : [sent].flatten = frame (request.build a b payload) := by
      rw [List.flatten_singleton, ← hsent]
    obtain ⟨t, ht, htp⟩ := exists_feeds_frame conn (p := ⟨_, hsize⟩) hbody hsingle
    rw [hs] at ht
    cases ht
    rw [hpack] at htp
    obtain rfl := List.singleton_inj.mp htp
    rw [hdispatch] at hdisp
    simp only [Except.ok.injEq, Option.some.injEq, Prod.mk.injEq] at hdisp
    exact hdisp.1
  · intro hcase
    refine ⟨_, sendMsg_eq _, fun chunks hchunks => ?_⟩
    obtain ⟨s, hs, hpushed⟩ := exists_feeds_frame conn (p := ⟨_, hsize⟩) hbody hchunks
    refine ⟨s, _, request.build a b payload, hs, hpushed, ?_, ?_⟩
    · rw [hdispatch, hcase]
    · rw [Request.build_eq]
      rfl

/-- **Constructors and dispatchers agree**, except for the register message: a request message of
any other kind, with any payload within the limit, reaches its own case with its payload unchanged,
and a register message never does. -/
theorem request_reaches_case_iff (request : Request) (conn : Established) (a b : Byte)
    (payload : List Byte) (hlimit : payload.length + 2 ≤ 65536)
    (hsize : (request.build a b payload).length < 2 ^ 32) :
    request.Reaches conn a b payload hsize ↔ request ≠ .register :=
  (Request.reaches_iff hlimit hsize).trans Request.reachedCase_eq_iff

/-- A message to a room, in a block that was filled with `0xFF`. -/
theorem room_message_reaches_case :
    Request.room.Reaches (.ofDnid 7) 0xFF 0xFF [5, 0, 0x68, 0x69] (by decide) :=
  (request_reaches_case_iff .room (.ofDnid 7) 0xFF 0xFF [5, 0, 0x68, 0x69] (by decide)
    (by decide)).mpr (by decide)

/-- The register message for the account `a` and the password `b` reaches the case of a login. -/
theorem register_message_reaches_login :
    ¬ Request.register.Reaches (.ofDnid 7) 0 0 [0x61, 0x26, 0x62, 0] (by decide) ∧
      (dispatchPack CallBack.enter initServer.callBackMap ((Established.ofDnid 7).packet
        (Request.register.build 0 0 [0x61, 0x26, 0x62, 0]))).2 =
        .ok (some (.login .login, [0x64, 0, 0x61, 0x26, 0x62, 0])) := by
  refine ⟨?_, dispatchPack_enter_build .register 0 0 [0x61, 0x26, 0x62, 0] rfl⟩
  rw [Request.reaches_iff (by decide)]
  decide

end PetsServer
