import PetsServer.Codec.Stream
import PetsServer.Dispatch.GameThread
import PetsServer.Object.PetsManager

/-!
# The callbacks bound by `InitServer`

`initServer` is the dispatcher with the three handlers of `PetsManager` bound to their categories.
Two properties of the server so initialised depend on what clients send:

* `handlers_read_inside_iff`: which messages the dispatcher and the handlers read without leaving
  the block that holds the message;
* `survives_unbound_iff`: which packets the game thread outlives.
-/

namespace PetsServer

open Foundations

/-- The functions that `InitServer` binds. -/
inductive CallBack
  | onDispatchChatMsg | onDispatchMoveMsg | onDispatchLoginMsg
  deriving DecidableEq, Repr

/-- The function, called on the server's `m_petsManager`. -/
def CallBack.call : Invoke CallBack SwitchCase
  | onDispatchChatMsg => PetsServer.onDispatchChatMsg
  | onDispatchMoveMsg => PetsServer.onDispatchMoveMsg
  | onDispatchLoginMsg => PetsServer.onDispatchLoginMsg

/-- The calls of `BindCB` in `PetsServer::InitServer`. -/
def initServer : Dispatcher CallBack :=
  ((Dispatcher.new.bindCB MessageBase.chat.toType .onDispatchChatMsg).bindCB
    MessageBase.move.toType .onDispatchMoveMsg).bindCB
    MessageBase.login.toType .onDispatchLoginMsg

/-- The handler of a category, as a function of the first byte. -/
def handlerOf (b : Byte) : Option CallBack :=
  if b = MessageBase.login.toByte then some .onDispatchLoginMsg
  else if b = MessageBase.move.toByte then some .onDispatchMoveMsg
  else if b = MessageBase.chat.toByte then some .onDispatchChatMsg
  else none

theorem toUInt16_inj {a b : Byte} : a.toUInt16 = b.toUInt16 ↔ a = b := by
  rw [← UInt16.toNat_inj, ← UInt8.toNat_inj, UInt8.toNat_toUInt16, UInt8.toNat_toUInt16]

/-- The categories with a handler. -/
theorem handlerOf_isSome_iff {b : Byte} :
    (handlerOf b).isSome ↔ ∃ base ∈ [MessageBase.login, .move, .chat], b = base.toByte := by
  simp only [handlerOf, List.mem_cons, List.not_mem_nil, or_false, exists_eq_or_imp,
    exists_eq_left]
  split <;> [simp [*]; split] <;> [simp [*]; split] <;> simp [*]

/-- The callback map binds the three handlers and has no other entry. -/
theorem getElem?_initServer (b : Byte) :
    initServer.callBackMap[b.toUInt16]? = (handlerOf b).map some := by
  simp only [initServer, Dispatcher.bindCB, Dispatcher.new, MessageBase.toType]
  rw [Std.ExtTreeMap.getElem?_insert, Std.ExtTreeMap.getElem?_insert,
    Std.ExtTreeMap.getElem?_insert]
  simp only [Std.LawfulEqCmp.compare_eq_iff_eq, toUInt16_inj, handlerOf, eq_comm (a := b)]
  split <;> [rfl; split] <;> [rfl; split] <;> rfl

/-- A packet with a category, dispatched after `InitServer`. -/
theorem dispatchPack_initServer {ρ : Type*} (invoke : Invoke CallBack ρ) {pack : SPacket} {b : Byte}
    {rest : List Byte} (hbuf : pack.buffer = some (b :: rest)) :
    (dispatchPack invoke initServer.callBackMap pack).2 =
      match handlerOf b with
      | none => .error .badFunctionCall
      | some cb => (invoke cb pack.dnid (b :: rest) pack.context).map some := by
  have hget := getElem?_initServer b
  cases hcb : handlerOf b with
  | none =>
    rw [hcb] at hget
    rw [dispatchPack_of_miss hbuf hget]
  | some cb =>
    rw [hcb] at hget
    simp only [dispatchPack, hbuf, readByte_zero_cons, CallBackMap.subscript_of_binds hget]

/-! ## The cases of the handlers -/

/-- The case of the handler's `switch` for a byte. -/
def CallBack.caseOf : CallBack → Byte → SwitchCase
  | onDispatchLoginMsg, protocol => (LoginKind.ofByte protocol).elim .default .login
  | onDispatchChatMsg, protocol => (ChatKind.ofByte protocol).elim .default .chat
  | onDispatchMoveMsg, protocol => (MoveKind.ofByte protocol).elim .default .move

/-- A handler up to its `case`: the case it enters, and the message it has there. -/
def CallBack.enter : Invoke CallBack (SwitchCase × List Byte)
  | cb, _, basemsg, _ => do
    let protocol ← readByte basemsg 1
    .ok (cb.caseOf protocol, basemsg)

/-- A handler that returns has entered the case that it returns from. -/
theorem CallBack.enter_of_call {cb : CallBack} {dnid : Dnid} {msg : List Byte} {pet : Option Pet}
    {reached : SwitchCase} (h : cb.call dnid msg pet = .ok reached) :
    cb.enter dnid msg pet = .ok (reached, msg) := by
  match msg with
  | [] | [_] => cases cb <;> cases h
  | a :: b :: rest =>
    show Except.ok (cb.caseOf b, _) = _
    cases cb with
    | onDispatchLoginMsg =>
      change PetsServer.onDispatchLoginMsg dnid (a :: b :: rest) pet = _ at h
      rw [PetsServer.onDispatchLoginMsg, switchProtocol_cons_cons] at h
      show Except.ok ((LoginKind.ofByte b).elim SwitchCase.default .login, _) = _
      cases hkind : LoginKind.ofByte b with
      | none =>
        rw [hkind] at h
        cases h
        rfl
      | some kind =>
        rw [hkind] at h
        cases kind with
        | login =>
          change (Pet.onNetLoginMsg _ >>= fun _ => _) = _ at h
          rw [Pet.onNetLoginMsg_cons_cons] at h
          split at h <;> cases h
          rfl
        | register | setInfo | getInfo =>
          cases h
          rfl
    | onDispatchChatMsg | onDispatchMoveMsg =>
      cases h
      rfl

/-! ## What the dispatcher and the handlers read -/

/-- The messages that are as long as their readers assume: there is a category; a category that is
handled is followed by the kind; and in a login the text after the kind has an end. -/
def ReadsInside : List Byte → Prop
  | [] => False
  | [category] => handlerOf category = none
  | category :: protocol :: rest =>
    category = MessageBase.login.toByte → protocol = LoginKind.login.toByte → (0 : Byte) ∈ rest

theorem map_some_eq_error {α : Type*} {r : Except Fault α} {e : Fault} :
    r.map some = .error e ↔ r = .error e := by
  cases r <;> simp [Except.map]

/-- A handler leaves the message exactly when `ReadsInside` fails. -/
theorem dispatchPack_outOfBounds_iff (pack : SPacket) {body : List Byte}
    (hbuf : pack.buffer = some body) :
    (dispatchPack CallBack.call initServer.callBackMap pack).2 = .error .outOfBounds ↔
      ¬ ReadsInside body := by
  rcases body with _ | ⟨a, _ | ⟨b, rest⟩⟩
  · simp [dispatchPack, hbuf, readByte, ReadsInside]
  · rw [dispatchPack_initServer _ hbuf, ReadsInside]
    cases handlerOf a with
    | none => simp
    | some cb => cases cb <;> simp [CallBack.call, onDispatchChatMsg, onDispatchMoveMsg,
        onDispatchLoginMsg, switchProtocol_singleton, Except.map]
  · rw [dispatchPack_initServer _ hbuf, ReadsInside, handlerOf]
    by_cases hlogin : a = MessageBase.login.toByte
    · simp only [hlogin, if_true, map_some_eq_error, CallBack.call, onDispatchLoginMsg_cons_cons]
      simp
    · obtain ⟨r, hr⟩ := onDispatchChatMsg_cons_cons pack.dnid a b rest pack.context
      obtain ⟨r', hr'⟩ := onDispatchMoveMsg_cons_cons pack.dnid a b rest pack.context
      simp only [hlogin, if_false, false_implies, not_true, iff_false]
      split
      · intro h; cases h
      · rename_i cb hcb
        have hcb' : cb = .onDispatchMoveMsg ∨ cb = .onDispatchChatMsg := by
          split at hcb
          · exact Or.inl (Option.some.inj hcb).symm
          · split at hcb
            · exact Or.inr (Option.some.inj hcb).symm
            · cases hcb
        rcases hcb' with rfl | rfl <;> simp [CallBack.call, hr, hr', Except.map]

/-- A message within the limit that is sent alone, in any chunks, is pushed, whatever it says. -/
theorem exists_feeds_frame (conn : Established) {p : Payload} (hp : p.data.length ≤ maxBody)
    {chunks : List (List Byte)} (hchunks : chunks.flatten = frame p.data) :
    ∃ s, Session.start.feeds conn.context chunks = .ok s ∧ s.pushed = [conn.packet p.data] := by
  obtain ⟨s, hs, hr, hpushed⟩ := Session.feeds_start conn chunks
  have hframes := (decode_payloads [p]).1
  rw [List.takeWhile_cons_of_pos (by simpa using hp)] at hframes
  rw [hchunks] at hr
  have hbodies : s.bodies = [p.data] := by
    refine (congrArg Framing.Receiver.frames hr).trans (Eq.trans ?_ hframes)
    simp [Framing.received]
  exact ⟨s, hs, by rw [hpushed, hbodies]; rfl⟩

/-- **What is read of a message lies inside the message exactly when it is long enough.** Of the
packets that `onMessage` pushes, the dispatcher and the handler it selects read only the body if and
only if the body satisfies `ReadsInside`; and `onMessage` pushes every body of up to 65536 bytes,
whether it does or not. -/
theorem handlers_read_inside_iff (conn : Established) :
    (∀ chunks : List (List Byte), ∃ s, Session.start.feeds conn.context chunks = .ok s ∧
      ∀ pack ∈ s.pushed,
        ((dispatchPack CallBack.call initServer.callBackMap pack).2 ≠ .error .outOfBounds ↔
          ReadsInside pack.body)) ∧
    ∀ p : Payload, p.data.length ≤ 65536 → ∃ sent s, sendMsg p = .ok sent ∧
      Session.start.feeds conn.context [sent] = .ok s ∧ s.pushed = [conn.packet p.data] := by
  constructor
  · intro chunks
    obtain ⟨s, hs, -, hpushed⟩ := Session.feeds_start conn chunks
    refine ⟨s, hs, fun pack hpack => ?_⟩
    rw [hpushed] at hpack
    obtain ⟨body, -, rfl⟩ := List.mem_map.mp hpack
    rw [Ne, dispatchPack_outOfBounds_iff _ rfl, not_not, Established.body_packet]
  · intro p hp
    obtain ⟨s, hs, hpushed⟩ := exists_feeds_frame conn hp (List.flatten_singleton ..)
    exact ⟨_, s, sendMsg_eq p, hs, hpushed⟩

/-- A login message of one byte: the handler reads the byte after it. -/
theorem login_without_kind_read_outside :
    ∃ s pack, Session.start.feeds (Established.ofDnid 7).context [[0, 0, 0, 1, 0x64]] = .ok s ∧
      pack ∈ s.pushed ∧
      (dispatchPack CallBack.call initServer.callBackMap pack).2 = .error .outOfBounds := by
  obtain ⟨s, hs, hpushed⟩ := exists_feeds_frame (Established.ofDnid 7) (p := ⟨[0x64], by decide⟩)
    (by decide) (List.flatten_singleton ..)
  refine ⟨s, _, hs, hpushed ▸ List.mem_singleton_self _, ?_⟩
  rw [dispatchPack_outOfBounds_iff _ rfl]
  intro h; cases h

/-! ## Packets of a kind that is not registered -/

/-- A callback is bound to the packet's category. -/
def hasHandler (pack : SPacket) : Bool := (pack.body.head?.bind handlerOf).isSome

/-- The game thread outlives the packets: in every run in which they arrive in order, no empty
function is called, the callback map stays as `InitServer` left it, the packets with a handler are
handed over in order, and between two calls those still queued can be handed over. -/
def Survives {ρ : Type*} (invoke : Invoke CallBack ρ) (packs : List SPacket) : Prop :=
  ∀ acts s, pushes acts <+: packs →
    run (gameStep invoke) (.start initServer.callBackMap) acts = some s →
      s.pc ≠ .crashed .badFunctionCall ∧ s.dispatcher.callBackMap = initServer.callBackMap ∧
      (s.handled ++ s.pc.hand ++ s.dispatcher.msgQueue).filter hasHandler =
        (pushes acts).filter hasHandler ∧
      (s.pc = .outside → ∃ more t, pushes more = [] ∧ run (gameStep invoke) s more = some t ∧
        t.handled.filter hasHandler = (pushes acts).filter hasHandler)

/-- The callback of the packet's category returns, if there is one. -/
def HandlerReturns {ρ : Type*} (invoke : Invoke CallBack ρ) (pack : SPacket) : Prop :=
  ∀ cb, pack.body.head?.bind handlerOf = some cb →
    ∃ r, invoke cb pack.dnid pack.body pack.context = .ok r

theorem dispatchable_of_handler {ρ : Type*} {invoke : Invoke CallBack ρ} {pack : SPacket} {b : Byte}
    {rest : List Byte} (hreturns : HandlerReturns invoke pack)
    (hbuf : pack.buffer = some (b :: rest)) (hb : (handlerOf b).isSome) :
    Dispatchable invoke initServer.callBackMap pack := by
  obtain ⟨cb, hcb⟩ := Option.isSome_iff_exists.mp hb
  have hbody : pack.body = b :: rest := by rw [SPacket.body, hbuf, Option.getD_some]
  obtain ⟨r, hr⟩ := hreturns cb (by rw [hbody]; exact hcb)
  rw [hbody] at hr
  refine ⟨b, rest, cb, r, hbuf, ?_, hr⟩
  have hget := getElem?_initServer b
  rw [hcb] at hget
  exact hget

theorem hasHandler_of_buffer {pack : SPacket} {b : Byte} {rest : List Byte}
    (hbuf : pack.buffer = some (b :: rest)) : hasHandler pack = (handlerOf b).isSome := by
  simp [hasHandler, SPacket.body, hbuf]

section Survival

variable {ρ : Type*} {invoke : Invoke CallBack ρ}

/-- Packets that all have a handler are survived: they are dispatchable. -/
theorem survives_of_forall {packs : List SPacket}
    (hd : ∀ pack ∈ packs, Dispatchable invoke initServer.callBackMap pack) :
    Survives invoke packs := by
  intro acts s hpre hrun
  have hs := fifo_of_run (fun pack hp => hd pack (hpre.subset hp)) hrun
  refine ⟨?_, hs.map_eq, congrArg _ hs.conserved, ?_⟩
  · intro hpc
    have hok := hs.pcOk
    rw [hpc] at hok
    exact Fault.noConfusion hok
  · intro hpc
    have hok := hs.pcOk
    rw [hpc] at hok
    have hcons := hs.conserved
    rw [hpc, show Pc.outside.hand = [] from rfl, List.append_nil] at hcons
    have hqueue : ∀ pack ∈ s.dispatcher.msgQueue,
        Dispatchable invoke s.dispatcher.callBackMap pack := by
      intro pack hp
      rw [hs.map_eq]
      refine hd pack (hpre.subset ?_)
      rw [← hcons]
      exact List.mem_append_right _ hp
    obtain ⟨more, t, hpush, hmore, -, -, hhandled⟩ :=
      exists_run_handled _ [] hpc hok (List.append_nil _).symm hqueue
    refine ⟨more, t, hpush, hmore, ?_⟩
    rw [hhandled, hcons]

/-- A packet without a handler, after packets with one, ends the game thread. -/
theorem exists_crash {pre : List SPacket} {pack : SPacket} {b : Byte} {rest : List Byte}
    (hd : ∀ p ∈ pre, Dispatchable invoke initServer.callBackMap p)
    (hbuf : pack.buffer = some (b :: rest)) (hb : handlerOf b = none) :
    ∃ acts s, pushes acts = pre ++ [pack] ∧
      run (gameStep invoke) (.start initServer.callBackMap) acts = some s ∧
      s.pc = .crashed .badFunctionCall := by
  have hpush : run (gameStep invoke) (.start initServer.callBackMap) ((pre ++ [pack]).map .push) =
      some { GameState.start initServer.callBackMap with dispatcher.msgQueue := pre ++ [pack] } :=
    run_pushes rfl (pre ++ [pack])
  obtain ⟨more, t, hnone, hmore, hpc, hdisp, -⟩ := exists_run_handled
    (s := { GameState.start initServer.callBackMap with dispatcher.msgQueue := pre ++ [pack] })
    pre [pack] rfl rfl rfl hd
  have htake : run (gameStep invoke) t takeOne =
      some { t with dispatcher.msgQueue := [], pc := .inHand ⟨0, 0⟩ pack } :=
    run_takeOne hpc (congrArg Dispatcher.msgQueue hdisp)
  have hmap : t.dispatcher.callBackMap[b.toUInt16]? = none := by
    rw [hdisp]
    have hget := getElem?_initServer b
    rwa [hb] at hget
  refine ⟨_, _, ?_, run_snoc (a := .handle) (run_trans (run_trans hpush hmore) htake) rfl, ?_⟩
  · rw [pushes_append, pushes_append, pushes_append, pushes_map_push, hnone]
    simp [pushes, takeOne]
  · simp only [handleStep, dispatchPack_of_miss hbuf hmap]

/-- **The packets that the game thread outlives.** Of packets with non-empty messages, and with
callbacks that return, exactly those are survived whose first bytes are all a category that
`InitServer` has registered. -/
theorem survives_unbound_iff (packs : List SPacket)
    (hreturns : ∀ pack ∈ packs, HandlerReturns invoke pack)
    (hbody : ∀ pack ∈ packs, ∃ b rest, pack.buffer = some (b :: rest)) :
    Survives invoke packs ↔ ∀ pack ∈ packs, ∃ base ∈ [MessageBase.login, .move, .chat],
      pack.body.head? = some base.toByte := by
  have hhas : ∀ pack ∈ packs, (hasHandler pack = true ↔
      ∃ base ∈ [MessageBase.login, .move, .chat], pack.body.head? = some base.toByte) := by
    intro pack hp
    obtain ⟨b, rest, hbuf⟩ := hbody pack hp
    rw [hasHandler_of_buffer hbuf, handlerOf_isSome_iff]
    simp [SPacket.body, hbuf]
  have hdisp : ∀ pack ∈ packs, hasHandler pack = true →
      Dispatchable invoke initServer.callBackMap pack := by
    intro pack hp hb
    obtain ⟨b, rest, hbuf⟩ := hbody pack hp
    exact dispatchable_of_handler (hreturns pack hp) hbuf (hasHandler_of_buffer hbuf ▸ hb)
  rw [← forall₂_congr hhas]
  constructor
  · intro hsurv
    by_contra hall
    -- the first packet without a handler is the one that ends the game thread
    obtain ⟨pre, pack, post, rfl, hpre, hno⟩ := exists_first_not hall
    obtain ⟨b, rest, hbuf⟩ := hbody pack (by simp)
    have hb : handlerOf b = none := by
      rw [hasHandler_of_buffer hbuf] at hno
      simpa using hno
    have hd : ∀ p ∈ pre, Dispatchable invoke initServer.callBackMap p := fun p hp =>
      hdisp p (List.mem_append_left _ hp) (hpre p hp)
    obtain ⟨acts, s, hacts, hrun, hpc⟩ := exists_crash hd hbuf hb
    refine (hsurv acts s ?_ hrun).1 hpc
    rw [hacts]
    exact ⟨post, by simp⟩
  · intro hall
    exact survives_of_forall fun pack hp => hdisp pack hp (hall pack hp)

/-- A packet of each registered category, the last one a login with a text. -/
def threePackets : List SPacket :=
  [⟨7, some [0x66, 1], none⟩, ⟨8, some [0x65, 0], none⟩, ⟨7, some [0x64, 0, 0x61, 0x62, 0], none⟩]

theorem survives_unbound_three : Survives CallBack.call threePackets := by
  refine (survives_unbound_iff _ ?_ ?_).mpr ?_
  · have hcalls : ∀ pack ∈ threePackets, ∀ cb : CallBack, pack.body.head?.bind handlerOf = some cb →
        (cb.call pack.dnid pack.body pack.context).toOption.isSome := by
      simp only [threePackets, List.forall_mem_cons]
      refine ⟨?_, ?_, ?_, nofun⟩ <;> rintro ⟨⟩ <;> decide
    intro pack hpack cb hcb
    have hcall := hcalls pack hpack cb hcb
    cases h : cb.call pack.dnid pack.body pack.context with
    | error e =>
      rw [h] at hcall
      cases hcall
    | ok r => exact ⟨r, rfl⟩
  all_goals simp [threePackets, SPacket.body, MessageBase.toByte]

/-- A fight message, a category that is declared and has no handler, ends the game thread, and the
chat message behind it is never handed over. -/
theorem fight_message_crashes :
    ∃ acts s, pushes acts = [⟨7, some [0x67, 0], none⟩, ⟨8, some [0x66, 0], none⟩] ∧
      run (gameStep fun _ _ _ _ => .ok ()) (.start initServer.callBackMap) acts = some s ∧
      s.pc = .crashed .badFunctionCall ∧
      s.dispatcher.msgQueue = [⟨8, some [0x66, 0], none⟩] ∧ s.handled = [] ∧
      ∀ a, gameStep (fun _ _ _ _ => .ok ()) s a = none :=
  ⟨[.push ⟨7, some [0x67, 0], none⟩, .push ⟨8, some [0x66, 0], none⟩, .enter 0, .clock 0, .empty,
    .pop, .handle], _, rfl, rfl, rfl, rfl, rfl, fun a => by cases a <;> rfl⟩

end Survival

end PetsServer
