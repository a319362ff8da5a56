import PetsServer.Object.Manager
import PetsServer.Server.CallBacks
import Std.Data.ExtTreeMap

/-!
# The server

`PetsServer` from the outside: connections go up and down, bytes arrive on them, and the game thread
takes packets off the queue and calls the handlers. `serverStep` is one such event, and a run of the
server is a `run` of it from `Server.start`. Of a packet in the queue the model also keeps the
connection it was received on, which the source does not store.

The server knows its connections by numbers, `DNID`s, which `GreateDnid` makes of the time and a
random number. What `time` and `rand` return is arbitrary here: `srand` and the clock are not part
of the model, and a `Reading` is what one pass of the loop in `GreateDnid` reads.
-/

namespace PetsServer

open Foundations

/-! ## Connections and their numbers -/

/-- The identity of a TCP connection. -/
abbrev ConnId := ℕ

/-- `PetsServer::Connection` -/
structure Connection where
  conn : ConnId
  ttl : Int32
  deriving DecidableEq, Repr

/-- `PetsServer::ConnectionMap` -/
abbrev ConnectionMap := Std.ExtTreeMap Dnid Connection

/-- What `time(NULL)` and `rand()` return; `RAND_MAX` is 2147483647. -/
structure Reading where
  time : Int64
  rand : Fin (2 ^ 31)
  deriving DecidableEq, Repr

/-- The number composed of a reading: `(time(NULL)<< 16)| (rand()%0XFFFF)`, truncated. -/
def Reading.dnid (r : Reading) : Dnid :=
  ((r.time <<< 16) ||| Int64.ofNat (r.rand.val % 0xFFFF)).toUInt64.toUInt32

/-- `PetsServer::GreateDnid`: the number, and the readings that are not needed for it. Without
enough readings the loop is still running. -/
def greateDnid (connections : ConnectionMap) : List Reading → Option (Dnid × List Reading)
  | [] => none
  | r :: readings =>
    if r.dnid ∈ connections then greateDnid connections readings else some (r.dnid, readings)

/-- The number is composed of the last reading, and the only one of them that is free. -/
theorem greateDnid_eq_some {connections : ConnectionMap} {readings rest : List Reading}
    {dnid : Dnid} (h : greateDnid connections readings = some (dnid, rest)) :
    ∃ pre r, readings = pre ++ r :: rest ∧ (∀ q ∈ pre, q.dnid ∈ connections) ∧ r.dnid = dnid ∧
      dnid ∉ connections := by
  induction readings with
  | nil => cases h
  | cons r readings ih =>
    unfold greateDnid at h
    split at h
    · rename_i hmem
      obtain ⟨pre, q, rfl, hpre, hq, hnew⟩ := ih h
      exact ⟨r :: pre, q, rfl, List.forall_mem_cons.mpr ⟨hmem, hpre⟩, hq, hnew⟩
    · rename_i hmem
      cases h
      exact ⟨[], r, rfl, fun _ hq => absurd hq List.not_mem_nil, rfl, hmem⟩

/-! ## The server -/

/-- The life of a connection: `onConnection` is called when it goes up and when it goes down. -/
inductive ConnState
  | fresh
  | up (est : Established) (buf : Buffer)
  | down

/-- A packet in the queue, and the connection it was received on. -/
structure Queued where
  origin : ConnId
  pack : SPacket
  deriving DecidableEq, Repr

/-- `PetsServer`, with the dispatcher and the connections of the network library. -/
structure Server where
  connections : ConnectionMap
  conns : ConnId → ConnState
  callBackMap : CallBackMap CallBack
  msgQueue : List Queued
  petsManager : CObjectManager
  crashed : Option Fault

namespace Server

/-- After `InitServer`. -/
def start : Server :=
  ⟨∅, fun _ => .fresh, initServer.callBackMap, [], .ofMap 0 ∅, none⟩

/-- The connection is up, and has the number in the connections map. -/
def Has (s : Server) (c : ConnId) (dnid : Dnid) : Prop :=
  (∃ est buf, s.conns c = .up est buf) ∧ ∃ ttl, s.connections[dnid]? = some ⟨c, ttl⟩

/-- The state of a connection changes. -/
def setConn (s : Server) (c : ConnId) (state : ConnState) : Server :=
  { s with conns := Function.update s.conns c state }

/-- `PetsServer::onConnection`, for a connection that is up. -/
def onConnectionUp (s : Server) (c : ConnId) (dnid : Dnid) : Server :=
  let scon : Connection := ⟨c, 3⟩
  { s.setConn c (.up (.ofDnid dnid) .new) with connections := s.connections.insert dnid scon }

/-- `PetsServer::onConnection`, for a connection that is down. -/
def onConnectionDown (s : Server) (c : ConnId) (est : Established) : Server :=
  let s := s.setConn c .down
  match est.context with
  | .pet pet =>
    { s with
      petsManager := (s.petsManager.realseObject pet.getDnid).1
      connections := s.connections.erase pet.getDnid }
  | .dnid dnid => { s with connections := s.connections.erase dnid }
  | .empty => { s with crashed := some .badAnyCast }

/-- The bytes that arrive are appended to the connection's buffer, and `onMessage` is called. -/
def onMessage (s : Server) (c : ConnId) (est : Established) (buf : Buffer) (chunk : List Byte) :
    Server :=
  match buf.append chunk >>= PetsServer.onMessage est.context with
  | .ok r => { s.setConn c (.up est r.buf) with msgQueue := s.msgQueue ++ r.pushed.map (⟨c, ·⟩) }
  | .error e => { s with crashed := some e }

/-- `DispatchMsg` deals with the packet at the front of the queue. -/
def dispatchMsg (s : Server) (pack : SPacket) (msgQueue : List Queued) : Server :=
  let (callBackMap, r) := dispatchPack CallBack.call s.callBackMap pack
  let s := { s with callBackMap, msgQueue }
  match r with
  | .ok _ => s
  | .error e => { s with crashed := some e }

end Server

/-- What happens to the server. A connection that goes up comes with what `GreateDnid` reads. -/
inductive ServerAction
  | up (c : ConnId) (readings : List Reading)
  | down (c : ConnId)
  | recv (c : ConnId) (chunk : List Byte)
  | dispatch
  /-- `m_petsManager.Run()` at the end of a frame. -/
  | petsRun
  deriving DecidableEq, Repr

/-- One event. A crash ends the process. -/
def serverStep (s : Server) (a : ServerAction) : Option Server :=
  match s.crashed with
  | some _ => none
  | none =>
    match a with
    | .up c readings =>
      match s.conns c, greateDnid s.connections readings with
      | .fresh, some (dnid, []) => some (s.onConnectionUp c dnid)
      | _, _ => none
    | .down c =>
      match s.conns c with
      | .up est _ => some (s.onConnectionDown c est)
      | _ => none
    | .recv c chunk =>
      match s.conns c with
      | .up est buf => some (s.onMessage c est buf chunk)
      | _ => none
    | .dispatch =>
      match s.msgQueue with
      | q :: queue => some (s.dispatchMsg q.pack queue)
      | [] => none
    | .petsRun => some { s with petsManager := s.petsManager.run }

/-- What an event does, case by case. -/
inductive ServerStep (s : Server) : ServerAction → Server → Prop
  | up (c : ConnId) (pre : List Reading) (r : Reading) : s.conns c = .fresh →
      (∀ q ∈ pre, q.dnid ∈ s.connections) → r.dnid ∉ s.connections →
      ServerStep s (.up c (pre ++ [r])) (s.onConnectionUp c r.dnid)
  | down (c : ConnId) (est : Established) (buf : Buffer) : s.conns c = .up est buf →
      ServerStep s (.down c) (s.onConnectionDown c est)
  | recv (c : ConnId) (est : Established) (buf : Buffer) (chunk : List Byte) :
      s.conns c = .up est buf → ServerStep s (.recv c chunk) (s.onMessage c est buf chunk)
  | dispatch (q : Queued) (queue : List Queued) : s.msgQueue = q :: queue →
      ServerStep s .dispatch (s.dispatchMsg q.pack queue)
  | petsRun : ServerStep s .petsRun { s with petsManager := s.petsManager.run }

theorem serverStep_cases {s t : Server} {a : ServerAction} (h : serverStep s a = some t) :
    ServerStep s a t := by
  unfold serverStep at h
  split at h
  · cases h
  cases a with
  | up c readings =>
    simp only at h
    split at h <;> cases h
    rename_i hfresh hdnid
    obtain ⟨pre, r, rfl, hpre, rfl, hnew⟩ := greateDnid_eq_some hdnid
    exact .up c pre r hfresh hpre hnew
  | down c =>
    simp only at h
    split at h <;> cases h
    rename_i hup
    exact .down c _ _ hup
  | recv c chunk =>
    simp only at h
    split at h <;> cases h
    rename_i hup
    exact .recv c _ _ chunk hup
  | dispatch =>
    simp only at h
    split at h <;> cases h
    rename_i hq
    exact .dispatch _ _ hq
  | petsRun =>
    cases h
    exact .petsRun

/-! ## One spec lemma for each function -/

namespace Server

/-- A connection that goes down takes its own entry out of the map. -/
theorem onConnectionDown_spec (s : Server) (c : ConnId) (est : Established) :
    ∃ pets, s.onConnectionDown c est = { s.setConn c .down with
      petsManager := pets, connections := s.connections.erase est.dnid } := by
  have hcast := est.cast_eq
  unfold onConnectionDown
  cases hctx : est.context with
  | empty =>
    rw [hctx] at hcast
    cases hcast
  | dnid d =>
    rw [hctx] at hcast
    injection hcast with hcast
    injection hcast with hd
    exact ⟨s.petsManager, by rw [← hd]; rfl⟩
  | pet p =>
    rw [hctx] at hcast
    injection hcast with hcast
    injection hcast with hd
    exact ⟨_, by rw [← hd]; rfl⟩

/-- Bytes that arrive lead to packets that carry the connection's number: one for each frame that is
now complete. -/
theorem onMessage_spec (s : Server) (c : ConnId) (est : Established) (buf : Buffer)
    (chunk : List Byte) : ∃ buf' : Buffer,
    s.onMessage c est buf chunk = { s.setConn c (.up est buf') with
      msgQueue := s.msgQueue ++
        (frames.decode (buf.content ++ chunk)).1.map fun body => ⟨c, est.packet body⟩ } := by
  obtain ⟨buf₁, hbuf, hcontent, -⟩ := buf.append_spec chunk
  obtain ⟨r, hr, hpushed, -, -⟩ := PetsServer.onMessage_spec est buf₁
  rw [hcontent] at hpushed
  refine ⟨r.buf, ?_⟩
  simp only [onMessage, hbuf, bind, Except.bind, hr, hpushed, List.map_map]
  rfl

/-- The first frame on a connection. -/
theorem onMessage_new (s : Server) (c : ConnId) (est : Established) {body : List Byte}
    (hbody : body.length ≤ maxBody) : ∃ buf' : Buffer,
    s.onMessage c est .new (frame body) = { s.setConn c (.up est buf') with
      msgQueue := s.msgQueue ++ [⟨c, est.packet body⟩] } := by
  obtain ⟨buf', heq⟩ := s.onMessage_spec c est .new (frame body)
  have hdecode : frames.decode ([body].flatMap frame ++ []) = _ :=
    frames.decode_encode (fun b hb => by rwa [List.mem_singleton.mp hb]) []
  rw [List.append_nil, List.flatMap_singleton, frames.decode_of_more frames_front_nil] at hdecode
  rw [Buffer.content_new, List.nil_append, hdecode] at heq
  exact ⟨buf', heq⟩

/-- The packet at the front is taken off the queue. -/
theorem dispatchMsg_spec (s : Server) (pack : SPacket) (queue : List Queued) :
    ∃ m e, s.dispatchMsg pack queue =
      { s with callBackMap := m, msgQueue := queue, crashed := e } := by
  unfold dispatchMsg
  simp only
  split
  · exact ⟨_, _, rfl⟩
  · exact ⟨_, _, rfl⟩

end Server

end PetsServer
