import PetsServer.Server.Server

/-!
# Who a packet is attributed to

A handler gets a packet's number and no more, so it takes the packet for one of the connection that
has the number when the handler is called. `packets_attributed`: as long as `GreateDnid` makes no
number that a packet in the queue carries, no other live connection has the number. A number that a
packet in the queue carries can be free, since the packet's connection can have gone down:
`packet_of_another_connection`.
-/

namespace PetsServer

open Foundations

namespace Server

/-- The connections that are up have their entries, and the number of a packet in the queue is that
of no other connection than the packet's. -/
structure Attributed (s : Server) : Prop where
  entry : ∀ c est buf, s.conns c = .up est buf → s.connections[est.dnid]? = some ⟨c, 3⟩
  queued : ∀ q ∈ s.msgQueue, ∀ e, s.connections[q.pack.dnid]? = some e → e.conn = q.origin

/-- The numbers composed of what `time` and `rand` return while a connection goes up, if they are
free, are carried by no packet in the queue. -/
def NumbersUnused (s : Server) : ServerAction → Prop
  | .up _ readings => ∀ r ∈ readings, r.dnid ∉ s.connections →
      ∀ q ∈ s.msgQueue, q.pack.dnid ≠ r.dnid
  | _ => True

theorem attributed_start : Attributed start :=
  ⟨fun _ _ _ h => ConnState.noConfusion h, fun _ h => absurd h List.not_mem_nil⟩

theorem setConn_conns_eq_up {s : Server} {c c' : ConnId} {state : ConnState} {est : Established}
    {buf : Buffer} (h : (s.setConn c state).conns c' = .up est buf) :
    (c' = c ∧ state = .up est buf) ∨ (c' ≠ c ∧ s.conns c' = .up est buf) := by
  change Function.update s.conns c state c' = _ at h
  by_cases hc : c' = c
  · subst hc
    exact Or.inl ⟨rfl, by rwa [Function.update_self] at h⟩
  · exact Or.inr ⟨hc, by rwa [Function.update_of_ne hc] at h⟩

/-- Two connections that are up have different numbers. -/
theorem Attributed.dnid_ne {s : Server} (hs : s.Attributed) {c c' : ConnId} {est est' : Established}
    {buf buf' : Buffer} (h : s.conns c = .up est buf) (h' : s.conns c' = .up est' buf')
    (hne : c' ≠ c) : est.dnid ≠ est'.dnid := by
  intro heq
  have he := hs.entry c est buf h
  rw [heq, hs.entry c' est' buf' h'] at he
  injection he with he
  injection he with he
  exact hne he

theorem Attributed.up {s : Server} (hs : s.Attributed) {c : ConnId} {dnid : Dnid}
    (hnew : dnid ∉ s.connections) (hunused : ∀ q ∈ s.msgQueue, q.pack.dnid ≠ dnid) :
    (s.onConnectionUp c dnid).Attributed := by
  constructor
  · intro c' est buf h
    change (s.connections.insert dnid _)[est.dnid]? = _
    simp only [Std.ExtTreeMap.getElem?_insert, Std.LawfulEqCmp.compare_eq_iff_eq]
    rcases setConn_conns_eq_up h with ⟨rfl, hstate⟩ | ⟨-, hup⟩
    · injection hstate with hest
      rw [if_pos (by rw [← hest]; rfl)]
    · have he := hs.entry c' est buf hup
      refine (if_neg ?_).trans he
      rintro rfl
      exact hnew (Std.ExtTreeMap.mem_iff_isSome_getElem?.mpr (by rw [he]; rfl))
  · intro q hq e he
    change (s.connections.insert dnid _)[q.pack.dnid]? = _ at he
    simp only [Std.ExtTreeMap.getElem?_insert, Std.LawfulEqCmp.compare_eq_iff_eq] at he
    rw [if_neg (hunused q hq).symm] at he
    exact hs.queued q hq e he

theorem Attributed.down {s : Server} (hs : s.Attributed) {c : ConnId} {est : Established}
    {buf : Buffer} (hup : s.conns c = .up est buf) : (s.onConnectionDown c est).Attributed := by
  obtain ⟨pets, heq⟩ := s.onConnectionDown_spec c est
  rw [heq]
  constructor
  · intro c' est' buf' h
    rcases setConn_conns_eq_up h with ⟨-, hstate⟩ | ⟨hne, hup'⟩
    · cases hstate
    · simp only [Std.ExtTreeMap.getElem?_erase, Std.LawfulEqCmp.compare_eq_iff_eq]
      rw [if_neg (hs.dnid_ne hup hup' hne)]
      exact hs.entry c' est' buf' hup'
  · intro q hq e he
    simp only [Std.ExtTreeMap.getElem?_erase] at he
    split at he
    · cases he
    · exact hs.queued q hq e he

theorem Attributed.recv {s : Server} (hs : s.Attributed) {c : ConnId} {est : Established}
    {buf : Buffer} (hup : s.conns c = .up est buf) (chunk : List Byte) :
    (s.onMessage c est buf chunk).Attributed := by
  obtain ⟨buf', heq⟩ := s.onMessage_spec c est buf chunk
  rw [heq]
  constructor
  · intro c' est' buf'' h
    rcases setConn_conns_eq_up h with ⟨rfl, hstate⟩ | ⟨-, hup'⟩
    · injection hstate with hest
      exact hest ▸ hs.entry c' est buf hup
    · exact hs.entry c' est' buf'' hup'
  · intro q hq e he
    rcases List.mem_append.mp hq with hq | hq
    · exact hs.queued q hq e he
    · obtain ⟨body, -, rfl⟩ := List.mem_map.mp hq
      -- the packet carries the number of its own connection, whose entry is in the map
      have hentry := hs.entry c est buf hup
      rw [show s.connections[est.dnid]? = some e from he] at hentry
      injection hentry with hentry
      rw [hentry]

/-- **The step lemma.** -/
theorem Attributed.step {s t : Server} {a : ServerAction} (hs : s.Attributed)
    (hunused : s.NumbersUnused a) (h : serverStep s a = some t) : t.Attributed := by
  cases serverStep_cases h with
  | up c pre r _ _ hnew => exact hs.up hnew (hunused r (by simp) hnew)
  | down c est buf hup => exact hs.down hup
  | recv c est buf chunk hup => exact hs.recv hup chunk
  | dispatch q queue hq =>
    obtain ⟨m, e, heq⟩ := s.dispatchMsg_spec q.pack queue
    rw [heq]
    exact ⟨hs.entry, fun p hp => hs.queued p (hq ▸ List.mem_cons_of_mem _ hp)⟩
  | petsRun => exact ⟨hs.entry, hs.queued⟩

end Server

/-- **A packet is not attributed to another connection**, in a run in which no connection that goes
up draws a number that a packet in the queue carries: when the packet at the front of the queue is
handed to its handler, no connection but the one it was received on is up and has its number. -/
theorem packets_attributed (acts : List ServerAction) (s : Server)
    (hunused : Meets serverStep Server.NumbersUnused .start acts)
    (hrun : run serverStep .start acts = some s) (q : Queued) (queue : List Queued)
    (hq : s.msgQueue = q :: queue) (c : ConnId) (hc : c ≠ q.origin) : ¬ s.Has c q.pack.dnid := by
  have hs : s.Attributed := run_invariant_of_meets Server.Attributed
    (fun _ _ _ hs ha ht => hs.step ha ht) Server.attributed_start hunused hrun
  rintro ⟨-, ttl, hget⟩
  exact hc (hs.queued q (hq ▸ List.mem_cons_self) _ hget)

/-- A chat message. -/
def chatBody : List Byte := [0x66, 0]

/-- The server with one connection, and a packet of it in the queue. -/
def oneQueued (r : Reading) (buf : Buffer) : Server :=
  { (Server.start.onConnectionUp 0 r.dnid).setConn 0 (.up (.ofDnid r.dnid) buf) with
    msgQueue := [⟨0, (Established.ofDnid r.dnid).packet chatBody⟩] }

theorem exists_run_recv (r : Reading) : ∃ buf,
    run serverStep .start [.up 0 [r], .recv 0 (frame chatBody)] = some (oneQueued r buf) ∧
      Meets serverStep Server.NumbersUnused .start [.up 0 [r], .recv 0 (frame chatBody)] := by
  have hup : serverStep .start (.up 0 [r]) = some (Server.start.onConnectionUp 0 r.dnid) := by
    simp [serverStep, Server.start, greateDnid]
  have hbody : chatBody.length ≤ maxBody := by decide
  obtain ⟨buf, heq⟩ := (Server.start.onConnectionUp 0 r.dnid).onMessage_new 0 (.ofDnid r.dnid) hbody
  have hrecv : serverStep (Server.start.onConnectionUp 0 r.dnid) (.recv 0 (frame chatBody)) =
      some (oneQueued r buf) := by
    rw [show oneQueued r buf = _ from heq.symm]
    rfl
  have hrun : run serverStep .start [.up 0 [r]] = some _ := (run_singleton _ _).trans hup
  have hnil : Meets serverStep Server.NumbersUnused .start [] := meets_nil
  have hone : Meets serverStep Server.NumbersUnused .start [.up 0 [r]] :=
    hnil.snoc (run_nil _) fun _ _ _ _ hq => absurd hq List.not_mem_nil
  exact ⟨buf, run_snoc hrun hrecv, hone.snoc hrun trivial⟩

/-- Two connections that are up at the same time, and a message on one of them. -/
theorem packets_attributed_two :
    ∃ s, run serverStep .start [.up 0 [⟨1, 5⟩], .recv 0 (frame chatBody), .up 1 [⟨1, 5⟩, ⟨1, 6⟩]] =
        some s ∧ s.msgQueue.map Queued.origin = [0] ∧
      ∀ q queue, s.msgQueue = q :: queue → ¬ s.Has 1 q.pack.dnid := by
  obtain ⟨buf, hrecv, hmeets⟩ := exists_run_recv ⟨1, 5⟩
  have hup : serverStep (oneQueued ⟨1, 5⟩ buf) (.up 1 [⟨1, 5⟩, ⟨1, 6⟩]) =
      some ((oneQueued ⟨1, 5⟩ buf).onConnectionUp 1 (Reading.dnid ⟨1, 6⟩)) := rfl
  have hunused : (oneQueued ⟨1, 5⟩ buf).NumbersUnused (.up 1 [⟨1, 5⟩, ⟨1, 6⟩]) := by
    intro r hr hnew q hq
    obtain rfl := List.mem_singleton.mp hq
    rcases List.mem_pair.mp hr with rfl | rfl
    · exact absurd (by decide : Reading.dnid ⟨1, 5⟩ ∈
        (∅ : ConnectionMap).insert (Reading.dnid ⟨1, 5⟩) ⟨0, 3⟩) hnew
    · decide
  have hrun := run_snoc hrecv hup
  refine ⟨_, hrun, rfl, fun q queue hq =>
    packets_attributed _ _ (hmeets.snoc hrecv hunused) hrun q queue hq 1 ?_⟩
  obtain ⟨rfl, -⟩ := List.cons.inj hq
  decide

/-- A connection goes down with a packet in the queue, and the next one, in the same second, draws
the same number. -/
theorem packet_of_another_connection :
    ∃ s q queue, run serverStep .start [.up 0 [⟨1, 5⟩], .recv 0 (frame chatBody), .down 0,
      .up 1 [⟨1, 5⟩]] = some s ∧ s.msgQueue = q :: queue ∧ q.origin = 0 ∧ s.Has 1 q.pack.dnid ∧
      (dispatchPack CallBack.call s.callBackMap q.pack).2 = .ok (some (.chat .whisper)) := by
  obtain ⟨buf, hrecv, -⟩ := exists_run_recv ⟨1, 5⟩
  have hdown : serverStep (oneQueued ⟨1, 5⟩ buf) (.down 0) =
      some ((oneQueued ⟨1, 5⟩ buf).onConnectionDown 0 (.ofDnid (Reading.dnid ⟨1, 5⟩))) := rfl
  have hup : serverStep ((oneQueued ⟨1, 5⟩ buf).onConnectionDown 0 (.ofDnid (Reading.dnid ⟨1, 5⟩)))
      (.up 1 [⟨1, 5⟩]) = some (((oneQueued ⟨1, 5⟩ buf).onConnectionDown 0
        (.ofDnid (Reading.dnid ⟨1, 5⟩))).onConnectionUp 1 (Reading.dnid ⟨1, 5⟩)) := rfl
  have hrun := run_snoc (run_snoc hrecv hdown) hup
  exact ⟨_, _, _, hrun, rfl, rfl, ⟨⟨_, _, rfl⟩, 3, rfl⟩, rfl⟩

end PetsServer
