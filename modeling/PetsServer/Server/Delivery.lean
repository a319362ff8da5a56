import PetsServer.Dispatch.GameThread
import PetsServer.Server.Server

/-!
# From a client's bytes to the handlers

The server as the threads run it: the network threads, each in a pass of the loop in `onMessage` for
one of its connections, and the game thread in `DispatchMsg`, which meet at the dispatcher's queue.
`netStep` is one step of one of them; between two passes for a connection there can be steps of all
the others. What arrives on a connection, and when the threads go on, is arbitrary.

The main result is `delivered_in_order`: for each client, the messages handled, in hand and queued
are the messages that its bytes encode, once each and in order, whatever the chunks, the
interleaving and the clock.
-/

namespace PetsServer

open Foundations

variable {κ ρ : Type*}

/-- Where the network thread of a connection is. -/
inductive Link
  | fresh
  /-- Between two calls of `onMessage`. -/
  | idle (buf : Buffer)
  /-- Before the test of the loop in `onMessage`. -/
  | decoding (buf : Buffer)
  /-- Gone, with the input buffer that is destroyed. -/
  | down (buf : Buffer)

/-- The bytes received on a connection and not taken off. -/
def Link.unread : Link → List Byte
  | .fresh => []
  | .idle buf | .decoding buf | .down buf => buf.content

/-- No call of `onMessage` is under way. -/
def Link.AtRest : Link → Prop
  | .decoding _ => False
  | _ => True

/-- The connections and the game thread, with the bytes that have arrived on each connection and the
packets that have been pushed. -/
structure Network (κ : Type*) where
  links : ConnId → Link
  game : GameState κ
  arrived : ConnId → List Byte
  pushed : List Queued

namespace Network

/-- No connection is up; the callbacks of `m` are bound. -/
def start (m : CallBackMap κ) : Network κ := ⟨fun _ => .fresh, .start m, fun _ => [], []⟩

def setLink (s : Network κ) (c : ConnId) (link : Link) : Network κ :=
  { s with links := Function.update s.links c link }

@[simp] theorem links_setLink_self (s : Network κ) (c : ConnId) (link : Link) :
    (s.setLink c link).links c = link :=
  Function.update_self ..

theorem links_setLink_of_ne (s : Network κ) {c d : ConnId} (h : d ≠ c) (link : Link) :
    (s.setLink c link).links d = s.links d :=
  Function.update_of_ne h ..

/-- A fault in any thread ends the process. -/
def crash (s : Network κ) (e : Fault) : Network κ := { s with game.pc := .crashed e }

/-- `PushPack`, called on a network thread for the connection `c`. -/
def push (s : Network κ) (c : ConnId) (pack : SPacket) : Network κ :=
  { s with
    game.dispatcher := s.game.dispatcher.pushPack pack
    pushed := s.pushed ++ [⟨c, pack⟩] }

/-- Bytes arrive: they are appended to the input buffer, and `onMessage` is called. -/
def arrive (s : Network κ) (c : ConnId) (buf : Buffer) (chunk : List Byte) : Network κ :=
  match buf.append chunk with
  | .error e => s.crash e
  | .ok buf =>
    { s.setLink c (.decoding buf) with
      arrived := Function.update s.arrived c (s.arrived c ++ chunk) }

/-- A pass of the loop in `onMessage`. -/
def pass (conn : ConnId → Established) (s : Network κ) (c : ConnId) (buf : Buffer) : Network κ :=
  match onMessagePass (conn c).context ⟨buf, []⟩ with
  | .error e => s.crash e
  | .ok (.again s') =>
    s'.pushed.foldl (fun s pack => s.push c pack) (s.setLink c (.decoding s'.buf))
  | .ok (.leave r) => s.setLink c (.idle r.buf)

end Network

/-- The steps. `onMessage` is called on a connection between `up` and `down` only. -/
inductive NetAction
  | up (c : ConnId)
  | down (c : ConnId)
  | arrive (c : ConnId) (chunk : List Byte)
  | pass (c : ConnId)
  /-- The game thread goes on. -/
  | game (a : GameAction)
  deriving DecidableEq, Repr

/-- One step. `conn c` is the connection `c` after `onConnection`. A crash ends the process. -/
def netStep (conn : ConnId → Established) (invoke : Invoke κ ρ) (s : Network κ) (a : NetAction) :
    Option (Network κ) :=
  match s.game.pc, a with
  | .crashed _, _ => none
  | _, .up c =>
    match s.links c with
    | .fresh => some (s.setLink c (.idle .new))
    | _ => none
  | _, .down c =>
    match s.links c with
    | .idle buf => some (s.setLink c (.down buf))
    | _ => none
  | _, .arrive c chunk =>
    match s.links c with
    | .idle buf => some (s.arrive c buf chunk)
    | _ => none
  | _, .pass c =>
    match s.links c with
    | .decoding buf => some (s.pass conn c buf)
    | _ => none
  -- pushes come from the network threads only
  | _, .game (.push _) => none
  | _, .game a => (gameStep invoke s.game a).map fun game => { s with game }

/-- What a step can do, case by case. The network threads never fail. -/
inductive NetStep (conn : ConnId → Established) (invoke : Invoke κ ρ) (s : Network κ) :
    NetAction → Network κ → Prop
  | up (c : ConnId) : s.links c = .fresh →
      NetStep conn invoke s (.up c) (s.setLink c (.idle .new))
  | down (c : ConnId) (buf : Buffer) : s.links c = .idle buf →
      NetStep conn invoke s (.down c) (s.setLink c (.down buf))
  | arrive (c : ConnId) (chunk : List Byte) (buf buf' : Buffer) : s.links c = .idle buf →
      buf'.content = buf.content ++ chunk →
      NetStep conn invoke s (.arrive c chunk) { s.setLink c (.decoding buf') with
        arrived := Function.update s.arrived c (s.arrived c ++ chunk) }
  | take (c : ConnId) (buf buf' : Buffer) (body : List Byte) : s.links c = .decoding buf →
      frames.front buf.content = .frame body buf'.content →
      NetStep conn invoke s (.pass c)
        ((s.setLink c (.decoding buf')).push c ((conn c).packet body))
  | leave (c : ConnId) (buf : Buffer) : s.links c = .decoding buf →
      (∀ body rest, frames.front buf.content ≠ .frame body rest) →
      NetStep conn invoke s (.pass c) (s.setLink c (.idle buf))
  | game (a : GameAction) (game : GameState κ) : pushes [a] = [] →
      gameStep invoke s.game a = some game → NetStep conn invoke s (.game a) { s with game }

/-- A pass takes the message at the front and pushes its packet, or ends the call. -/
theorem Network.pass_cases {conn : ConnId → Established} {invoke : Invoke κ ρ} {s : Network κ}
    {c : ConnId} {buf : Buffer} (h : s.links c = .decoding buf) :
    NetStep conn invoke s (.pass c) (s.pass conn c buf) := by
  have hpass := onMessagePass_spec (conn c) ⟨buf, []⟩
  unfold Network.pass
  cases hfront : frames.front buf.content with
  | more =>
    simp only [hfront] at hpass
    rw [hpass]
    exact .leave c buf h (fun body rest hf => by rw [hfront] at hf; cases hf)
  | broken =>
    simp only [hfront] at hpass
    rw [hpass]
    exact .leave c buf h (fun body rest hf => by rw [hfront] at hf; cases hf)
  | frame body rest =>
    simp only [hfront] at hpass
    obtain ⟨s', hs', hrest, hpushed⟩ := hpass
    rw [hs']
    simp only [hpushed, List.nil_append, List.foldl_cons, List.foldl_nil]
    exact .take c buf s'.buf body h (by rw [hfront, hrest])

theorem netStep_cases {conn : ConnId → Established} {invoke : Invoke κ ρ} {s t : Network κ}
    {a : NetAction} (h : netStep conn invoke s a = some t) : NetStep conn invoke s a t := by
  unfold netStep at h
  split at h
  case h_1 => cases h
  case h_2 c _ =>
    split at h <;> cases h
    rename_i hlink
    exact .up c hlink
  case h_3 c _ =>
    split at h <;> cases h
    rename_i hlink
    exact .down c _ hlink
  case h_4 c chunk _ =>
    split at h <;> cases h
    rename_i buf hlink
    obtain ⟨buf', hbuf, hcontent, -⟩ := buf.append_spec chunk
    rw [Network.arrive, hbuf]
    exact .arrive c chunk buf buf' hlink hcontent
  case h_5 c _ =>
    split at h <;> cases h
    rename_i hlink
    exact Network.pass_cases hlink
  case h_6 => cases h
  case h_7 a hnopush _ =>
    obtain ⟨game, hgame, rfl⟩ := Option.map_eq_some_iff.mp h
    refine .game a game ?_ hgame
    cases a with
    | push pack => exact absurd rfl (hnopush pack)
    | _ => rfl

/-! ## What the connections have pushed -/

/-- The messages among the packets that were received on a connection. -/
def bodiesFrom (c : ConnId) (packets : List Queued) : List (List Byte) :=
  (packets.filter fun q => q.origin = c).map fun q => q.pack.body

theorem bodiesFrom_append (c : ConnId) (as bs : List Queued) :
    bodiesFrom c (as ++ bs) = bodiesFrom c as ++ bodiesFrom c bs := by
  rw [bodiesFrom, List.filter_append, List.map_append]
  rfl

@[simp] theorem bodiesFrom_singleton_self (c : ConnId) (pack : SPacket) :
    bodiesFrom c [⟨c, pack⟩] = [pack.body] := by
  simp [bodiesFrom]

@[simp] theorem bodiesFrom_singleton_of_ne {c d : ConnId} (h : d ≠ c) (pack : SPacket) :
    bodiesFrom c [⟨d, pack⟩] = [] := by
  simp [bodiesFrom, h]

/-- The invariant of one connection: the bytes that have arrived are the frames of the messages
pushed, then the unread bytes; at rest, no message is left in these. -/
structure LinkOk (link : Link) (arrived : List Byte) (bodies : List (List Byte)) : Prop where
  conserved : arrived = bodies.flatMap frame ++ link.unread
  valid : ∀ body ∈ bodies, body.length ≤ maxBody
  drained : link.AtRest → ∀ body rest, frames.front link.unread ≠ .frame body rest

namespace LinkOk

variable {link : Link} {arrived : List Byte} {bodies : List (List Byte)}

/-- The connection goes up or down, or a call of `onMessage` ends. -/
theorem goto (h : LinkOk link arrived bodies) {link' : Link} (hunread : link'.unread = link.unread)
    (hdrained : ∀ body rest, frames.front link.unread ≠ .frame body rest) :
    LinkOk link' arrived bodies where
  conserved := by rw [hunread]; exact h.conserved
  valid := h.valid
  drained _ := by rw [hunread]; exact hdrained

/-- Bytes arrive. -/
theorem arrive (h : LinkOk link arrived bodies) {buf : Buffer} {chunk : List Byte}
    (hbuf : buf.content = link.unread ++ chunk) :
    LinkOk (.decoding buf) (arrived ++ chunk) bodies where
  conserved := by
    show arrived ++ chunk = _ ++ buf.content
    rw [hbuf, h.conserved, List.append_assoc]
  valid := h.valid
  drained hrest := hrest.elim

/-- A message is taken off. -/
theorem take (h : LinkOk link arrived bodies) {buf : Buffer} {body : List Byte}
    (hfront : frames.front link.unread = .frame body buf.content) :
    LinkOk (.decoding buf) arrived (bodies ++ [body]) := by
  obtain ⟨hvalid, heq⟩ := frames.front_frame hfront
  refine ⟨?_, ?_, fun hrest => hrest.elim⟩
  · calc
      arrived = bodies.flatMap frame ++ link.unread := h.conserved
      _ = bodies.flatMap frame ++ (frame body ++ buf.content) := by rw [heq]; rfl
      _ = (bodies ++ [body]).flatMap frame ++ (Link.decoding buf).unread := by
        simp [Link.unread]
  · intro b hb
    rcases List.mem_append.mp hb with hb | hb
    · exact h.valid b hb
    · exact List.mem_singleton.mp hb ▸ hvalid

/-- What has been pushed, by the framing rule. -/
theorem decode_arrived (h : LinkOk link arrived bodies) :
    frames.decode arrived =
      (bodies ++ (frames.decode link.unread).1, (frames.decode link.unread).2) := by
  rw [h.conserved]
  exact frames.decode_encode h.valid _

theorem bodies_isPrefix (h : LinkOk link arrived bodies) :
    bodies <+: (frames.decode arrived).1 := by
  rw [h.decode_arrived]
  exact List.prefix_append _ _

/-- At rest everything that is complete has been pushed. -/
theorem bodies_eq (h : LinkOk link arrived bodies) (hrest : link.AtRest) :
    (frames.decode arrived).1 = bodies := by
  rw [h.decode_arrived]
  cases hfront : frames.front link.unread with
  | more => simp [frames.decode_of_more hfront]
  | broken => simp [frames.decode_of_broken hfront]
  | frame body rest => exact absurd hfront (h.drained hrest body rest)

end LinkOk

/-- The invariant of the connections: `LinkOk` for each, and every packet is the one that the
connection it was received on makes of its message. -/
structure Delivers (conn : ConnId → Established) (s : Network κ) : Prop where
  links : ∀ c, LinkOk (s.links c) (s.arrived c) (bodiesFrom c s.pushed)
  packets : ∀ q ∈ s.pushed, q.pack = (conn q.origin).packet q.pack.body

section Invariant

variable {conn : ConnId → Established} {invoke : Invoke κ ρ} {m : CallBackMap κ}

theorem delivers_start : Delivers conn (.start m) where
  links _ :=
    { conserved := rfl
      valid := fun _ h => absurd h List.not_mem_nil
      drained := fun _ _ _ h => by
        change frames.front [] = _ at h
        rw [frames_front_nil] at h
        cases h }
  packets _ h := absurd h List.not_mem_nil

/-- A step of the network thread of one connection. -/
theorem Delivers.of_update {s t : Network κ} {c : ConnId} (hs : Delivers conn s)
    (packs : List SPacket) (hlinks : ∀ d ≠ c, t.links d = s.links d)
    (harrived : ∀ d ≠ c, t.arrived d = s.arrived d)
    (hpushed : t.pushed = s.pushed ++ packs.map (⟨c, ·⟩))
    (hc : LinkOk (t.links c) (t.arrived c) (bodiesFrom c t.pushed))
    (hpacks : ∀ pack ∈ packs, pack = (conn c).packet pack.body) : Delivers conn t := by
  refine ⟨fun d => ?_, fun q hq => ?_⟩
  · by_cases hd : d = c
    · exact hd ▸ hc
    · have hnone : bodiesFrom d (packs.map (⟨c, ·⟩)) = [] := by
        simp [bodiesFrom, Ne.symm hd]
      rw [hlinks d hd, harrived d hd, hpushed, bodiesFrom_append, hnone, List.append_nil]
      exact hs.links d
  · rw [hpushed] at hq
    rcases List.mem_append.mp hq with hq | hq
    · exact hs.packets q hq
    · obtain ⟨pack, hpack, rfl⟩ := List.mem_map.mp hq
      exact hpacks pack hpack

/-- A connection goes up or down, or a call of `onMessage` ends. -/
theorem Delivers.goto {s : Network κ} {c : ConnId} {link link' : Link} (hs : Delivers conn s)
    (hlink : s.links c = link) (hunread : link'.unread = link.unread)
    (hdrained : ∀ body rest, frames.front link.unread ≠ .frame body rest) :
    Delivers conn (s.setLink c link') := by
  have hc := hs.links c
  rw [hlink] at hc
  refine hs.of_update [] (fun d hd => s.links_setLink_of_ne hd _) (fun _ _ => rfl)
    (List.append_nil _).symm ?_ (fun _ h => absurd h List.not_mem_nil)
  rw [s.links_setLink_self]
  exact hc.goto hunread hdrained

/-- **The step lemma**: no connection loses or invents a message. -/
theorem Delivers.step {s t : Network κ} {a : NetAction} (hs : Delivers conn s)
    (h : netStep conn invoke s a = some t) : Delivers conn t := by
  cases netStep_cases h with
  | up c hlink =>
    have hc := hs.links c
    rw [hlink] at hc
    exact hs.goto hlink Buffer.content_new (hc.drained trivial)
  | down c buf hlink =>
    have hc := hs.links c
    rw [hlink] at hc
    exact hs.goto hlink rfl (hc.drained trivial)
  | arrive c chunk buf buf' hlink hbuf =>
    have hc := hs.links c
    rw [hlink] at hc
    refine hs.of_update [] (fun d hd => s.links_setLink_of_ne hd _)
      (fun d hd => Function.update_of_ne hd ..) (List.append_nil _).symm ?_
      (fun _ h => absurd h List.not_mem_nil)
    simp only [Network.links_setLink_self, Function.update_self]
    exact hc.arrive hbuf
  | take c buf buf' body hlink hfront =>
    have hc := hs.links c
    rw [hlink] at hc
    refine hs.of_update [(conn c).packet body] (fun d hd => s.links_setLink_of_ne hd _)
      (fun _ _ => rfl) rfl ?_ (fun pack hpack => ?_)
    · rw [Network.push, bodiesFrom_append, bodiesFrom_singleton_self]
      show LinkOk ((s.setLink c _).links c) _ _
      rw [s.links_setLink_self]
      exact hc.take hfront
    · rw [List.mem_singleton.mp hpack, Established.body_packet]
  | leave c buf hlink hno => exact hs.goto hlink rfl hno
  | game a g hno hg => exact ⟨hs.links, hs.packets⟩

theorem delivers_of_run {acts : List NetAction} {s : Network κ}
    (h : run (netStep conn invoke) (.start m) acts = some s) : Delivers conn s :=
  run_invariant (Delivers conn) (fun _ _ _ hs => hs.step) delivers_start h

/-! ## What the game thread gets -/

/-- The process is running. -/
theorem not_crashed_of_netStep {s t : Network κ} {a : NetAction}
    (h : netStep conn invoke s a = some t) (e : Fault) : s.game.pc ≠ .crashed e := by
  intro hpc
  simp [netStep, hpc] at h

theorem gameStep_push {s : GameState κ} (h : ∀ e, s.pc ≠ .crashed e) (pack : SPacket) :
    gameStep invoke s (.push pack) = some { s with dispatcher := s.dispatcher.pushPack pack } := by
  unfold gameStep
  split
  case h_1 e hpc => exact absurd hpc (h e)
  all_goals grind

/-- The packets pushed only become more. -/
theorem pushed_prefix_of_netStep {s t : Network κ} {a : NetAction}
    (h : netStep conn invoke s a = some t) : s.pushed <+: t.pushed := by
  cases netStep_cases h with
  | take c buf buf' body => exact List.prefix_append _ _
  | _ => exact List.prefix_refl _

/-- **The queue between the threads**: the game thread sees the pushes of all network threads as the
pushes of one run of its own. -/
theorem fifo_of_netRun {acts : List NetAction} {s : Network κ}
    (hd : ∀ q ∈ s.pushed, Dispatchable invoke m q.pack)
    (h : run (netStep conn invoke) (.start m) acts = some s) :
    Fifo m (s.pushed.map Queued.pack) s.game := by
  refine run_invariant_of_last (fun s => Fifo m (s.pushed.map Queued.pack) s.game)
    (fun s => ∀ q ∈ s.pushed, Dispatchable invoke m q.pack) ?_ ?_ (fifo_start m) hd h
  · exact fun s a t ht hd q hq => hd q ((pushed_prefix_of_netStep ht).subset hq)
  · intro s a t hs hd ht
    have hd' : ∀ pack ∈ s.pushed.map Queued.pack, Dispatchable invoke m pack := by
      intro pack hpack
      obtain ⟨q, hq, rfl⟩ := List.mem_map.mp hpack
      exact hd q hq
    cases netStep_cases ht with
    | take c buf buf' body =>
      have hpush : gameStep invoke s.game (.push ((conn c).packet body)) = some _ :=
        gameStep_push (not_crashed_of_netStep ht) _
      have hstep := hs.step hd' hpush
      show Fifo m ((s.pushed ++ [_]).map Queued.pack) _
      rw [List.map_append]
      exact hstep
    | game a g hno hg =>
      have hstep := hs.step hd' hg
      rwa [hno, List.append_nil] at hstep
    | _ => exact hs

/-! ## Delivery -/

/-- The bytes that arrive on a connection. -/
def bytesOn (c : ConnId) (acts : List NetAction) : List Byte :=
  acts.flatMap fun
    | .arrive d chunk => if d = c then chunk else []
    | _ => []

theorem bytesOn_append (c : ConnId) (as bs : List NetAction) :
    bytesOn c (as ++ bs) = bytesOn c as ++ bytesOn c bs :=
  List.flatMap_append

theorem arrived_of_netStep {s t : Network κ} {a : NetAction} (h : netStep conn invoke s a = some t)
    (c : ConnId) : t.arrived c = s.arrived c ++ bytesOn c [a] := by
  cases netStep_cases h with
  | arrive d chunk =>
    by_cases hd : d = c
    · subst hd
      simp [bytesOn]
    · simp [bytesOn, hd, Function.update_of_ne (Ne.symm hd)]
  | _ => exact (List.append_nil _).symm

theorem arrived_of_run {acts : List NetAction} {s : Network κ}
    (h : run (netStep conn invoke) (.start m) acts = some s) (c : ConnId) :
    s.arrived c = bytesOn c acts := by
  refine run_induction (fun acts s => s.arrived c = bytesOn c acts) rfl ?_ acts s h
  intro pre s a t _ ih ht
  rw [arrived_of_netStep ht, ih, bytesOn_append]

/-- The packets pushed, split by where they are. -/
theorem exists_split_pushed {s : Network κ} (hf : Fifo m (s.pushed.map Queued.pack) s.game) :
    ∃ handled hand queue, s.pushed = handled ++ hand ++ queue ∧
      handled.map Queued.pack = s.game.handled ∧ hand.map Queued.pack = s.game.pc.hand ∧
      queue.map Queued.pack = s.game.dispatcher.msgQueue := by
  obtain ⟨done, queue, hpushed, hdone, hqueue⟩ := List.map_eq_append_iff.mp hf.conserved.symm
  obtain ⟨handled, hand, rfl, hhandled, hhand⟩ := List.map_eq_append_iff.mp hdone
  exact ⟨handled, hand, queue, hpushed, hhandled, hhand, hqueue⟩

/-- What arrives first is decoded first. -/
theorem decode_isPrefix {l r : List Byte} (h : l <+: r) :
    (frames.decode l).1 <+: (frames.decode r).1 := by
  obtain ⟨rest, rfl⟩ := h
  rw [frames.decode_append]
  exact List.prefix_append _ _

end Invariant

/-- **Delivery in order, from the client to the handler.** Every client sends some payloads through
the encoder, and what has arrived of its stream may be any part of it, in any chunks; the messages
within the limit, up to the first that is not, have a callback that returns. Then, whatever the
interleaving of the threads and the clock, nothing fails but the counter after 2147483647 packets in
one call; every packet handled, in hand or queued carries the number and the player's object of the
connection it came from; and the messages handled, in hand and queued from a client are, in this
order, the first of those it has sent, once each. They are all of them once the whole stream has
arrived and no call of `onMessage` is under way for the client. -/
theorem delivered_in_order (conn : ConnId → Established) (invoke : Invoke κ ρ) (m : CallBackMap κ)
    (sent : ConnId → List Payload) (streams : ConnId → List (List Byte))
    (hstreams : ∀ c, (sent c).mapM sendMsg = .ok (streams c))
    (hd : ∀ c, ∀ p ∈ (sent c).takeWhile (fun p => p.data.length ≤ 65536),
      Dispatchable invoke m ((conn c).packet p.data))
    (acts : List NetAction) (harrive : ∀ c, bytesOn c acts <+: (streams c).flatten) (s : Network κ)
    (h : run (netStep conn invoke) (.start m) acts = some s) :
    (∀ e, s.game.pc = .crashed e → e = .intOverflow) ∧
      ∃ handled hand queue : List Queued, handled.map Queued.pack = s.game.handled ∧
        hand.map Queued.pack = s.game.pc.hand ∧
        queue.map Queued.pack = s.game.dispatcher.msgQueue ∧
        (∀ q ∈ handled ++ hand ++ queue, q.pack = (conn q.origin).packet q.pack.body) ∧
        ∀ c, bodiesFrom c (handled ++ hand ++ queue) <+:
            ((sent c).takeWhile fun p => p.data.length ≤ 65536).map Payload.data ∧
          (bytesOn c acts = (streams c).flatten → (s.links c).AtRest →
            bodiesFrom c (handled ++ hand ++ queue) =
              ((sent c).takeWhile fun p => p.data.length ≤ 65536).map Payload.data) := by
  have hs := delivers_of_run h
  have harrived := arrived_of_run h
  have hdecode : ∀ c, (frames.decode (streams c).flatten).1 =
      ((sent c).takeWhile fun p => p.data.length ≤ 65536).map Payload.data := by
    intro c
    have hmap := (mapM_sendMsg (sent c)).symm.trans (hstreams c)
    rw [← Except.ok.inj hmap]
    exact (decode_payloads (sent c)).1
  have hbodies : ∀ c, bodiesFrom c s.pushed <+:
      ((sent c).takeWhile fun p => p.data.length ≤ 65536).map Payload.data := by
    intro c
    have hpre := (hs.links c).bodies_isPrefix
    rw [harrived c] at hpre
    rw [← hdecode c]
    exact hpre.trans (decode_isPrefix (harrive c))
  have hdisp : ∀ q ∈ s.pushed, Dispatchable invoke m q.pack := by
    intro q hq
    have hmem : q.pack.body ∈ bodiesFrom q.origin s.pushed :=
      List.mem_map.mpr ⟨q, List.mem_filter.mpr ⟨hq, decide_eq_true rfl⟩, rfl⟩
    obtain ⟨p, hp, heq⟩ := List.mem_map.mp ((hbodies q.origin).subset hmem)
    rw [hs.packets q hq, ← heq]
    exact hd q.origin p hp
  have hf := fifo_of_netRun hdisp h
  obtain ⟨handled, hand, queue, hpushed, hhandled, hhand, hqueue⟩ := exists_split_pushed hf
  refine ⟨fun e he => ?_, handled, hand, queue, hhandled, hhand, hqueue, ?_, fun c => ⟨?_, ?_⟩⟩
  · have hpc := hf.pcOk
    rwa [he] at hpc
  · rw [← hpushed]
    exact hs.packets
  · rw [← hpushed]
    exact hbodies c
  · intro hall hrest
    rw [← hpushed, ← (hs.links c).bodies_eq hrest, harrived c, hall, hdecode c]

set_option maxRecDepth 20000 in
/-- Two clients; the message of the first arrives in two chunks, around that of the second, which is
handled first. -/
theorem delivered_in_order_two_clients :
    ∃ (acts : List NetAction) (s : Network Unit),
      run (netStep (fun c => .ofDnid (UInt32.ofNat c)) fun _ _ _ _ => .ok ())
        (.start ((∅ : CallBackMap Unit).insert 0x64 (some ()))) acts = some s ∧
      s.game.handled = [⟨1, some [0x64], none⟩, ⟨0, some [0x64], none⟩] ∧
      ∃ handled hand queue : List Queued, handled.map Queued.pack = s.game.handled ∧
        ∀ c, bodiesFrom c (handled ++ hand ++ queue) <+: if c < 2 then [[0x64]] else [] := by
  obtain ⟨s, hrun, hhandled⟩ : ∃ s : Network Unit,
      run (netStep (fun c => .ofDnid (UInt32.ofNat c)) fun _ _ _ _ => .ok ())
        (.start ((∅ : CallBackMap Unit).insert 0x64 (some ())))
        [.up 0, .up 1, .arrive 0 [0, 0, 0], .pass 0, .arrive 1 [0, 0, 0, 1, 0x64], .pass 1,
          .arrive 0 [1, 0x64], .game (.enter 5), .pass 0, .pass 0, .game (.clock 5), .game .empty,
          .pass 1, .game .pop, .game .handle, .game (.clock 6), .game .empty, .game .pop,
          .game .handle] = some s ∧
      s.game.handled = [⟨1, some [0x64], none⟩, ⟨0, some [0x64], none⟩] := ⟨_, rfl, rfl⟩
  have hd := delivered_in_order (fun c => .ofDnid (UInt32.ofNat c))
    (fun _ _ _ _ => Except.ok ()) ((∅ : CallBackMap Unit).insert 0x64 (some ()))
    (fun c => if c < 2 then [⟨[0x64], Nat.lt_of_sub_eq_succ rfl⟩] else [])
    (fun c => if c < 2 then [[0, 0, 0, 1, 0x64]] else []) ?_ ?_ _ ?_ s hrun
  · obtain ⟨-, handled, hand, queue, heq, -, -, -, hbodies⟩ := hd
    refine ⟨_, s, hrun, hhandled, handled, hand, queue, heq, fun c => ?_⟩
    have hc := (hbodies c).1
    by_cases hlt : c < 2
    · simpa [hlt] using hc
    · simpa [hlt] using hc
  · intro c
    by_cases hlt : c < 2
    · simp only [hlt, if_true]
      rfl
    · simp only [hlt, if_false]
      rfl
  · intro c p hp
    by_cases hlt : c < 2
    · simp only [hlt, if_true] at hp
      obtain rfl := List.mem_singleton.mp (List.takeWhile_prefix _ |>.subset hp)
      exact ⟨0x64, [], (), (), rfl, CallBackMap.binds_insert_self _ _ _, rfl⟩
    · simp [hlt] at hp
  · intro c
    match c with
    | 0 => exact List.prefix_refl _
    | 1 => exact List.prefix_refl _
    | c + 2 => exact List.nil_prefix

end PetsServer
