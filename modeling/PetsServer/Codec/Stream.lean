import PetsServer.Codec.Frames

/-!
# A connection's byte stream

The bytes a client sends reach `onMessage` in chunks, each appended to the bytes the previous call
left in the connection's input buffer. `Session` is what a sequence of calls has led to, and
`Session.feed` one more call. A session refines the receiver of the framing rule (`feeds_spec`), and
from the laws of the rule come the properties of the stream decoder: it does not depend on the
chunks (`onMessage_chunking`), and no byte is lost, duplicated or invented
(`onMessage_conserves_bytes`).
-/

namespace PetsServer

open Foundations

/-- What the calls of `onMessage` on one connection have led to: the input buffer, the packets
pushed, and whether `conn->shutdown()` has been called. -/
structure Session where
  buf : Buffer
  pushed : List SPacket
  shutdown : Bool

namespace Session

/-- A new connection. -/
def start : Session := ⟨.new, [], false⟩

/-- A chunk arrives: it is appended to the input buffer, and `onMessage` is called. -/
def feed (context : Context) (s : Session) (chunk : List Byte) : Except Fault Session := do
  let buf ← s.buf.append chunk
  let r ← onMessage context buf
  .ok ⟨r.buf, s.pushed ++ r.pushed, s.shutdown || r.shutdown⟩

/-- Several chunks arrive, one after another. -/
def feeds (context : Context) (s : Session) (chunks : List (List Byte)) : Except Fault Session :=
  chunks.foldlM (feed context) s

/-- The messages in the packets pushed. -/
def bodies (s : Session) : List (List Byte) := s.pushed.map SPacket.body

/-- The bytes received and not yet taken off. -/
def unread (s : Session) : List Byte := s.buf.content

/-- The session as a receiver of frames. -/
def receiver (s : Session) : Framing.Receiver Byte (List Byte) := ⟨s.bodies, s.unread, s.shutdown⟩

@[simp] theorem receiver_start : start.receiver = .start := rfl

/-- A call of `onMessage` refines the receiver's step; the packets carry the connection's number. -/
theorem feed_spec (conn : Established) (s : Session) (chunk : List Byte) :
    ∃ s', s.feed conn.context chunk = .ok s' ∧ s'.receiver = frames.receive s.receiver chunk ∧
      ∃ bodies : List (List Byte), s'.pushed = s.pushed ++ bodies.map conn.packet := by
  obtain ⟨buf, hbuf, hc, -⟩ := s.buf.append_spec chunk
  obtain ⟨r, hr, hpushed, hrest, hshut⟩ := onMessage_spec conn buf
  refine ⟨⟨r.buf, s.pushed ++ r.pushed, s.shutdown || r.shutdown⟩, ?_, ?_, ?_⟩
  · simp only [feed, hbuf, hr, bind, Except.bind]
  · simp [receiver, bodies, unread, Framing.receive, hpushed, hrest, hshut, hc, Function.comp_def]
  · exact ⟨_, by rw [hpushed]⟩

/-- **The decoder refines the framing rule's receiver**, over any number of calls. -/
theorem feeds_spec (conn : Established) (s : Session) (chunks : List (List Byte)) :
    ∃ s', s.feeds conn.context chunks = .ok s' ∧
      s'.receiver = chunks.foldl frames.receive s.receiver ∧
      ∃ bodies : List (List Byte), s'.pushed = s.pushed ++ bodies.map conn.packet := by
  induction chunks generalizing s with
  | nil => exact ⟨s, rfl, rfl, [], (List.append_nil _).symm⟩
  | cons c cs ih =>
    obtain ⟨s₁, h₁, hr₁, bodies₁, hp₁⟩ := s.feed_spec conn c
    obtain ⟨s₂, h₂, hr₂, bodies₂, hp₂⟩ := ih s₁
    refine ⟨s₂, ?_, ?_, bodies₁ ++ bodies₂, ?_⟩
    · rw [feeds, List.foldlM_cons, h₁]
      exact h₂
    · rw [hr₂, hr₁, List.foldl_cons]
    · rw [hp₂, hp₁, List.append_assoc, List.map_append]

/-- A new connection that has got some chunks is as if it had got all the bytes at once; every
packet carries the connection's number. -/
theorem feeds_start (conn : Established) (chunks : List (List Byte)) :
    ∃ s, start.feeds conn.context chunks = .ok s ∧
      s.receiver = frames.received chunks.flatten ∧ s.pushed = s.bodies.map conn.packet := by
  obtain ⟨s, hs, hr, bodies, hp⟩ := start.feeds_spec conn chunks
  refine ⟨s, hs, ?_, ?_⟩
  · rw [hr, receiver_start, frames.foldl_receive frames_front_nil]
  · have hpushed : s.pushed = bodies.map conn.packet := hp
    have hbodies : s.bodies = bodies := by
      rw [Session.bodies, hpushed, List.map_map]
      exact List.map_id _
    rw [hbodies, hpushed]

theorem unread_of_feeds {conn : Established} {chunks : List (List Byte)} {s : Session}
    (hs : start.feeds conn.context chunks = .ok s) :
    s.unread = (frames.decode chunks.flatten).2 := by
  obtain ⟨s', hs', hr, -⟩ := feeds_start conn chunks
  obtain rfl := Except.ok.inj (hs.symm.trans hs')
  exact congrArg Framing.Receiver.unread hr

end Session

/-- **Chunking independence.** The messages pushed, the bytes left unread and whether the connection
has been shut down depend only on the concatenation of the chunks. Once a complete header with a
negative length or a length above 65536 is at the front, no later bytes cause another packet to be
pushed. -/
theorem onMessage_chunking :
    (∃ f : List Byte → List (List Byte) × List Byte × Bool,
      ∀ (conn : Established) (chunks : List (List Byte)), ∃ s,
        Session.start.feeds conn.context chunks = .ok s ∧
          (s.bodies, s.unread, s.shutdown) = f chunks.flatten) ∧
    ∀ (conn : Established) (s : Session), headMsgLen ≤ s.unread.length →
      65536 < headerInt s.unread ∨ headerInt s.unread < 0 →
      ∀ chunks : List (List Byte), ∃ s', s.feeds conn.context chunks = .ok s' ∧
        s'.bodies = s.bodies := by
  constructor
  · refine ⟨fun l => ((frames.received l).frames, (frames.received l).unread,
      (frames.received l).broken), fun conn chunks => ?_⟩
    obtain ⟨s, hs, hr, -⟩ := Session.feeds_start conn chunks
    refine ⟨s, hs, ?_⟩
    change _ = ((frames.received chunks.flatten).frames, _, _)
    rw [← hr]
    rfl
  · intro conn s hlen hbad chunks
    obtain ⟨s', hs', hr, -⟩ := s.feeds_spec conn chunks
    have hbroken : frames.front s.receiver.unread = .broken :=
      front_eq_broken_iff_headerInt.mpr ⟨hlen, hbad⟩
    exact ⟨s', hs', (congrArg Framing.Receiver.frames hr).trans
      (frames.foldl_receive_of_broken hbroken chunks)⟩

/-- **No byte is lost, duplicated or invented.** After any calls of `onMessage`, none of which fails
an assertion, overflows or throws, the bytes received are what `sendMsg` emits for the messages
pushed, followed by the unread bytes; and these are fewer than a header, or begin with a header
within the limit whose message is not complete, or begin with a header outside the limit. -/
theorem onMessage_conserves_bytes (conn : Established) (chunks : List (List Byte)) :
    ∃ s, Session.start.feeds conn.context chunks = .ok s ∧
      (∃ (payloads : List Payload) (sent : List (List Byte)), payloads.map Payload.data = s.bodies ∧
        payloads.mapM sendMsg = .ok sent ∧ chunks.flatten = sent.flatten ++ s.unread) ∧
      (s.unread.length < headMsgLen ∨
        (headMsgLen ≤ s.unread.length ∧ 0 ≤ headerInt s.unread ∧ headerInt s.unread ≤ 65536 ∧
          s.unread.length < headMsgLen + (headerInt s.unread).toInt) ∨
        (headMsgLen ≤ s.unread.length ∧
          (65536 < headerInt s.unread ∨ headerInt s.unread < 0))) := by
  obtain ⟨s, hs, hr, -⟩ := Session.feeds_start conn chunks
  obtain ⟨hsound, hvalid⟩ := frames.decode_sound chunks.flatten
  have hbodies : s.bodies = (frames.decode chunks.flatten).1 :=
    congrArg Framing.Receiver.frames hr
  have hunread := Session.unread_of_feeds hs
  have hsize : ∀ body ∈ s.bodies, body.length < 2 ^ 32 := by
    intro body hbody
    have hmax : body.length ≤ maxBody := hvalid body (hbodies ▸ hbody)
    simp only [maxBody] at hmax
    omega
  have hdata : (s.bodies.pmap Payload.mk hsize).map Payload.data = s.bodies := by
    rw [List.map_pmap, List.pmap_eq_map, List.map_id']
  refine ⟨s, hs, ⟨s.bodies.pmap Payload.mk hsize, _, hdata, mapM_sendMsg _, ?_⟩, ?_⟩
  · rw [← List.map_map, hdata, hbodies, hunread, ← List.flatMap_def]
    exact hsound
  · rw [hunread]
    cases hfront : frames.front (frames.decode chunks.flatten).2 with
    | more =>
      rcases headerInt_of_front_more hfront with h | h
      · exact Or.inl h
      · exact Or.inr (Or.inl h)
    | broken => exact Or.inr (Or.inr (front_eq_broken_iff_headerInt.mp hfront))
    | frame body rest => exact absurd hfront (frames.front_decode_ne_frame _ _ _)

/-- The frames of payloads sent in order: those before the first oversized one are found, and an
oversized one begins no frame. -/
theorem decode_payloads (payloads : List Payload) :
    (frames.decode (payloads.map (frame ∘ Payload.data)).flatten).1 =
        (payloads.takeWhile fun p => p.data.length ≤ maxBody).map Payload.data ∧
      (frames.isBroken (frames.decode (payloads.map (frame ∘ Payload.data)).flatten).2 = true ↔
        ∃ p ∈ payloads, maxBody < p.data.length) := by
  induction payloads with
  | nil => simp [frames.decode_of_more frames_front_nil, Framing.isBroken]
  | cons p ps ih =>
    rw [List.map_cons, List.flatten_cons, Function.comp_apply]
    by_cases hp : p.data.length ≤ maxBody
    · have hframe : frames.front (frame p.data ++ (ps.map (frame ∘ Payload.data)).flatten) =
          .frame p.data (ps.map (frame ∘ Payload.data)).flatten := frames.front_encode hp _
      rw [frames.decode_of_frame hframe]
      simp [ih.1, ih.2, hp, Nat.not_lt.mpr hp]
    · have hbroken : frames.front (frame p.data ++ (ps.map (frame ∘ Payload.data)).flatten) =
          .broken :=
        front_eq_broken_iff.mpr ⟨_, headerLength_frame p.length_lt _, Nat.not_le.mp hp⟩
      rw [frames.decode_of_broken hbroken]
      simp [frames.isBroken_iff.mpr hbroken, hp, Nat.not_le.mp hp]

/-- **The decoder inverts the encoder.** Of any payloads sent in order, the messages pushed are the
longest prefix of those within the limit, and the connection is shut down if and only if some
payload is above the limit. -/
theorem onMessage_sendMsg (conn : Established) (payloads : List Payload) :
    ∃ sent, payloads.mapM sendMsg = .ok sent ∧
      ∃ buf, Buffer.new.append sent.flatten = .ok buf ∧
        ∃ r, onMessage conn.context buf = .ok r ∧
          r.pushed.map SPacket.body =
            (payloads.takeWhile fun p => p.data.length ≤ 65536).map Payload.data ∧
          (r.shutdown = true ↔ ∃ p ∈ payloads, 65536 < p.data.length) := by
  obtain ⟨buf, hbuf, hc, -⟩ := Buffer.new.append_spec (payloads.map (frame ∘ Payload.data)).flatten
  obtain ⟨r, hr, hpushed, -, hshut⟩ := onMessage_spec conn buf
  rw [Buffer.content_new, List.nil_append] at hc
  rw [hc] at hpushed hshut
  obtain ⟨hframes, hbroken⟩ := decode_payloads payloads
  refine ⟨_, mapM_sendMsg payloads, buf, hbuf, r, hr, ?_, ?_⟩
  · rw [hpushed, hframes, List.map_map]
    exact List.map_id _
  · rw [hshut]
    exact hbroken

end PetsServer
