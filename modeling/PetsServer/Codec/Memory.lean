import Mathlib.Data.List.Induction
import PetsServer.Codec.Backlog

/-!
# The memory of a connection

The vector behind a connection's input buffer never shrinks. What makes it grow is a chunk that does
not fit behind the unread bytes, and then it becomes at most as long as these and twice the chunk
(`Buffer.length_append_le`); taking messages off leaves it as it is (`onMessage_keeps_length`). So a
client that keeps to the protocol cannot make the server hold more than the longest frame and two
chunks for it, and no client more than twice what it has sent (`memory_bounded`).
-/

namespace PetsServer

open Foundations

namespace Buffer

/-- The bytes allocated. -/
def allocated (b : Buffer) : ℕ := b.buffer.length

@[simp] theorem allocated_new : new.allocated = cheapPrepend + initialSize := by
  simp [allocated, new]

theorem allocated_retrieve {b b' : Buffer} {len : ℕ} (h : b.retrieve len = .ok b') :
    b'.allocated = b.allocated := by
  unfold retrieve at h
  split at h
  · split at h <;> cases h <;> rfl
  · cases h

/-- Making space grows the vector by no more than what is needed behind the readable bytes, and what
lies unused in front of them. -/
theorem allocated_makeSpace {b b' : Buffer} {len : ℕ} {h : b.writableBytes < len}
    (hb : b.makeSpace len h = .ok b') :
    b'.allocated ≤ max b.allocated (b.readableBytes + 2 * len + cheapPrepend) := by
  have hr := b.reader_le
  have hw := b.writer_le
  unfold makeSpace at hb
  split at hb
  · rename_i hspace
    cases hb
    simp only [allocated, length_resize, writableBytes, prependableBytes, readableBytes] at hspace ⊢
    omega
  · split at hb
    · rename_i hreader
      cases hb
      have hlen := length_overwrite (b.readable_le_buffer hreader)
      exact Nat.le_trans (Nat.le_of_eq hlen) (Nat.le_max_left _ _)
    · cases hb

theorem allocated_ensureWritableBytes {b b' : Buffer} {len : ℕ}
    (h : b.ensureWritableBytes len = .ok b') :
    b'.allocated ≤ max b.allocated (b.readableBytes + 2 * len + cheapPrepend) := by
  unfold ensureWritableBytes at h
  by_cases hspace : b.writableBytes < len
  · obtain ⟨b₁, hb₁, -, hlen, -⟩ := makeSpace_spec hspace
    simp only [hspace, dif_pos, hb₁, bind, Except.bind, if_pos hlen, Except.ok.injEq] at h
    exact h ▸ allocated_makeSpace hb₁
  · simp only [hspace, dif_neg, not_false_eq_true, bind, Except.bind,
      if_pos (Nat.not_lt.mp hspace), Except.ok.injEq] at h
    exact h ▸ Nat.le_max_left _ _

/-- **Growth.** -/
theorem allocated_append {b b' : Buffer} {data : List Byte} (h : b.append data = .ok b') :
    b'.allocated ≤ max b.allocated (b.readableBytes + 2 * data.length + cheapPrepend) := by
  obtain ⟨b₁, hb₁, -, hlen, -⟩ := b.ensureWritableBytes_spec data.length
  have hle := allocated_ensureWritableBytes hb₁
  have hw := b₁.writer_le
  simp only [append, hb₁, bind, Except.bind, dif_pos hlen, Except.ok.injEq] at h
  subst h
  have hcopy : (overwrite b₁.buffer b₁.writerIndex data).length = b₁.buffer.length := by
    refine length_overwrite ?_
    simp only [writableBytes] at hlen
    omega
  exact Nat.le_trans (Nat.le_of_eq hcopy) hle

end Buffer

theorem allocated_takeMessage {context : Context} {s s' : Decoding} {len : Int32}
    (h : takeMessage context s len = .ok s') : s'.buf.allocated = s.buf.allocated := by
  obtain ⟨b₁, hb₁, h⟩ := except_bind_eq_ok.mp h
  obtain ⟨⟨dnid, pet⟩, -, h⟩ := except_bind_eq_ok.mp h
  obtain ⟨b₂, hb₂, h⟩ := except_bind_eq_ok.mp h
  cases h
  exact (Buffer.allocated_retrieve hb₂).trans (Buffer.allocated_retrieve hb₁)

/-- A pass of the loop in `onMessage` allocates nothing. -/
theorem allocated_onMessagePass {context : Context} {s : Decoding}
    {next : Pass Decoding Decoded} (h : onMessagePass context s = .ok next) :
    match next with
    | .again s' => s'.buf.allocated = s.buf.allocated
    | .leave r => r.buf.allocated = s.buf.allocated := by
  unfold onMessagePass at h
  split at h
  · simp only at h
    split at h
    · cases h
      rfl
    · obtain ⟨frameLen, -, h⟩ := except_bind_eq_ok.mp h
      split at h
      · obtain ⟨s', hs', h⟩ := except_bind_eq_ok.mp h
        cases h
        exact allocated_takeMessage hs'
      · cases h
        rfl
  · cases h
    rfl

/-- A call of `onMessage` allocates nothing. -/
theorem allocated_onMessage {conn : Established} {buf : Buffer} {r : Decoded}
    (h : onMessage conn.context buf = .ok r) : r.buf.allocated = buf.allocated := by
  have hloop : ∃ r, onMessage conn.context buf = .ok r ∧ r.buf.allocated = buf.allocated := by
    refine loop_spec (fun s : Decoding => s.buf.allocated = buf.allocated)
      (fun r : Decoded => r.buf.allocated = buf.allocated) (fun s => s.buf.readableBytes) ?_ _
      ⟨buf, []⟩ rfl (Nat.lt_succ_self _)
    intro s hs
    rcases onMessagePass_conserves conn s with ⟨r, hr, -⟩ | ⟨s', hs', -, hlt⟩
    · exact .inl ⟨r, hr, (allocated_onMessagePass hr).trans hs⟩
    · exact .inr ⟨s', hs', (allocated_onMessagePass hs').trans hs, hlt⟩
  obtain ⟨r', hr', hlen⟩ := hloop
  obtain rfl := Except.ok.inj (h.symm.trans hr')
  exact hlen

namespace Session

/-- One call of `onMessage` on a connection. -/
theorem allocated_feed {conn : Established} {s s' : Session} {chunk : List Byte}
    (h : s.feed conn.context chunk = .ok s') :
    s'.buf.allocated ≤
      max s.buf.allocated (s.unread.length + 2 * chunk.length + cheapPrepend) := by
  obtain ⟨buf, hbuf, h⟩ := except_bind_eq_ok.mp h
  obtain ⟨r, hr, h⟩ := except_bind_eq_ok.mp h
  cases h
  have hle := Buffer.allocated_append hbuf
  rwa [← allocated_onMessage hr, ← Buffer.length_content] at hle

/-- The calls up to the last one. -/
theorem feeds_snoc {context : Context} {s t : Session} {chunks : List (List Byte)}
    {chunk : List Byte} :
    s.feeds context (chunks ++ [chunk]) = .ok t ↔
      ∃ m, s.feeds context chunks = .ok m ∧ m.feed context chunk = .ok t := by
  rw [feeds, List.foldlM_append]
  refine except_bind_eq_ok.trans (exists_congr fun m => and_congr_right fun _ => ?_)
  rw [List.foldlM_cons]
  constructor
  · intro h
    obtain ⟨t', ht, h⟩ := except_bind_eq_ok.mp h
    cases h
    exact ht
  · exact fun h => except_bind_eq_ok.mpr ⟨t, h, rfl⟩

/-- **The run lemma**: what is allocated in the course of the calls is covered by the start, or by
the unread bytes before one of them and twice its chunk. -/
theorem allocated_feeds {conn : Established} {bound : ℕ}
    (hstart : cheapPrepend + initialSize ≤ bound) {chunks : List (List Byte)}
    (hfits : ∀ pre chunk m, pre ++ [chunk] <+: chunks →
      start.feeds conn.context pre = .ok m →
        m.unread.length + 2 * chunk.length + cheapPrepend ≤ bound)
    {s : Session} (h : start.feeds conn.context chunks = .ok s) : s.buf.allocated ≤ bound := by
  induction chunks using List.reverseRecOn generalizing s with
  | nil =>
    cases h
    exact Nat.le_trans (Nat.le_of_eq Buffer.allocated_new) hstart
  | append_singleton pre chunk ih =>
    obtain ⟨m, hm, hs⟩ := feeds_snoc.mp h
    have hpre : m.buf.allocated ≤ bound :=
      ih (fun p c m hp => hfits p c m (hp.trans (List.prefix_append _ _))) hm
    have hlast := hfits pre chunk m (List.prefix_refl _) hm
    exact Nat.le_trans (allocated_feed hs) (Nat.max_le.mpr ⟨hpre, hlast⟩)

/-- Before a call that has not shut the connection down, less than a frame is unread. -/
theorem unread_lt_of_not_shutdown {conn : Established} {pre chunks : List (List Byte)}
    {m s : Session} (hpre : pre <+: chunks) (hm : start.feeds conn.context pre = .ok m)
    (hs : start.feeds conn.context chunks = .ok s) (hshut : s.shutdown = false) :
    m.unread.length < headMsgLen + maxBody := by
  obtain ⟨bodies, -, hflat, hlt | hbroken⟩ := exists_frames hm
  · exact hlt
  · -- what begins no frame is still there at the end, and then the connection is shut down
    obtain ⟨later, rfl⟩ := hpre
    obtain ⟨t, ht, hr, -⟩ := feeds_start conn (pre ++ later)
    obtain rfl := Except.ok.inj (hs.symm.trans ht)
    have hlast : s.shutdown = true := by
      refine (congrArg Framing.Receiver.broken hr).trans (frames.isBroken_iff.mpr ?_)
      rw [List.flatten_append, frames.decode_append, ← unread_of_feeds hm,
        frames.decode_append_of_broken hbroken]
      exact frames.broken_append hbroken _
    rw [hlast] at hshut
    cases hshut

end Session

/-- **Bounded memory.** Whatever a client sends, in chunks of at most `limit` bytes, the vector
behind its connection's input buffer is never longer than it was at first or twice what has arrived
and eight bytes; and until an invalid length shuts the connection down, never longer than the
longest frame, two chunks and seven bytes. -/
theorem memory_bounded (conn : Established) (limit : ℕ) (chunks : List (List Byte))
    (hlimit : ∀ chunk ∈ chunks, chunk.length ≤ limit) :
    ∃ s, Session.start.feeds conn.context chunks = .ok s ∧
      s.buf.buffer.length ≤ max (8 + 1024) (2 * chunks.flatten.length + 8) ∧
      (s.shutdown = false → s.buf.buffer.length ≤ headMsgLen + 65536 + 2 * limit + 7) := by
  obtain ⟨s, hs, -⟩ := Session.feeds_start conn chunks
  refine ⟨s, hs, Session.allocated_feeds (Nat.le_max_left _ _) (fun pre chunk m hp hm => ?_) hs,
    fun hshut => Session.allocated_feeds ?_ (fun pre chunk m hp hm => ?_) hs⟩
  · obtain ⟨bodies, -, hflat, -⟩ := exists_frames hm
    obtain ⟨later, rfl⟩ := hp
    have hpre := congrArg List.length hflat
    simp only [List.length_append, List.flatten_append, List.flatten_cons, List.flatten_nil,
      List.append_nil] at hpre ⊢
    refine Nat.le_trans ?_ (Nat.le_max_right _ _)
    simp only [cheapPrepend]
    omega
  · simp only [cheapPrepend, initialSize, headMsgLen]
    omega
  · have hunread :=
      Session.unread_lt_of_not_shutdown ((List.prefix_append _ _).trans hp) hm hs hshut
    have hchunk := hlimit chunk (hp.subset (List.mem_append_right _ List.mem_cons_self))
    simp only [cheapPrepend, headMsgLen, maxBody] at hunread ⊢
    omega

/-- Two chunks of one message, and the beginning of the next. -/
theorem memory_bounded_two_chunks :
    ∃ s, Session.start.feeds (Established.ofDnid 7).context [[0, 0], [0, 1, 0x64, 0]] = .ok s ∧
      s.buf.buffer.length ≤ 1032 := by
  obtain ⟨s, hs, hlen, -⟩ := memory_bounded (Established.ofDnid 7) 4 [[0, 0], [0, 1, 0x64, 0]]
    (by decide)
  exact ⟨s, hs, hlen⟩

end PetsServer
