import PetsServer.Codec.Stream

/-!
# The backlog of a connection

Less than a frame stays in a connection's buffer while it waits for the rest of a message. After an
invalid length everything stays: `conn->shutdown()` leaves the connection open for reading, so that
more chunks are appended (`unread_of_invalid`).
-/

namespace PetsServer

open Foundations

variable {conn : Established} {chunks : List (List Byte)} {s : Session}

/-- What waits for more is less than a frame. -/
theorem length_lt_of_front_more {l : List Byte} (h : frames.front l = .more) :
    l.length < headMsgLen + maxBody := by
  rcases front_eq_more_iff.mp h with hlt | ⟨n, -, hmax, hlt⟩ <;> omega

/-- From a header outside the limit on, nothing is taken off. -/
theorem unread_of_invalid {bodies : List (List Byte)} {rest : List Byte}
    (hs : Session.start.feeds conn.context chunks = .ok s)
    (hbodies : ∀ body ∈ bodies, body.length ≤ 65536)
    (hchunks : chunks.flatten = bodies.flatMap frame ++ rest) (hlen : headMsgLen ≤ rest.length)
    (hinvalid : 65536 < headerInt rest ∨ headerInt rest < 0) : s.unread = rest := by
  have hbroken : frames.front rest = .broken := front_eq_broken_iff_headerInt.mpr ⟨hlen, hinvalid⟩
  have hdecode : frames.decode (bodies.flatMap frame ++ rest) = (bodies ++ [], rest) := by
    exact (frames.decode_encode hbodies rest).trans (by rw [frames.decode_of_broken hbroken])
  rw [Session.unread_of_feeds hs, hchunks, hdecode]

/-- The bytes received, in frames: what is left is less than a frame, or begins with a header
outside the limit. -/
theorem exists_frames (hs : Session.start.feeds conn.context chunks = .ok s) :
    ∃ bodies : List (List Byte), (∀ body ∈ bodies, body.length ≤ 65536) ∧
      chunks.flatten = bodies.flatMap frame ++ s.unread ∧
      (s.unread.length < headMsgLen + 65536 ∨ frames.front s.unread = .broken) := by
  have hunread := Session.unread_of_feeds hs
  obtain ⟨hsound, hvalid⟩ := frames.decode_sound chunks.flatten
  refine ⟨(frames.decode chunks.flatten).1, hvalid, hunread ▸ hsound, ?_⟩
  rw [hunread]
  cases hfront : frames.front (frames.decode chunks.flatten).2 with
  | more => exact .inl (length_lt_of_front_more hfront)
  | broken => exact .inr rfl
  | frame body rest => exact absurd hfront (frames.front_decode_ne_frame _ _ _)

/-- **The backlog.** After every call of `onMessage` fewer bytes than the longest frame has are left
unread if and only if fewer than that arrive from an invalid header on. -/
theorem backlog_lt_iff (conn : Established) (chunks : List (List Byte)) :
    (∀ sofar, sofar <+: chunks → ∃ s, Session.start.feeds conn.context sofar = .ok s ∧
        s.unread.length < headMsgLen + 65536) ↔
      ∀ (bodies : List (List Byte)) (rest : List Byte), (∀ body ∈ bodies, body.length ≤ 65536) →
        chunks.flatten = bodies.flatMap frame ++ rest → headMsgLen ≤ rest.length →
        65536 < headerInt rest ∨ headerInt rest < 0 → rest.length < headMsgLen + 65536 := by
  constructor
  · intro h bodies rest hbodies hchunks hlen hinvalid
    obtain ⟨s, hs, hlt⟩ := h chunks (List.prefix_refl chunks)
    rwa [unread_of_invalid hs hbodies hchunks hlen hinvalid] at hlt
  · rintro h sofar ⟨later, rfl⟩
    obtain ⟨s, hs, -⟩ := Session.feeds_start conn sofar
    refine ⟨s, hs, ?_⟩
    obtain ⟨bodies, hbodies, hsofar, hlt | hbroken⟩ := exists_frames hs
    · exact hlt
    -- the header is still outside the limit when the later chunks have come
    obtain ⟨hlen, hinvalid⟩ :=
      front_eq_broken_iff_headerInt.mp (frames.broken_append hbroken later.flatten)
    have hrest := h bodies (s.unread ++ later.flatten) hbodies
      (by rw [List.flatten_append, hsofar, List.append_assoc]) hlen hinvalid
    rw [List.length_append] at hrest
    omega

/-- An invalid header, and after it 65536 bytes. -/
theorem backlog_of_invalid_header :
    ¬ ∃ s, Session.start.feeds (Established.ofDnid 0).context
        [[255, 255, 255, 255], List.replicate 65536 0] = .ok s ∧
      s.unread.length < headMsgLen + 65536 := by
  rintro ⟨s, hs, hlt⟩
  have hlen (n : ℕ) : ([255, 255, 255, 255] ++ List.replicate n (0 : Byte)).length = 4 + n := by
    rw [List.length_append, List.length_replicate]
    rfl
  have htake (n : ℕ) : ([255, 255, 255, 255] ++ List.replicate n (0 : Byte)).take headMsgLen =
      [255, 255, 255, 255] := rfl
  have hinvalid (n : ℕ) : headerInt ([255, 255, 255, 255] ++ List.replicate n 0) < 0 := by
    rw [headerInt, htake]
    decide
  have hflat (a b : List Byte) : [a, b].flatten = [].flatMap frame ++ (a ++ b) := by
    rw [List.flatten_cons, List.flatten_cons, List.flatten_nil, List.append_nil, List.flatMap_nil,
      List.nil_append]
  have hunread := unread_of_invalid hs (fun _ h => absurd h List.not_mem_nil) (hflat _ _)
    (by rw [hlen]; exact Nat.le_add_right _ _) (.inr (hinvalid _))
  rw [hunread, hlen] at hlt
  exact absurd hlt (Nat.lt_irrefl _)

end PetsServer
