import PetsServer.Codec.OnMessage
import PetsServer.Foundations.Framing

/-!
# Messages as frames

What the codec is for, in its own terms: a message of at most 65536 bytes is sent as a frame, its
length in four bytes, most significant first, and then the message; a length above the limit
begins no frame. `frames` is this framing rule. `sendMsg_eq` and `onMessage_spec` connect it to the
codec: what `sendMsg` emits is the frame, and one call of `onMessage` decodes the stream of readable
bytes by the rule, without failing.
-/

namespace PetsServer

open Foundations

/-! ## The framing rule -/

/-- The longest message. -/
def maxBody : ℕ := 65536

/-- The length announced by the header at the front of a stream, once it is complete. -/
def headerLength (l : List Byte) : Option ℕ :=
  if headMsgLen ≤ l.length then some (readWord (l.take headMsgLen).reverse).toNat else none

/-- A message behind its length. -/
def frame (body : List Byte) : List Byte :=
  (wordBytes (UInt32.ofNat body.length)).reverse ++ body

theorem headerLength_frame {body : List Byte} (h : body.length < 2 ^ 32) (l : List Byte) :
    headerLength (frame body ++ l) = some body.length := by
  have htake : (frame body ++ l).take headMsgLen =
      (wordBytes (UInt32.ofNat body.length)).reverse := by
    rw [frame, List.append_assoc]
    exact List.take_left' rfl
  have hlen : headMsgLen ≤ (frame body ++ l).length := by simp [frame, headMsgLen]
  rw [headerLength, if_pos hlen, htake, List.reverse_reverse]
  have hw := readWord_wordBytes (UInt32.ofNat body.length) []
  rw [List.append_nil] at hw
  rw [hw, UInt32.toNat_ofNat_of_lt' h]

theorem headerLength_append {l : List Byte} {n : ℕ} (h : headerLength l = some n) (r : List Byte) :
    headerLength (l ++ r) = some n := by
  unfold headerLength at h ⊢
  split at h
  · rename_i hlen
    rw [if_pos (by rw [List.length_append]; omega), List.take_append_of_le_length hlen]
    exact h
  · cases h

theorem length_of_headerLength {l : List Byte} {n : ℕ} (h : headerLength l = some n) :
    headMsgLen ≤ l.length := by
  unfold headerLength at h
  split at h
  · assumption
  · cases h

/-- A stream with a complete header is the bytes of the length, then the rest. -/
theorem eq_of_headerLength {l : List Byte} {n : ℕ} (h : headerLength l = some n) :
    l = (wordBytes (UInt32.ofNat n)).reverse ++ l.drop headMsgLen := by
  have hlen := length_of_headerLength h
  rw [headerLength, if_pos hlen, Option.some.injEq] at h
  match l, hlen with
  | a :: b :: c :: d :: rest, _ =>
    subst h
    have hw := wordBytes_readWord d c b a []
    simp only [headMsgLen, List.take_succ_cons, List.take_zero, List.reverse_cons, List.reverse_nil,
      List.nil_append, List.cons_append, UInt32.ofNat_toNat, hw, List.drop_succ_cons,
      List.drop_zero]

/-- What the rule finds at the front of a stream. -/
def frameFront (l : List Byte) : Front Byte (List Byte) :=
  match headerLength l with
  | none => .more
  | some n =>
    if maxBody < n then .broken
    else if n ≤ (l.drop headMsgLen).length then
      .frame ((l.drop headMsgLen).take n) ((l.drop headMsgLen).drop n)
    else .more

theorem frame_ne_nil (body : List Byte) : frame body ≠ [] := by
  simp [frame, wordBytes]

theorem frameFront_frame {body : List Byte} (hv : body.length ≤ maxBody) (l : List Byte) :
    frameFront (frame body ++ l) = .frame body l := by
  have hdrop : (frame body ++ l).drop headMsgLen = body ++ l := by
    rw [frame, List.append_assoc]
    exact List.drop_left' rfl
  rw [frameFront, headerLength_frame (by simp only [maxBody] at hv; omega)]
  simp [hdrop, Nat.not_lt.mpr hv]

theorem eq_of_frameFront {l body rest : List Byte} (h : frameFront l = .frame body rest) :
    body.length ≤ maxBody ∧ l = frame body ++ rest := by
  unfold frameFront at h
  split at h
  · cases h
  · rename_i n hn
    split at h
    · cases h
    · split at h
      · rename_i hmax hlen
        obtain ⟨rfl, rfl⟩ := Front.frame.inj h
        have hbody : ((l.drop headMsgLen).take n).length = n := by
          rw [List.length_take, Nat.min_eq_left hlen]
        refine ⟨by rw [hbody]; omega, ?_⟩
        rw [frame, hbody, List.append_assoc, List.take_append_drop]
        exact eq_of_headerLength hn
      · cases h

theorem frameFront_broken_append {l : List Byte} (h : frameFront l = .broken) (r : List Byte) :
    frameFront (l ++ r) = .broken := by
  unfold frameFront at h
  split at h
  · cases h
  · rename_i n hn
    split at h
    · rename_i hmax
      rw [frameFront, headerLength_append hn]
      exact if_pos hmax
    · split at h <;> cases h

/-- **The framing rule.** -/
def frames : Framing Byte (List Byte) where
  front := frameFront
  Valid body := body.length ≤ maxBody
  encode := frame
  encode_ne_nil := frame_ne_nil
  front_encode hv l := frameFront_frame hv l
  front_frame h := eq_of_frameFront h
  broken_append h r := frameFront_broken_append h r

@[simp] theorem frames_front_nil : frames.front [] = .more := rfl

/-- A stream begins no frame when its header is complete and announces too much. -/
theorem front_eq_broken_iff {l : List Byte} :
    frames.front l = .broken ↔ ∃ n, headerLength l = some n ∧ maxBody < n := by
  change frameFront l = .broken ↔ _
  unfold frameFront
  split
  · rename_i hn
    simp [hn]
  · rename_i n hn
    by_cases hmax : maxBody < n
    · simp [hn, hmax]
    · simp only [hmax, if_false, hn, Option.some.injEq, exists_eq_left']
      split <;> simp

/-- What waits for more is a part of a header, or a header and a part of the message. -/
theorem front_eq_more_iff {l : List Byte} :
    frames.front l = .more ↔ l.length < headMsgLen ∨
      ∃ n, headerLength l = some n ∧ n ≤ maxBody ∧ l.length < headMsgLen + n := by
  change frameFront l = .more ↔ _
  unfold frameFront
  split
  · rename_i hn
    have hlen : l.length < headMsgLen := by
      unfold headerLength at hn
      split at hn
      · cases hn
      · omega
    simp [hlen]
  · rename_i n hn
    have hlen := length_of_headerLength hn
    simp only [hn, Option.some.injEq, exists_eq_left', List.length_drop]
    by_cases hmax : maxBody < n
    · simp [hmax]
      omega
    · simp only [hmax, if_false]
      split
      · simp
        omega
      · simp
        omega

/-! ## The encoder -/

/-- The conversions of the size to an `int` and back lose nothing. -/
theorem wordBytes_hostToNetwork32 (p : Payload) :
    wordBytes (hostToNetwork32 p.size.toInt32.toUInt32) =
      (wordBytes (UInt32.ofNat p.data.length)).reverse := by
  rw [UInt32.toUInt32_toInt32, hostToNetwork32, wordBytes_byteSwap, Payload.size]

/-- `SendMsg` emits the frame of its payload, whatever the size. -/
theorem sendMsg_eq (p : Payload) : sendMsg p = .ok (frame p.data) := by
  obtain ⟨b₁, hb₁, hc₁, hp₁⟩ := Buffer.new.append_spec p.data
  have hroom : (wordBytes (hostToNetwork32 p.size.toInt32.toUInt32)).length ≤
      b₁.prependableBytes := by
    have := hp₁ (Nat.le_refl _)
    simp only [cheapPrepend, length_wordBytes, Buffer.prependableBytes] at this ⊢
    omega
  obtain ⟨b₂, hb₂, hc₂⟩ := Buffer.prepend_spec hroom
  have hsend : sendMsg p = .ok b₂.content := by
    simp only [sendMsg, hb₁, hb₂, bind, Except.bind]
  rw [hsend, hc₂, hc₁, Buffer.content_new, List.nil_append, wordBytes_hostToNetwork32, frame]

theorem mapM_sendMsg (payloads : List Payload) :
    payloads.mapM sendMsg = .ok (payloads.map (frame ∘ Payload.data)) := by
  induction payloads with
  | nil => rfl
  | cons p ps ih =>
    rw [List.mapM_cons, sendMsg_eq, ih]
    rfl

/-! ## The decoder -/

/-- The packet that carries a message received on a connection. -/
def Established.packet (conn : Established) (body : List Byte) : SPacket :=
  ⟨conn.dnid, mallocCopy body, conn.pet⟩

@[simp] theorem Established.body_packet (conn : Established) (body : List Byte) :
    (conn.packet body).body = body := rfl

/-- The `int` that the source reads from the header. -/
theorem networkToHost32_readWord {l : List Byte} (h : headMsgLen ≤ l.length) :
    networkToHost32 (readWord (l.take headMsgLen)) = readWord (l.take headMsgLen).reverse := by
  match l, h with
  | a :: b :: c :: d :: rest, _ =>
    simp only [headMsgLen, networkToHost32, byteSwap, List.take_succ_cons, List.take_zero,
      wordBytes_readWord]

/-- The sign test and the limit test together are the limit test on the unsigned length. -/
theorem toInt32_out_of_range_iff (w : Dword) :
    (65536 < w.toInt32 ∨ w.toInt32 < 0) ↔ maxBody < w.toNat := by
  have h := w.toNat_lt
  have hi : w.toInt32.toInt = (w.toNat : Int).bmod (2 ^ 32) := by
    rw [← Int32.toInt_toBitVec, UInt32.toBitVec_toInt32, BitVec.toInt_eq_toNat_bmod,
      UInt32.toNat_toBitVec]
  have h1 : (65536 : Int32).toInt = 65536 := by decide
  have h0 : (0 : Int32).toInt = 0 := by decide
  rw [Int32.lt_iff_toInt_lt, Int32.lt_iff_toInt_lt, h1, h0, hi, Int.bmod_def, maxBody]
  split <;> omega

/-- Within the limit the `int` is the unsigned length. -/
theorem toInt_toInt32_of_le {w : Dword} (h : w.toNat ≤ maxBody) : w.toInt32.toInt = w.toNat := by
  rw [← Int32.toInt_toBitVec, UInt32.toBitVec_toInt32, BitVec.toInt_eq_toNat_bmod,
    UInt32.toNat_toBitVec, Int.bmod_def]
  simp only [maxBody] at h
  split <;> omega

/-- The length in the header at the front of a stream, as the source reads it. -/
def headerInt (l : List Byte) : Int32 := (networkToHost32 (readWord (l.take headMsgLen))).toInt32

theorem headerLength_eq {l : List Byte} (h : headMsgLen ≤ l.length) :
    headerLength l = some (networkToHost32 (readWord (l.take headMsgLen))).toNat := by
  rw [headerLength, if_pos h, networkToHost32_readWord h]

theorem front_eq_broken_iff_headerInt {l : List Byte} :
    frames.front l = .broken ↔
      headMsgLen ≤ l.length ∧ (65536 < headerInt l ∨ headerInt l < 0) := by
  rw [front_eq_broken_iff, headerInt, toInt32_out_of_range_iff]
  constructor
  · rintro ⟨n, hn, hmax⟩
    have hlen := length_of_headerLength hn
    rw [headerLength_eq hlen, Option.some.injEq] at hn
    exact ⟨hlen, hn ▸ hmax⟩
  · rintro ⟨hlen, hmax⟩
    exact ⟨_, headerLength_eq hlen, hmax⟩

/-- A header within the limit holds the unsigned length. -/
theorem headerInt_of_le {l : List Byte} {n : ℕ} (hn : headerLength l = some n) (h : n ≤ maxBody) :
    (headerInt l).toInt = n := by
  rw [headerLength_eq (length_of_headerLength hn), Option.some.injEq] at hn
  subst hn
  exact toInt_toInt32_of_le h

theorem headerInt_of_front_more {l : List Byte} (h : frames.front l = .more) :
    l.length < headMsgLen ∨ (headMsgLen ≤ l.length ∧ 0 ≤ headerInt l ∧ headerInt l ≤ 65536 ∧
      l.length < headMsgLen + (headerInt l).toInt) := by
  rcases front_eq_more_iff.mp h with h | ⟨n, hn, hmax, hshort⟩
  · exact Or.inl h
  · have hi := headerInt_of_le hn hmax
    have h1 : (65536 : Int32).toInt = 65536 := by decide
    have h0 : (0 : Int32).toInt = 0 := by decide
    simp only [maxBody] at hmax
    refine Or.inr ⟨length_of_headerLength hn, ?_, ?_, ?_⟩
    · rw [Int32.le_iff_toInt_le, h0, hi]
      omega
    · rw [Int32.le_iff_toInt_le, h1, hi]
      omega
    · rw [hi]
      omega

theorem intToSize_of_nonneg {i : Int32} {n : ℕ} (h : i.toInt = n) : intToSize i = n := by
  have := i.toInt_lt
  rw [intToSize, h]
  omega

/-- Taking a message that is complete: the buffer loses the frame, and the packet is pushed. -/
theorem takeMessage_spec (conn : Established) {s : Decoding} {len : Int32} {n : ℕ}
    (hlen : len.toInt = n) (hn : headMsgLen + n ≤ s.buf.readableBytes) :
    ∃ s', takeMessage conn.context s len = .ok s' ∧
      s'.buf.content = (s.buf.content.drop headMsgLen).drop n ∧
      s'.pushed = s.pushed ++ [conn.packet ((s.buf.content.drop headMsgLen).take n)] := by
  have hhead : headMsgLen ≤ s.buf.readableBytes := by omega
  obtain ⟨b₁, hb₁, hc₁⟩ := Buffer.retrieve_spec hhead
  have hr₁ : n ≤ b₁.readableBytes := by
    rw [← Buffer.length_content, hc₁, List.length_drop, Buffer.length_content]
    omega
  obtain ⟨b₂, hb₂, hc₂⟩ := Buffer.retrieve_spec hr₁
  refine ⟨⟨b₂, s.pushed ++ [conn.packet (b₁.peek n)]⟩, ?_, ?_, ?_⟩
  · simp only [takeMessage, hb₁, conn.cast_eq, intToSize_of_nonneg hlen, hb₂, bind, Except.bind,
      Established.packet]
  · rw [hc₂, hc₁]
  · rw [Buffer.peek_eq hr₁, hc₁]

/-- What a pass does, by what the framing rule finds at the front of the readable bytes. -/
theorem onMessagePass_spec (conn : Established) (s : Decoding) :
    match frames.front s.buf.content with
    | .more => onMessagePass conn.context s = .ok (.leave ⟨s.buf, s.pushed, false⟩)
    | .broken => onMessagePass conn.context s = .ok (.leave ⟨s.buf, s.pushed, true⟩)
    | .frame body rest => ∃ s', onMessagePass conn.context s = .ok (.again s') ∧
        s'.buf.content = rest ∧ s'.pushed = s.pushed ++ [conn.packet body] := by
  change match frameFront s.buf.content with | .more => _ | .broken => _ | .frame _ _ => _
  unfold frameFront onMessagePass headerLength
  rw [Buffer.length_content]
  by_cases hhead : headMsgLen ≤ s.buf.readableBytes
  · have hlen : headMsgLen ≤ s.buf.content.length := by rwa [Buffer.length_content]
    simp only [if_pos hhead, Buffer.peek_eq hhead, networkToHost32_readWord hlen,
      toInt32_out_of_range_iff]
    generalize readWord (s.buf.content.take headMsgLen).reverse = w
    by_cases hmax : maxBody < w.toNat
    · simp only [if_pos hmax]
    · have hw := toInt_toInt32_of_le (Nat.not_lt.mp hmax)
      have h4 : (Int32.ofNat headMsgLen).toInt = headMsgLen := by decide
      simp only [maxBody] at hmax
      -- the length is at most 65536, so the sum with the header's length is far from overflow
      obtain ⟨frameLen, hadd, hframe⟩ := addInt_spec (a := w.toInt32) (b := .ofNat headMsgLen)
        (by rw [hw, h4]; omega) (by rw [hw, h4]; simp only [headMsgLen]; omega)
      have hsize : intToSize frameLen = headMsgLen + w.toNat :=
        intToSize_of_nonneg (by rw [hframe, hw, h4]; omega)
      have hle : w.toNat ≤ (s.buf.content.drop headMsgLen).length ↔
          headMsgLen + w.toNat ≤ s.buf.readableBytes := by
        rw [List.length_drop, Buffer.length_content]
        omega
      simp only [maxBody, if_neg hmax, hadd, hsize, hle, bind, Except.bind]
      by_cases hfull : headMsgLen + w.toNat ≤ s.buf.readableBytes
      · obtain ⟨s', hs', hrest, hpushed⟩ := takeMessage_spec conn hw hfull
        simp only [if_pos hfull, hs']
        exact ⟨s', rfl, hrest, hpushed⟩
      · simp only [if_neg hfull]
  · simp only [if_neg hhead]

/-- What the loop has pushed together with what it is going to push, what it will leave in the
buffer, and whether it will shut the connection down. -/
def Decoding.view (conn : Established) (s : Decoding) : List SPacket × List Byte × Bool :=
  (s.pushed ++ (frames.decode s.buf.content).1.map conn.packet, (frames.decode s.buf.content).2,
    frames.isBroken (frames.decode s.buf.content).2)

/-- What a call of `onMessage` has pushed, left in the buffer, and whether it has shut the
connection down. -/
def Decoded.view (r : Decoded) : List SPacket × List Byte × Bool :=
  (r.pushed, r.buf.content, r.shutdown)

/-- Every pass keeps the view, and a pass that goes round again shortens the buffer. -/
theorem onMessagePass_conserves (conn : Established) (s : Decoding) :
    (∃ r, onMessagePass conn.context s = .ok (.leave r) ∧ r.view = s.view conn) ∨
      ∃ s', onMessagePass conn.context s = .ok (.again s') ∧ s'.view conn = s.view conn ∧
        s'.buf.readableBytes < s.buf.readableBytes := by
  have hpass := onMessagePass_spec conn s
  cases hfront : frames.front s.buf.content with
  | more =>
    rw [hfront] at hpass
    refine Or.inl ⟨_, hpass, ?_⟩
    simp [Decoded.view, Decoding.view, frames.decode_of_more hfront, Framing.isBroken, hfront]
  | broken =>
    rw [hfront] at hpass
    refine Or.inl ⟨_, hpass, ?_⟩
    simp [Decoded.view, Decoding.view, frames.decode_of_broken hfront, Framing.isBroken, hfront]
  | frame body rest =>
    rw [hfront] at hpass
    obtain ⟨s', hs', hrest, hpushed⟩ := hpass
    refine Or.inr ⟨s', hs', ?_, ?_⟩
    · simp [Decoding.view, frames.decode_of_frame hfront, hrest, hpushed]
    · have hlt := frames.length_rest_lt hfront
      rwa [← hrest, Buffer.length_content, Buffer.length_content] at hlt

/-- **One call of `onMessage`** decodes the readable bytes by the framing rule: it pushes the
packets of the complete messages, leaves the rest in the buffer and shuts the connection down when
the rest begins no frame. No assertion fails, nothing overflows and nothing throws. -/
theorem onMessage_spec (conn : Established) (buf : Buffer) :
    ∃ r, onMessage conn.context buf = .ok r ∧
      r.pushed = (frames.decode buf.content).1.map conn.packet ∧
      r.buf.content = (frames.decode buf.content).2 ∧
      r.shutdown = frames.isBroken (frames.decode buf.content).2 := by
  have h : ∃ r, onMessage conn.context buf = .ok r ∧ r.view = Decoding.view conn ⟨buf, []⟩ :=
    loop_conserves (Decoding.view conn) Decoded.view (fun s => s.buf.readableBytes)
      (onMessagePass_conserves conn) (Nat.lt_succ_self _)
  obtain ⟨r, hr, hV⟩ := h
  simp only [Decoded.view, Decoding.view, List.nil_append, Prod.mk.injEq] at hV
  exact ⟨r, hr, hV⟩

end PetsServer
