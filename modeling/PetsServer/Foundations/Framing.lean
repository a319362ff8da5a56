import Mathlib.Tactic.Common

/-!
# Self-delimiting frames in a stream

A framing rule looks at the front of a stream and finds there a complete frame, the beginning of
one, or something that no frame begins with. `Framing` packages such a rule with the encoder it
belongs to: an encoded frame is recognised whatever follows it, and what is recognised is an
encoded frame.

`decode` takes all the complete frames off a stream. Its laws are those of an incremental parser:

* `decode_encode`: it inverts the encoder on a list of frames, followed by anything;
* `decode_sound`: the stream is the encoding of the frames found followed by what is left;
* `decode_append`: a stream that arrives in two parts is decoded by decoding the first part, and
  then what it left followed by the second;
* `decode_append_of_broken`: nothing is found any more behind something that is no frame.
-/

namespace Foundations

variable {α β : Type*}

/-- What is found at the front of a stream. -/
inductive Front (α β : Type*)
  /-- Too little to tell, or a frame that is not complete. -/
  | more
  /-- The complete frame `b`, followed by `rest`. -/
  | frame (b : β) (rest : List α)
  /-- The beginning of no frame. -/
  | broken

/-- A framing rule and its encoder. -/
structure Framing (α β : Type*) where
  /-- What is found at the front of a stream. -/
  front : List α → Front α β
  /-- The frames that can be sent. -/
  Valid : β → Prop
  /-- A frame as it is sent. -/
  encode : β → List α
  encode_ne_nil : ∀ b, encode b ≠ []
  front_encode : ∀ {b}, Valid b → ∀ l, front (encode b ++ l) = .frame b l
  front_frame : ∀ {l b rest}, front l = .frame b rest → Valid b ∧ l = encode b ++ rest
  broken_append : ∀ {l}, front l = .broken → ∀ r, front (l ++ r) = .broken

namespace Framing

variable (F : Framing α β)

theorem length_rest_lt {l rest : List α} {b : β} (h : F.front l = .frame b rest) :
    rest.length < l.length := by
  obtain ⟨-, rfl⟩ := F.front_frame h
  have := List.length_pos_iff.mpr (F.encode_ne_nil b)
  simp only [List.length_append]
  omega

/-- The complete frames at the front of a stream, and the rest of the stream. -/
def decode (l : List α) : List β × List α :=
  match h : F.front l with
  | .frame b rest =>
    have := F.length_rest_lt h
    (b :: (decode rest).1, (decode rest).2)
  | .more => ([], l)
  | .broken => ([], l)
termination_by l.length

theorem decode_of_frame {l rest : List α} {b : β} (h : F.front l = .frame b rest) :
    F.decode l = (b :: (F.decode rest).1, (F.decode rest).2) := by
  rw [decode]
  split <;> simp_all

theorem decode_of_more {l : List α} (h : F.front l = .more) : F.decode l = ([], l) := by
  rw [decode]
  split <;> simp_all

theorem decode_of_broken {l : List α} (h : F.front l = .broken) : F.decode l = ([], l) := by
  rw [decode]
  split <;> simp_all

/-- Induction along the frames of a stream. -/
theorem frame_induction {P : List α → Prop} (hframe : ∀ l b rest, F.front l = .frame b rest →
    P rest → P l) (hmore : ∀ l, F.front l = .more → P l) (hbroken : ∀ l, F.front l = .broken → P l)
    (l : List α) : P l := by
  induction hn : l.length using Nat.strongRecOn generalizing l with
  | ind n ih =>
    cases h : F.front l with
    | more => exact hmore l h
    | broken => exact hbroken l h
    | frame b rest => exact hframe l b rest h (ih _ (hn ▸ F.length_rest_lt h) rest rfl)

/-- After all complete frames are taken off, there is none at the front. -/
theorem front_decode_ne_frame (l : List α) (b : β) (rest : List α) :
    F.front (F.decode l).2 ≠ .frame b rest := by
  induction l using F.frame_induction with
  | hframe l b' rest' h ih => rwa [F.decode_of_frame h]
  | hmore l h => simp [F.decode_of_more h, h]
  | hbroken l h => simp [F.decode_of_broken h, h]

/-- **Nothing is lost or invented**: the stream is the encoding of its frames, then the rest. -/
theorem decode_sound (l : List α) :
    l = (F.decode l).1.flatMap F.encode ++ (F.decode l).2 ∧ ∀ b ∈ (F.decode l).1, F.Valid b := by
  induction l using F.frame_induction with
  | hframe l b rest h ih =>
    obtain ⟨hv, hl⟩ := F.front_frame h
    rw [F.decode_of_frame h]
    refine ⟨?_, ?_⟩
    · rw [List.flatMap_cons, List.append_assoc, ← ih.1, hl]
    · intro b' hb'
      rcases List.mem_cons.mp hb' with rfl | hb'
      · exact hv
      · exact ih.2 b' hb'
  | hmore l h => simp [F.decode_of_more h]
  | hbroken l h => simp [F.decode_of_broken h]

/-- **Decoding inverts encoding**, whatever follows the frames. -/
theorem decode_encode {bs : List β} (hv : ∀ b ∈ bs, F.Valid b) (l : List α) :
    F.decode (bs.flatMap F.encode ++ l) = (bs ++ (F.decode l).1, (F.decode l).2) := by
  induction bs with
  | nil => rfl
  | cons b bs ih =>
    have hb : F.front ((b :: bs).flatMap F.encode ++ l) = .frame b (bs.flatMap F.encode ++ l) := by
      rw [List.flatMap_cons, List.append_assoc]
      exact F.front_encode (hv b (by simp)) _
    rw [F.decode_of_frame hb, ih fun b' hb' => hv b' (by simp [hb'])]
    rfl

theorem decode_append_of_broken {l : List α} (h : F.front l = .broken) (r : List α) :
    F.decode (l ++ r) = ([], l ++ r) :=
  F.decode_of_broken (F.broken_append h r)

/-- **A stream in two parts.** -/
theorem decode_append (l r : List α) :
    F.decode (l ++ r) = ((F.decode l).1 ++ (F.decode ((F.decode l).2 ++ r)).1,
      (F.decode ((F.decode l).2 ++ r)).2) := by
  obtain ⟨hl, hv⟩ := F.decode_sound l
  conv_lhs => rw [hl, List.append_assoc]
  exact F.decode_encode hv _

/-- The rest of a stream begins with something that is no frame. -/
def isBroken (l : List α) : Bool :=
  match F.front l with
  | .broken => true
  | _ => false

theorem isBroken_iff {l : List α} : F.isBroken l = true ↔ F.front l = .broken := by
  unfold isBroken
  split <;> simp_all

/-! ## A stream that arrives in chunks -/

/-- What a receiver has: the frames found so far, the bytes not yet taken off, and whether it has
seen something that is no frame. -/
structure Receiver (α β : Type*) where
  frames : List β
  unread : List α
  broken : Bool

/-- The receiver before anything has arrived. -/
def Receiver.start : Receiver α β := ⟨[], [], false⟩

/-- What a receiver that has got the whole of `l` at once has. -/
def received (l : List α) : Receiver α β :=
  ⟨(F.decode l).1, (F.decode l).2, F.isBroken (F.decode l).2⟩

/-- A chunk arrives, behind the bytes not yet taken off. -/
def receive (s : Receiver α β) (chunk : List α) : Receiver α β where
  frames := s.frames ++ (F.decode (s.unread ++ chunk)).1
  unread := (F.decode (s.unread ++ chunk)).2
  broken := s.broken || F.isBroken (F.decode (s.unread ++ chunk)).2

theorem received_nil (h : F.front [] = .more) : F.received [] = .start := by
  simp [received, Receiver.start, F.decode_of_more h, isBroken, h]

/-- One more chunk: the receiver is as if it had got everything at once. -/
theorem receive_received (l chunk : List α) :
    F.receive (F.received l) chunk = F.received (l ++ chunk) := by
  have hbroken : F.isBroken (F.decode l).2 = true →
      F.isBroken (F.decode ((F.decode l).2 ++ chunk)).2 = true := by
    intro h
    have hb := F.isBroken_iff.mp h
    rw [F.decode_append_of_broken hb, F.isBroken_iff]
    exact F.broken_append hb chunk
  simp only [receive, received, F.decode_append l chunk, Receiver.mk.injEq, true_and]
  cases h : F.isBroken (F.decode l).2 with
  | false => rfl
  | true => rw [hbroken h]; rfl

/-- **Chunking independence**: what a receiver has depends only on the bytes that have arrived. -/
theorem foldl_receive (h : F.front [] = .more) (chunks : List (List α)) :
    chunks.foldl F.receive .start = F.received chunks.flatten := by
  suffices ∀ l, chunks.foldl F.receive (F.received l) = F.received (l ++ chunks.flatten) by
    rw [← F.received_nil h]
    exact this []
  induction chunks with
  | nil => simp
  | cons c cs ih =>
    intro l
    rw [List.foldl_cons, F.receive_received, ih, List.append_assoc, List.flatten_cons]

/-- Behind something that is no frame, chunks only add to the bytes not taken off. -/
theorem foldl_receive_of_broken {s : Receiver α β} (h : F.front s.unread = .broken)
    (chunks : List (List α)) : (chunks.foldl F.receive s).frames = s.frames := by
  induction chunks generalizing s with
  | nil => rfl
  | cons c cs ih =>
    have hs : F.receive s c =
        ⟨s.frames, s.unread ++ c, s.broken || F.isBroken (s.unread ++ c)⟩ := by
      simp [receive, F.decode_append_of_broken h]
    rw [List.foldl_cons, hs]
    exact ih (F.broken_append h c)

end Framing

end Foundations
