import PetsServer.Define
import PetsServer.Foundations.Bytes

/-!
# The network library's buffer

`muduo::net::Buffer`: a vector with a reader index and a writer index, of which the bytes between
the two are readable. The invariant of the two indices is a field of the structure; every `assert`
of the source is a check that fails with `Fault.assertFailed`.

To its clients a buffer is the list of its readable bytes, `Buffer.content`. The specifications
say what each operation does to it and that no assertion fails: `retrieve_spec` drops bytes from
the front, `append_spec` adds bytes behind, `prepend_spec` adds bytes before.
-/

namespace PetsServer

open Foundations

/-! ## Byte order -/

/-- `sockets::networkToHost32`, that is `be32toh` on a little-endian machine. -/
def networkToHost32 (net32 : Dword) : Dword := byteSwap net32

/-- `sockets::hostToNetwork32`, that is `htobe32` on a little-endian machine. -/
def hostToNetwork32 (host32 : Dword) : Dword := byteSwap host32

/-! ## The buffer -/

/-- `Buffer::kCheapPrepend` -/
def cheapPrepend : ℕ := 8

/-- `Buffer::kInitialSize` -/
def initialSize : ℕ := 1024

/-- `muduo::net::Buffer` -/
structure Buffer where
  buffer : List Byte
  readerIndex : ℕ
  writerIndex : ℕ
  reader_le : readerIndex ≤ writerIndex
  writer_le : writerIndex ≤ buffer.length
  cheapPrepend_le : cheapPrepend ≤ buffer.length

namespace Buffer

/-- The default constructor. -/
def new : Buffer where
  buffer := List.replicate (cheapPrepend + initialSize) 0
  readerIndex := cheapPrepend
  writerIndex := cheapPrepend
  reader_le := Nat.le_refl _
  writer_le := by simp
  cheapPrepend_le := by simp

def readableBytes (b : Buffer) : ℕ := b.writerIndex - b.readerIndex

def writableBytes (b : Buffer) : ℕ := b.buffer.length - b.writerIndex

def prependableBytes (b : Buffer) : ℕ := b.readerIndex

/-- The `n` bytes that `peek()` points to. -/
def peek (b : Buffer) (n : ℕ) : List Byte := slice b.buffer b.readerIndex n

def retrieveAll (b : Buffer) : Buffer :=
  { b with
    readerIndex := cheapPrepend
    writerIndex := cheapPrepend
    reader_le := Nat.le_refl _
    writer_le := b.cheapPrepend_le }

def retrieve (b : Buffer) (len : ℕ) : Except Fault Buffer :=
  if len ≤ b.readableBytes then
    if h : len < b.readableBytes then
      .ok { b with
        readerIndex := b.readerIndex + len
        reader_le := by simp only [readableBytes] at h; omega }
    else .ok b.retrieveAll
  else .error .assertFailed

/-- `std::copy` of `data` into the vector from the position `i` on. -/
def copyTo (b : Buffer) (i : ℕ) (data : List Byte) (h : i + data.length ≤ b.buffer.length) :
    Buffer :=
  { b with
    buffer := overwrite b.buffer i data
    writer_le := by rw [length_overwrite h]; exact b.writer_le
    cheapPrepend_le := by rw [length_overwrite h]; exact b.cheapPrepend_le }

theorem cheapPrepend_le_resize {b : Buffer} {len : ℕ} (h : b.writableBytes < len) :
    cheapPrepend ≤ (resize b.buffer (b.writerIndex + len) 0).length := by
  have hcheap := b.cheapPrepend_le
  simp only [writableBytes] at h
  rw [length_resize]
  omega

theorem readable_le_buffer (b : Buffer) (hr : cheapPrepend < b.readerIndex) :
    cheapPrepend + (b.peek b.readableBytes).length ≤ b.buffer.length := by
  have hreader := b.reader_le
  have hwriter := b.writer_le
  simp only [peek, slice, readableBytes, List.length_take, List.length_drop]
  omega

theorem writer_le_copyTo {b : Buffer} (hr : cheapPrepend < b.readerIndex)
    (h : cheapPrepend + (b.peek b.readableBytes).length ≤ b.buffer.length) :
    cheapPrepend + b.readableBytes ≤
      (b.copyTo cheapPrepend (b.peek b.readableBytes) h).buffer.length := by
  have hreader := b.reader_le
  have hwriter := b.writer_le
  change _ ≤ (overwrite _ _ _).length
  rw [length_overwrite h, readableBytes]
  omega

/-- `makeSpace`, which is only called when there is too little space: it grows the vector, or moves
the readable bytes to the front. -/
def makeSpace (b : Buffer) (len : ℕ) (h : b.writableBytes < len) : Except Fault Buffer :=
  if b.writableBytes + b.prependableBytes < len + cheapPrepend then
    .ok { b with
      buffer := resize b.buffer (b.writerIndex + len) 0
      writer_le := by rw [length_resize]; exact Nat.le_add_right _ _
      cheapPrepend_le := cheapPrepend_le_resize h }
  else if hr : cheapPrepend < b.readerIndex then
    have hlen := b.readable_le_buffer hr
    .ok { b.copyTo cheapPrepend (b.peek b.readableBytes) hlen with
      readerIndex := cheapPrepend
      writerIndex := cheapPrepend + b.readableBytes
      reader_le := Nat.le_add_right _ _
      writer_le := writer_le_copyTo hr hlen }
  else .error .assertFailed

def ensureWritableBytes (b : Buffer) (len : ℕ) : Except Fault Buffer := do
  let b ← if h : b.writableBytes < len then b.makeSpace len h else .ok b
  if len ≤ b.writableBytes then .ok b else .error .assertFailed

/-- `append`: `ensureWritableBytes`, the copy, and `hasWritten` with its assertion. -/
def append (b : Buffer) (data : List Byte) : Except Fault Buffer := do
  let b ← b.ensureWritableBytes data.length
  if h : data.length ≤ b.writableBytes then
    have hle := b.writer_le
    have hlen : b.writerIndex + data.length ≤ b.buffer.length := by
      simp only [writableBytes] at h; omega
    .ok { b.copyTo b.writerIndex data hlen with
      writerIndex := b.writerIndex + data.length
      reader_le := by have := b.reader_le; simp only [copyTo]; omega
      writer_le := by simp only [copyTo, length_overwrite hlen]; exact hlen }
  else .error .assertFailed

def prepend (b : Buffer) (data : List Byte) : Except Fault Buffer :=
  if h : data.length ≤ b.prependableBytes then
    have hlen : b.readerIndex - data.length + data.length ≤ b.buffer.length := by
      have := b.reader_le
      have := b.writer_le
      simp only [prependableBytes] at h
      omega
    .ok { b.copyTo (b.readerIndex - data.length) data hlen with
      readerIndex := b.readerIndex - data.length
      reader_le := by have := b.reader_le; simp only [copyTo]; omega }
  else .error .assertFailed

/-! ## The readable bytes -/

/-- The readable bytes. -/
def content (b : Buffer) : List Byte := b.peek b.readableBytes

@[simp] theorem length_content (b : Buffer) : b.content.length = b.readableBytes := by
  have := b.reader_le
  have := b.writer_le
  exact length_slice (by simp only [readableBytes]; omega)

@[simp] theorem content_new : new.content = [] := rfl

@[simp] theorem content_retrieveAll (b : Buffer) : b.retrieveAll.content = [] := by
  simp [content, peek, slice, readableBytes, retrieveAll]

/-- What `peek` points to, as far as it is readable. -/
theorem peek_eq {b : Buffer} {n : ℕ} (h : n ≤ b.readableBytes) : b.peek n = b.content.take n := by
  rw [content, peek, peek, take_slice, Nat.min_eq_left h]

/-- Retrieving no more than is readable succeeds and drops bytes from the front. -/
theorem retrieve_spec {b : Buffer} {len : ℕ} (h : len ≤ b.readableBytes) :
    ∃ b', b.retrieve len = .ok b' ∧ b'.content = b.content.drop len := by
  rw [retrieve, if_pos h]
  by_cases hlt : len < b.readableBytes
  · rw [dif_pos hlt]
    refine ⟨_, rfl, ?_⟩
    simp only [content, peek, drop_slice, readableBytes, Nat.sub_add_eq]
  · rw [dif_neg hlt]
    refine ⟨_, rfl, ?_⟩
    rw [content_retrieveAll, List.drop_of_length_le (by rw [length_content]; omega)]

/-- Making space leaves the readable bytes alone and makes enough of it. -/
theorem makeSpace_spec {b : Buffer} {len : ℕ} (h : b.writableBytes < len) :
    ∃ b', b.makeSpace len h = .ok b' ∧ b'.content = b.content ∧ len ≤ b'.writableBytes ∧
      (cheapPrepend ≤ b.readerIndex → cheapPrepend ≤ b'.readerIndex) := by
  have hr := b.reader_le
  have hw := b.writer_le
  unfold makeSpace
  split
  · refine ⟨_, rfl, ?_, ?_, id⟩
    · exact slice_resize (by simp only [readableBytes]; omega) (by simp only [readableBytes]; omega)
    · simp only [writableBytes, length_resize]
      omega
  · rename_i hspace
    simp only [writableBytes, prependableBytes] at h hspace
    -- the test before left room in front of the readable bytes, which the assertion asks for
    rw [dif_pos (by omega)]
    have hlen : cheapPrepend + (b.peek b.readableBytes).length ≤ b.buffer.length := by
      have : (b.peek b.readableBytes).length = b.readableBytes := b.length_content
      rw [this, readableBytes]
      omega
    refine ⟨_, rfl, ?_, ?_, fun _ => Nat.le_refl _⟩
    · have hs := slice_overwrite (k := cheapPrepend) (Nat.le_refl _) hlen
      rw [show (b.peek b.readableBytes).length = b.readableBytes from b.length_content] at hs
      simpa [content, peek, readableBytes, copyTo, slice] using hs
    · change len ≤ (overwrite _ _ _).length - (cheapPrepend + b.readableBytes)
      rw [length_overwrite hlen, readableBytes]
      omega

theorem ensureWritableBytes_spec (b : Buffer) (len : ℕ) :
    ∃ b', b.ensureWritableBytes len = .ok b' ∧ b'.content = b.content ∧ len ≤ b'.writableBytes ∧
      (cheapPrepend ≤ b.readerIndex → cheapPrepend ≤ b'.readerIndex) := by
  by_cases h : b.writableBytes < len
  · obtain ⟨b', hb', hc, hlen, hp⟩ := makeSpace_spec h
    refine ⟨b', ?_, hc, hlen, hp⟩
    simp [ensureWritableBytes, h, hb', hlen, bind, Except.bind]
  · refine ⟨b, ?_, rfl, by omega, id⟩
    simp [ensureWritableBytes, h, bind, Except.bind, show len ≤ b.writableBytes by omega]

/-- Appending always succeeds and adds the bytes behind the readable ones. -/
theorem append_spec (b : Buffer) (data : List Byte) :
    ∃ b', b.append data = .ok b' ∧ b'.content = b.content ++ data ∧
      (cheapPrepend ≤ b.readerIndex → cheapPrepend ≤ b'.readerIndex) := by
  obtain ⟨b₁, hb₁, hc, hlen, hp⟩ := b.ensureWritableBytes_spec data.length
  have hr := b₁.reader_le
  have hw := b₁.writer_le
  simp only [append, hb₁, bind, Except.bind, dif_pos hlen]
  refine ⟨_, rfl, ?_, hp⟩
  simp only [writableBytes] at hlen
  have hlen' : b₁.writerIndex + data.length ≤ b₁.buffer.length := by omega
  rw [← hc]
  simp only [content, peek, readableBytes, copyTo]
  rw [← slice_overwrite hr hlen']
  congr 1
  omega

/-- Prepending into the space in front succeeds and adds the bytes before the readable ones. -/
theorem prepend_spec {b : Buffer} {data : List Byte} (h : data.length ≤ b.prependableBytes) :
    ∃ b', b.prepend data = .ok b' ∧ b'.content = data ++ b.content := by
  have hr := b.reader_le
  have hw := b.writer_le
  rw [prepend, dif_pos h]
  refine ⟨_, rfl, ?_⟩
  simp only [prependableBytes] at h
  simp only [content, peek, readableBytes, copyTo]
  rw [← slice_overwrite_before h (by omega)]
  congr 1
  omega

end Buffer

end PetsServer
