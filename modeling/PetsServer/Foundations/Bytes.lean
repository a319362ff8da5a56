import Mathlib.Tactic.Common

/-!
# Words and blocks of bytes

The bytes of a 32-bit word as they lie in the memory of a little-endian machine, the byte swap
between such a machine's order and the network's, and the two operations a byte buffer is built
from: reading a slice of a block and copying bytes over a part of it.
-/

namespace Foundations

/-! ## Words -/

/-- The four bytes of a word in memory, least significant first. -/
def wordBytes (w : UInt32) : List UInt8 :=
  [w.toUInt8, (w >>> 8).toUInt8, (w >>> 16).toUInt8, (w >>> 24).toUInt8]

/-- The word whose four bytes in memory begin the list. -/
def readWord : List UInt8 → UInt32
  | a :: b :: c :: d :: _ =>
    UInt32.ofNat (a.toNat + 256 * b.toNat + 65536 * c.toNat + 16777216 * d.toNat)
  | _ => 0

@[simp] theorem length_wordBytes (w : UInt32) : (wordBytes w).length = 4 := rfl

theorem readWord_wordBytes (w : UInt32) (l : List UInt8) : readWord (wordBytes w ++ l) = w := by
  apply UInt32.toNat_inj.mp
  have h := w.toNat_lt
  simp only [wordBytes, List.cons_append, List.nil_append, readWord, UInt32.toNat_ofNat',
    UInt32.toNat_toUInt8, UInt32.toNat_shiftRight, Nat.shiftRight_eq_div_pow, UInt32.reduceToNat,
    Nat.reduceMod, Nat.reducePow]
  omega

theorem wordBytes_readWord (a b c d : UInt8) (l : List UInt8) :
    wordBytes (readWord (a :: b :: c :: d :: l)) = [a, b, c, d] := by
  have ha := a.toNat_lt
  have hb := b.toNat_lt
  have hc := c.toNat_lt
  have hd := d.toNat_lt
  simp only [wordBytes, readWord, List.cons.injEq, and_true, ← UInt8.toNat_inj,
    UInt32.toNat_ofNat', UInt32.toNat_toUInt8, UInt32.toNat_shiftRight, Nat.shiftRight_eq_div_pow,
    UInt32.reduceToNat, Nat.reduceMod, Nat.reducePow]
  omega

/-- The word with its bytes in the opposite order. -/
def byteSwap (w : UInt32) : UInt32 := readWord (wordBytes w).reverse

theorem wordBytes_byteSwap (w : UInt32) : wordBytes (byteSwap w) = (wordBytes w).reverse :=
  wordBytes_readWord _ _ _ _ []

/-! ## Blocks -/

variable {α : Type*}

/-- The `n` entries of a block from the position `i` on. -/
def slice (l : List α) (i n : ℕ) : List α := (l.drop i).take n

/-- The block with `data` copied over its entries from the position `i` on. -/
def overwrite (l : List α) (i : ℕ) (data : List α) : List α :=
  l.take i ++ data ++ l.drop (i + data.length)

/-- The block cut or filled up with `a` to the length `n`, as `std::vector::resize` does. -/
def resize (l : List α) (n : ℕ) (a : α) : List α := l.take n ++ List.replicate (n - l.length) a

theorem length_resize (l : List α) (n : ℕ) (a : α) : (resize l n a).length = n := by
  simp only [resize, List.length_append, List.length_take, List.length_replicate]
  omega

theorem length_slice {l : List α} {i n : ℕ} (h : i + n ≤ l.length) : (slice l i n).length = n := by
  simp only [slice, List.length_take, List.length_drop]
  omega

theorem length_overwrite {l data : List α} {i : ℕ} (h : i + data.length ≤ l.length) :
    (overwrite l i data).length = l.length := by
  simp only [overwrite, List.length_append, List.length_take, List.length_drop]
  omega

/-- A block that is filled from the front: what lies before the copied bytes, and the bytes. -/
theorem take_overwrite {l data : List α} {i : ℕ} (h : i + data.length ≤ l.length) :
    (overwrite l i data).take (i + data.length) = l.take i ++ data := by
  have hlen : (l.take i ++ data).length = i + data.length := by
    simp only [List.length_append, List.length_take]
    omega
  rw [overwrite, ← hlen, List.take_left]

/-- What lies before the copied bytes is unchanged, and the copied bytes follow it. -/
theorem slice_overwrite {l data : List α} {i k : ℕ} (hk : k ≤ i) (h : i + data.length ≤ l.length) :
    slice (overwrite l i data) k (i - k + data.length) = slice l k (i - k) ++ data := by
  have hlen : (l.take i).length = i := by
    rw [List.length_take]
    omega
  have hfront : (((l.take i).drop k) ++ data).length = i - k + data.length := by
    rw [List.length_append, List.length_drop, hlen]
  rw [slice, overwrite, List.append_assoc, List.drop_append_of_le_length (by omega),
    ← List.append_assoc, ← hfront, List.take_left, slice, List.drop_take]

/-- What lies after the copied bytes is unchanged, and follows them. -/
theorem slice_overwrite_before {l data : List α} {i n : ℕ} (hd : data.length ≤ i)
    (h : i ≤ l.length) :
    slice (overwrite l (i - data.length) data) (i - data.length) (n + data.length) =
      data ++ slice l i n := by
  have hlen : (l.take (i - data.length)).length = i - data.length := by
    rw [List.length_take]
    omega
  rw [slice, overwrite, List.append_assoc, List.drop_left' hlen, Nat.add_comm n,
    List.take_length_add_append, Nat.sub_add_cancel hd, slice]

theorem slice_resize {l : List α} {i n k : ℕ} {a : α} (h : i + n ≤ l.length) (hk : i + n ≤ k) :
    slice (resize l k a) i n = slice l i n := by
  rw [slice, resize, List.drop_append_of_le_length (by simp only [List.length_take]; omega),
    List.take_append_of_le_length (by simp only [List.length_drop, List.length_take]; omega),
    List.drop_take, List.take_take, Nat.min_eq_left (by omega), slice]

theorem drop_slice (l : List α) (i n k : ℕ) : (slice l i n).drop k = slice l (i + k) (n - k) := by
  simp only [slice, List.drop_take, List.drop_drop]

theorem take_slice (l : List α) (i n k : ℕ) : (slice l i n).take k = slice l i (min k n) := by
  simp only [slice, List.take_take]

end Foundations
