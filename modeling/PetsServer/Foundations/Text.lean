import Mathlib.Data.Int.Notation
import Mathlib.Data.List.TakeWhile
import Mathlib.Tactic.Common
import Mathlib.Tactic.IntervalCases

/-!
# Text as bytes

The text of a string constant, the C string at the start of a block of bytes, and the numerals that
C's formatted output writes: decimal numerals of integers and pairs of hexadecimal digits of bytes.
Both kinds of numerals are read back by `readInt` and `readHex`.
-/

namespace Foundations

/-- The byte of a character. -/
def charByte (c : Char) : UInt8 := UInt8.ofNat c.toNat

/-- The bytes of an ASCII text. -/
def ascii (s : String) : List UInt8 := s.toList.map charByte

theorem ascii_append (s t : String) : ascii (s ++ t) = ascii s ++ ascii t := by
  rw [ascii, String.toList_append, List.map_append, ascii, ascii]

/-- The C string at the start of a block: its bytes before the first zero. -/
def cString (l : List UInt8) : List UInt8 := l.takeWhile (· ≠ 0)

theorem zero_notMem_cString (l : List UInt8) : 0 ∉ cString l := fun h => by
  simpa using List.mem_takeWhile_imp h

theorem cString_of_notMem {l : List UInt8} (h : 0 ∉ l) : cString l = l :=
  List.takeWhile_eq_self_iff.mpr fun b hb => by
    simpa using fun heq : b = 0 => h (heq ▸ hb)

/-- What comes after the zero does not matter. -/
theorem cString_append_zero (l m : List UInt8) : cString (l ++ 0 :: m) = cString l := by
  induction l with
  | nil => rfl
  | cons b l ih =>
    by_cases hb : b = 0
    · simp [cString, hb]
    · simpa [cString, List.takeWhile_cons, hb] using ih

/-! ## Decimal numerals -/

/-- The digits of a natural number. -/
def digits (n : ℕ) : List UInt8 := (Nat.toDigits 10 n).map charByte

/-- The decimal text of an integer. -/
def decimal (z : ℤ) : List UInt8 :=
  if z < 0 then ascii "-" ++ digits z.natAbs else digits z.natAbs

/-- The number of which the bytes are the digits. -/
def readNat (l : List UInt8) : ℕ := l.foldl (fun n b => n * 10 + (b.toNat - 48)) 0

/-- The integer that a decimal text denotes. -/
def readInt : List UInt8 → ℤ
  | 45 :: l => -(readNat l : ℤ)
  | l => readNat l

/-- The bytes between `0` and `9`. -/
def IsDigit (b : UInt8) : Prop := 48 ≤ b ∧ b ≤ 57

instance (b : UInt8) : Decidable (IsDigit b) := inferInstanceAs (Decidable (_ ∧ _))

theorem toNat_charByte_of_isDigit {c : Char} (h : c.isDigit = true) :
    (charByte c).toNat = c.toNat := by
  have hc : c.toNat ≤ 57 := by
    simp only [Char.isDigit, Bool.and_eq_true, decide_eq_true_eq] at h
    exact h.2
  rw [charByte, UInt8.toNat_ofNat']
  omega

theorem isDigit_of_mem_digits {n : ℕ} {b : UInt8} (h : b ∈ digits n) : IsDigit b := by
  obtain ⟨c, hc, rfl⟩ := List.mem_map.mp h
  have hdigit := Nat.isDigit_of_mem_toDigits (by omega) (by omega) hc
  have hbyte := toNat_charByte_of_isDigit hdigit
  simp only [Char.isDigit, Bool.and_eq_true, decide_eq_true_eq] at hdigit
  exact ⟨UInt8.le_iff_toNat_le.mpr (hbyte ▸ hdigit.1), UInt8.le_iff_toNat_le.mpr (hbyte ▸ hdigit.2)⟩

/-- Digits are no separators. -/
theorem IsDigit.ne {b c : UInt8} (h : IsDigit b) (hc : c < 48) : b ≠ c := by
  rintro rfl
  exact absurd h.1 (UInt8.not_le.mpr hc)

theorem digits_ne_nil (n : ℕ) : digits n ≠ [] := by
  rw [digits, ne_eq, List.map_eq_nil_iff]
  exact Nat.toDigits_ne_nil

theorem readNat_digits (n : ℕ) : readNat (digits n) = n := by
  have hfold : ∀ (cs : List Char) (init : ℕ), (∀ c ∈ cs, c.isDigit = true) →
      (cs.map charByte).foldl (fun n b => n * 10 + (b.toNat - 48)) init =
        Nat.ofDigitChars 10 cs init := by
    intro cs
    induction cs with
    | nil => exact fun _ _ => rfl
    | cons c cs ih =>
      intro init hcs
      rw [List.map_cons, List.foldl_cons, ih _ fun d hd => hcs d (List.mem_cons_of_mem _ hd),
        Nat.ofDigitChars_cons, toNat_charByte_of_isDigit (hcs c List.mem_cons_self), Nat.mul_comm]
      rfl
  rw [readNat, digits, hfold _ _ fun c hc => Nat.isDigit_of_mem_toDigits (by omega) (by omega) hc,
    Nat.ofDigitChars_ten_toDigits]

theorem readInt_digits (n : ℕ) : readInt (digits n) = n := by
  unfold readInt
  split
  · rename_i l heq
    have hminus : (45 : UInt8) ∈ digits n := heq ▸ List.mem_cons_self
    exact absurd (isDigit_of_mem_digits hminus) (by decide)
  · rw [readNat_digits]

/-- **The decimal text of an integer denotes it.** -/
theorem readInt_decimal (z : ℤ) : readInt (decimal z) = z := by
  unfold decimal
  split
  · rename_i hneg
    change -(readNat (digits z.natAbs) : ℤ) = z
    rw [readNat_digits]
    omega
  · rw [readInt_digits]
    omega

/-- A decimal text is made of digits and the minus. -/
theorem mem_decimal {z : ℤ} {b : UInt8} (h : b ∈ decimal z) : b = 45 ∨ IsDigit b := by
  unfold decimal at h
  split at h
  · rcases List.mem_append.mp h with h | h
    · exact .inl (List.mem_singleton.mp h)
    · exact .inr (isDigit_of_mem_digits h)
  · exact .inr (isDigit_of_mem_digits h)

theorem decimal_ne_nil (z : ℤ) : decimal z ≠ [] := by
  unfold decimal
  split
  · exact List.append_ne_nil_of_right_ne_nil _ (digits_ne_nil _)
  · exact digits_ne_nil _

/-- The text without the minus. -/
def unsigned (l : List UInt8) : List UInt8 := if l.head? = some 45 then l.tail else l

/-- The text is a decimal numeral. -/
def IsNumeral (l : List UInt8) : Prop := unsigned l ≠ [] ∧ ∀ b ∈ unsigned l, IsDigit b

instance (l : List UInt8) : Decidable (IsNumeral l) := inferInstanceAs (Decidable (_ ∧ _))

theorem unsigned_digits (n : ℕ) : unsigned (digits n) = digits n := by
  refine if_neg fun h => ?_
  have hminus : (45 : UInt8) ∈ digits n := List.mem_of_mem_head? (Option.mem_def.mpr h)
  exact absurd (isDigit_of_mem_digits hminus) (by decide)

theorem unsigned_decimal (z : ℤ) : unsigned (decimal z) = digits z.natAbs := by
  unfold decimal
  split
  · rfl
  · exact unsigned_digits _

theorem isNumeral_decimal (z : ℤ) : IsNumeral (decimal z) := by
  rw [IsNumeral, unsigned_decimal]
  exact ⟨digits_ne_nil _, fun _ => isDigit_of_mem_digits⟩

/-! ## Hexadecimal numerals -/

/-- The digit of a number below 16, in lower case. -/
def hexDigit (n : ℕ) : UInt8 := if n < 10 then UInt8.ofNat (48 + n) else UInt8.ofNat (87 + n)

/-- The two digits of a byte. -/
def hexByte (b : UInt8) : List UInt8 := [hexDigit (b.toNat / 16), hexDigit (b.toNat % 16)]

/-- The value of a digit. -/
def hexValue (b : UInt8) : Option ℕ :=
  if 48 ≤ b ∧ b ≤ 57 then some (b.toNat - 48)
  else if 97 ≤ b ∧ b ≤ 102 then some (b.toNat - 87)
  else none

/-- The bytes whose digits the list holds, two for each. -/
def readHex : List UInt8 → Option (List UInt8)
  | [] => some []
  | [_] => none
  | a :: b :: l =>
    match hexValue a, hexValue b, readHex l with
    | some m, some n, some bytes => some (UInt8.ofNat (16 * m + n) :: bytes)
    | _, _, _ => none

@[simp] theorem length_hexByte (b : UInt8) : (hexByte b).length = 2 := rfl

theorem le_hexDigit {n : ℕ} (h : n < 16) : 48 ≤ hexDigit n := by
  interval_cases n <;> decide

/-- Hexadecimal digits are no separators. -/
theorem le_of_mem_hexByte {b c : UInt8} (h : c ∈ hexByte b) : 48 ≤ c := by
  have hb := b.toNat_lt
  simp only [hexByte, List.mem_cons, List.not_mem_nil, or_false] at h
  rcases h with rfl | rfl
  · exact le_hexDigit (by omega)
  · exact le_hexDigit (by omega)

theorem hexValue_hexDigit {n : ℕ} (h : n < 16) : hexValue (hexDigit n) = some n := by
  interval_cases n <;> rfl

theorem readHex_hexByte (b : UInt8) (l : List UInt8) :
    readHex (hexByte b ++ l) = (readHex l).map (b :: ·) := by
  have hb := b.toNat_lt
  have hvalue : UInt8.ofNat (16 * (b.toNat / 16) + b.toNat % 16) = b := by
    rw [Nat.div_add_mod, UInt8.ofNat_toNat]
  simp only [hexByte, List.cons_append, List.nil_append, readHex,
    hexValue_hexDigit (show b.toNat / 16 < 16 by omega),
    hexValue_hexDigit (show b.toNat % 16 < 16 by omega)]
  cases readHex l with
  | none => rfl
  | some bytes =>
    change some (UInt8.ofNat (16 * (b.toNat / 16) + b.toNat % 16) :: bytes) = _
    rw [hvalue, Option.map_some]

/-- **The digits of bytes are read back as the bytes.** -/
theorem readHex_flatMap_hexByte (data : List UInt8) :
    readHex (data.flatMap hexByte) = some data := by
  induction data with
  | nil => rfl
  | cons b data ih => rw [List.flatMap_cons, readHex_hexByte, ih, Option.map_some]

theorem length_flatMap_hexByte (data : List UInt8) :
    (data.flatMap hexByte).length = 2 * data.length := by
  induction data with
  | nil => rfl
  | cons b data ih =>
    rw [List.flatMap_cons, List.length_append, ih, length_hexByte, List.length_cons]
    omega

end Foundations
