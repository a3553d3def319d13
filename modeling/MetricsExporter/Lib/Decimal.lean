/-
# MetricsExporter.Lib.Decimal -- decimal numerals and the usual readers of them

`numeral` and `intNumeral` are the canonical decimal numerals of a natural number and of an integer.
`unsigned` and `signed` read an optional sign and one or more ASCII digits, leading zeros included,
and nothing else. Reading a canonical numeral gives the number back, so canonical numerals of
different numbers differ.

The numbers are unbounded: whether a value fits a machine type is for the caller to ask. Left out
are the forms a reader may take besides these, with underscores, an exponent or another base. The
last part is about the octets of a numeral, one for each character, since a file holds no
characters.
-/
import Mathlib.Data.List.Basic

namespace MetricsExporter.Lib.Decimal

/-- The value of a non-empty string of ASCII digits. -/
def digitsValue (cs : List Char) : Option Nat :=
  if cs ≠ [] ∧ cs.all Char.isDigit then some (Nat.ofDigitChars 10 cs 0) else none

/-- An optional `+`, then digits. -/
def unsigned : List Char → Option Nat
  | '+' :: ds => digitsValue ds
  | ds => digitsValue ds

/-- An optional `+` or `-`, then digits. -/
def signed : List Char → Option Int
  | '-' :: ds => (digitsValue ds).map (fun n => -(n : Int))
  | '+' :: ds => (digitsValue ds).map (fun n => (n : Int))
  | ds => (digitsValue ds).map (fun n => (n : Int))

/-- The decimal numeral of `n`. -/
def numeral (n : Nat) : List Char := Nat.toDigits 10 n

/-- The decimal numeral of `i`, with a `-` in front when it is negative. -/
def intNumeral : Int → List Char
  | .ofNat n => numeral n
  | .negSucc n => '-' :: numeral (n + 1)

/-- Zero has a digit, too. -/
theorem numeral_ne_nil (n : Nat) : numeral n ≠ [] := Nat.toDigits_ne_nil

/-- A numeral has no sign, no blank and no point in it. -/
theorem isDigit_of_mem_numeral {n : Nat} {c : Char} (hc : c ∈ numeral n) : c.isDigit = true :=
  Nat.isDigit_of_mem_toDigits (by decide) (by decide) hc

/-- The digits of a number have its value. -/
@[simp]
theorem digitsValue_numeral (n : Nat) : digitsValue (numeral n) = some n := by
  have hall : (numeral n).all Char.isDigit = true :=
    List.all_eq_true.mpr fun _ hc => isDigit_of_mem_numeral hc
  rw [digitsValue, if_pos ⟨numeral_ne_nil n, hall⟩, numeral, Nat.ofDigitChars_ten_toDigits]

/-- No two numbers share a numeral. -/
theorem numeral_injective : Function.Injective numeral := by
  intro n m h
  have hvalue := congrArg digitsValue h
  simpa using hvalue

/-- A text that starts with a digit has no sign to skip. -/
theorem unsigned_of_isDigit {c : Char} {cs : List Char} (hc : c.isDigit = true) :
    unsigned (c :: cs) = digitsValue (c :: cs) := by
  unfold unsigned
  split
  next h =>
    obtain ⟨rfl, -⟩ := List.cons.inj h
    exact absurd hc (by decide)
  next => rfl

/-- The same where a `-` could stand as well. -/
theorem signed_of_isDigit {c : Char} {cs : List Char} (hc : c.isDigit = true) :
    signed (c :: cs) = (digitsValue (c :: cs)).map (fun n => (n : Int)) := by
  unfold signed
  -- neither sign is a digit
  split
  next h =>
    obtain ⟨rfl, -⟩ := List.cons.inj h
    exact absurd hc (by decide)
  next h =>
    obtain ⟨rfl, -⟩ := List.cons.inj h
    exact absurd hc (by decide)
  next => rfl

theorem isDigit_of_mem_digits {cs : List Char} {n : Nat} (h : digitsValue cs = some n) {c : Char}
    (hc : c ∈ cs) : c.isDigit = true := by
  unfold digitsValue at h
  split at h
  · rename_i hdigits
    exact List.all_eq_true.mp hdigits.2 c hc
  · cases h

/-- A text that is read consists of digits, behind a `+` or not. -/
theorem mem_of_unsigned {cs : List Char} {n : Nat} (h : unsigned cs = some n) {c : Char}
    (hc : c ∈ cs) : c = '+' ∨ c.isDigit = true := by
  unfold unsigned at h
  split at h
  · rcases List.mem_cons.mp hc with rfl | hc
    · exact .inl rfl
    · exact .inr (isDigit_of_mem_digits h hc)
  · exact .inr (isDigit_of_mem_digits h hc)

/-- **Round trip.** -/
@[simp]
theorem unsigned_numeral (n : Nat) : unsigned (numeral n) = some n := by
  obtain ⟨c, cs, hcs⟩ := List.exists_cons_of_ne_nil (numeral_ne_nil n)
  have hc : c.isDigit = true := isDigit_of_mem_numeral (n := n) (by simp [hcs])
  rw [hcs, unsigned_of_isDigit hc, ← hcs, digitsValue_numeral]

/-- **Round trip.** -/
@[simp]
theorem signed_intNumeral (i : Int) : signed (intNumeral i) = some i := by
  cases i with
  | ofNat n =>
      obtain ⟨c, cs, hcs⟩ := List.exists_cons_of_ne_nil (numeral_ne_nil n)
      have hc : c.isDigit = true := isDigit_of_mem_numeral (n := n) (by simp [hcs])
      rw [intNumeral, hcs, signed_of_isDigit hc, ← hcs, digitsValue_numeral]
      rfl
  | negSucc n =>
      simp only [intNumeral, signed, digitsValue_numeral]
      rfl

/-- Nor do two integers: the sign is part of the numeral. -/
theorem intNumeral_injective : Function.Injective intNumeral := by
  intro i j h
  have hsigned := congrArg signed h
  simpa using hsigned

/-! ## Numerals as octets -/

/-- The octets of an ASCII text. -/
def octets (cs : List Char) : List UInt8 := cs.map (fun c => UInt8.ofNat c.toNat)

/-- An octet list read as characters, one octet each. -/
def chars (bs : List UInt8) : List Char := bs.map (fun b => Char.ofNat b.toNat)

/-- The ten digits are the codes from 48 to 57. -/
theorem isDigit_toNat {c : Char} (hc : c.isDigit = true) : 48 ≤ c.toNat ∧ c.toNat ≤ 57 := by
  simp only [Char.isDigit, Bool.and_eq_true, decide_eq_true_eq] at hc
  exact hc

/-- Characters below 256 survive the way through octets. -/
theorem chars_octets {cs : List Char} (hcs : ∀ c ∈ cs, c.toNat < 256) :
    chars (octets cs) = cs := by
  have hback : ∀ c ∈ cs, Char.ofNat (UInt8.ofNat c.toNat).toNat = c := by
    intro c hc
    rw [UInt8.toNat_ofNat_of_lt' (hcs c hc), Char.ofNat_toNat]
  simp only [chars, octets, List.map_map]
  exact (List.map_congr_left hback).trans (List.map_id _)

/-- The characters of an integer numeral are digits, or the `-` in front. -/
theorem mem_intNumeral {i : Int} {c : Char} (hc : c ∈ intNumeral i) :
    c = '-' ∨ c.isDigit = true := by
  cases i with
  | ofNat n => exact .inr (isDigit_of_mem_numeral hc)
  | negSucc n =>
      rcases List.mem_cons.mp hc with rfl | hc
      · exact .inl rfl
      · exact .inr (isDigit_of_mem_numeral hc)

theorem intNumeral_ne_nil (i : Int) : intNumeral i ≠ [] := by
  cases i with
  | ofNat n => exact numeral_ne_nil n
  | negSucc n => exact List.cons_ne_nil _ _

theorem octets_ne_nil {cs : List Char} (hcs : cs ≠ []) : octets cs ≠ [] := by
  simpa [octets] using hcs

/-- A numeral is made of the octets of the ten digits. -/
theorem digit_of_mem_octets_numeral {n : Nat} {b : UInt8} (hb : b ∈ octets (numeral n)) :
    48 ≤ b.toNat ∧ b.toNat ≤ 57 := by
  obtain ⟨c, hc, rfl⟩ := List.mem_map.mp hb
  have hrange := isDigit_toNat (isDigit_of_mem_numeral hc)
  rw [UInt8.toNat_ofNat_of_lt' (show c.toNat < 256 by omega)]
  exact hrange

/-- An integer numeral is made of the octets of the ten digits and of `-`. -/
theorem mem_octets_intNumeral {i : Int} {b : UInt8} (hb : b ∈ octets (intNumeral i)) :
    b = 45 ∨ 48 ≤ b.toNat ∧ b.toNat ≤ 57 := by
  obtain ⟨c, hc, rfl⟩ := List.mem_map.mp hb
  rcases mem_intNumeral hc with rfl | hdigit
  · exact .inl rfl
  · have hrange := isDigit_toNat hdigit
    rw [UInt8.toNat_ofNat_of_lt' (show c.toNat < 256 by omega)]
    exact .inr hrange

@[simp]
theorem chars_octets_numeral (n : Nat) : chars (octets (numeral n)) = numeral n := by
  apply chars_octets
  intro c hc
  have hrange := isDigit_toNat (isDigit_of_mem_numeral hc)
  omega

@[simp]
theorem chars_octets_intNumeral (i : Int) : chars (octets (intNumeral i)) = intNumeral i := by
  apply chars_octets
  intro c hc
  rcases mem_intNumeral hc with rfl | hdigit
  · decide
  · have hrange := isDigit_toNat hdigit
    omega

end MetricsExporter.Lib.Decimal
