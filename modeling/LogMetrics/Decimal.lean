import LogMetrics.Bytes

/-!
# Decimal numbers as text

The digits `std::stoi` reads and `<<` writes. A number printed and read back
is itself, also with `'0'`s in front (`setw_decimal`).
-/

namespace LogMetrics

/-- `'0'` to `'9'`. -/
def isdigit (c : Byte) : Bool := decide (48 ≤ c.toNat) && decide (c.toNat ≤ 57)

def digitValue (c : Byte) : Nat := c.toNat - 48

/-- The value of decimal digits, the first the most significant. -/
def decimalValue (digits : Bytes) : Nat :=
  digits.foldl (fun value c => 10 * value + digitValue c) 0

def charByte (c : Char) : Byte := UInt8.ofNat c.toNat

def printNat (n : Nat) : Bytes := (Nat.toDigits 10 n).map charByte

/-- `<<` of an integer. -/
def printInt : Int → Bytes
  | .ofNat n => printNat n
  | .negSucc n => '-'.toUInt8 :: printNat (n + 1)

/-- What `std::setw` and `std::setfill` make of the next text. -/
def setw (width : Nat) (fill : Byte) (text : Bytes) : Bytes :=
  List.replicate (width - text.length) fill ++ text

/-! ## Digits that are characters -/

section Digits

variable {cs : List Char}

theorem charByte_toNat {c : Char} (h : c.isDigit = true) :
    (charByte c).toNat = c.toNat ∧ 48 ≤ c.toNat ∧ c.toNat ≤ 57 := by
  have hc : 48 ≤ c.toNat ∧ c.toNat ≤ 57 := by
    simpa [Char.isDigit, UInt32.le_iff_toNat_le] using h
  refine ⟨?_, hc⟩
  rw [charByte, UInt8.toNat_ofNat']
  omega

theorem isdigit_map (h : ∀ c ∈ cs, c.isDigit = true) : ∀ b ∈ cs.map charByte, isdigit b = true := by
  intro b hb
  obtain ⟨c, hc, rfl⟩ := List.mem_map.mp hb
  obtain ⟨hbyte, hlow, hhigh⟩ := charByte_toNat (h c hc)
  rw [isdigit, hbyte]
  simp [hlow, hhigh]

/-- The two readings of digits agree. -/
theorem decimalValue_map (h : ∀ c ∈ cs, c.isDigit = true) :
    decimalValue (cs.map charByte) = Nat.ofDigitChars 10 cs 0 := by
  have hfold (value : Nat) : (cs.map charByte).foldl (fun value c => 10 * value + digitValue c) value
      = Nat.ofDigitChars 10 cs value := by
    induction cs generalizing value with
    | nil => rfl
    | cons c cs ih =>
      rw [List.map_cons, List.foldl_cons, ih fun c hc => h c (List.mem_cons_of_mem _ hc),
        Nat.ofDigitChars_cons, digitValue, (charByte_toNat (h c List.mem_cons_self)).1]
      rfl
  exact hfold 0

end Digits

/-- A number printed with leading zeros reads as itself. -/
theorem setw_decimal {width n : Nat} (h : (Nat.toDigits 10 n).length ≤ width) :
    (setw width '0'.toUInt8 (printNat n)).length = width
      ∧ (∀ c ∈ setw width '0'.toUInt8 (printNat n), isdigit c = true)
      ∧ decimalValue (setw width '0'.toUInt8 (printNat n)) = n := by
  have hchars : setw width '0'.toUInt8 (printNat n)
      = (List.replicate (width - (Nat.toDigits 10 n).length) '0' ++ Nat.toDigits 10 n).map charByte := by
    rw [setw, printNat, List.map_append, List.map_replicate, List.length_map]
    rfl
  have hdigits : ∀ c ∈ List.replicate (width - (Nat.toDigits 10 n).length) '0' ++ Nat.toDigits 10 n,
      c.isDigit = true := by
    intro c hc
    rcases List.mem_append.mp hc with hc | hc
    · rw [List.eq_of_mem_replicate hc]
      rfl
    · exact Nat.isDigit_of_mem_toDigits (by decide) (by decide) hc
  rw [hchars]
  refine ⟨?_, isdigit_map hdigits, ?_⟩
  · rw [List.length_map, List.length_append, List.length_replicate]
    omega
  · rw [decimalValue_map hdigits, Nat.ofDigitChars_append, Nat.ofDigitChars_replicate_zero,
      Nat.mul_zero, Nat.ofDigitChars_ten_toDigits]

/-- A number printed is digits that read as itself. -/
theorem printNat_decimal (n : Nat) :
    (∀ c ∈ printNat n, isdigit c = true) ∧ decimalValue (printNat n) = n := by
  obtain ⟨-, hdigits, hvalue⟩ := setw_decimal (Nat.le_refl (Nat.toDigits 10 n).length)
  have hself : setw (Nat.toDigits 10 n).length '0'.toUInt8 (printNat n) = printNat n := by
    rw [setw, printNat, List.length_map, Nat.sub_self]
    rfl
  rw [hself] at hdigits hvalue
  exact ⟨hdigits, hvalue⟩

end LogMetrics
