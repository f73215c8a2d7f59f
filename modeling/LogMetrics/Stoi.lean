import LogMetrics.Base.Strip
import LogMetrics.Decimal

/-!
# `std::stoi`

White space is skipped, a sign is optional, and the longest run of decimal
digits behind it is the number; `std::stoi` throws when there is no digit or
the value is not an `int`, and says nothing about the characters behind the
digits. `stoi_eq_some_iff` puts this against the grammar of whole numerals
(`Numeral`).
-/

namespace LogMetrics

open LogMetrics.Base

/-- `INT_MIN`. -/
def intMin : Int := -2147483648

/-- `INT_MAX`. -/
def intMax : Int := 2147483647

/-- A sign, if there is one, and the text behind it. -/
def takeSign : Bytes → Int × Bytes
  | [] => (1, [])
  | c :: text =>
    if c = '-'.toUInt8 then (-1, text)
    else if c = '+'.toUInt8 then (1, text)
    else (1, c :: text)

/-- `std::stoi`; `none` where it throws. -/
def stoi (text : Bytes) : Option Int :=
  let (sign, text) := takeSign (text.dropWhile isspaceChar)
  let digits := text.takeWhile isdigit
  if digits.isEmpty then none
  else
    let value := sign * decimalValue digits
    if intMin ≤ value ∧ value ≤ intMax then some value else none

/-- The signs of a numeral. -/
def signs : List (Bytes × Int) := [([], 1), (ascii "+", 1), (ascii "-", -1)]

/-- A decimal numeral: white space, a sign if any, and digits. -/
inductive Numeral : Bytes → Int → Prop
  | intro {blanks sign digits : Bytes} {factor : Int}
    (hblanks : ∀ c ∈ blanks, isspaceChar c = true) (hsign : (sign, factor) ∈ signs)
    (hne : digits ≠ []) (hdigits : ∀ c ∈ digits, isdigit c = true) :
    Numeral (blanks ++ (sign ++ digits)) (factor * decimalValue digits)

/-- The text does not go on with a digit. -/
def EndsNumeral (tail : Bytes) : Prop := ∀ c ∈ tail.head?, isdigit c = false

/-! ## Scanning -/

theorem isspaceChar_digit {c : Byte} (h : isdigit c = true) : isspaceChar c = false :=
  forall_byte (P := fun c => isdigit c = true → isspaceChar c = false) (by decide +kernel) c h

theorem takeSign_digit {c : Byte} (h : isdigit c = true) (text : Bytes) :
    takeSign (c :: text) = (1, c :: text) := by
  have hplain : c ≠ '-'.toUInt8 ∧ c ≠ '+'.toUInt8 :=
    forall_byte (P := fun c => isdigit c = true → c ≠ '-'.toUInt8 ∧ c ≠ '+'.toUInt8)
      (by decide +kernel) c h
  rw [takeSign, if_neg hplain.1, if_neg hplain.2]

/-- The sign of a numeral is taken off. -/
theorem takeSign_numeral {sign digits : Bytes} {factor : Int} (hsign : (sign, factor) ∈ signs)
    (hne : digits ≠ []) (hdigits : ∀ c ∈ digits, isdigit c = true) (tail : Bytes) :
    takeSign (sign ++ digits ++ tail) = (factor, digits ++ tail) := by
  simp only [signs, List.mem_cons, Prod.mk.injEq, List.not_mem_nil, or_false] at hsign
  rcases hsign with ⟨rfl, rfl⟩ | ⟨rfl, rfl⟩ | ⟨rfl, rfl⟩
  · obtain ⟨d, digits, rfl⟩ := List.exists_cons_of_ne_nil hne
    exact takeSign_digit (hdigits d List.mem_cons_self) (digits ++ tail)
  · rfl
  · rfl

/-- What stands behind the white space of a numeral is not white space. -/
theorem numeral_head {sign digits : Bytes} {factor : Int} (hsign : (sign, factor) ∈ signs)
    (hne : digits ≠ []) (hdigits : ∀ c ∈ digits, isdigit c = true) (tail : Bytes) :
    ∀ c ∈ (sign ++ digits ++ tail).head?, isspaceChar c = false := by
  simp only [signs, List.mem_cons, Prod.mk.injEq, List.not_mem_nil, or_false] at hsign
  obtain ⟨d, digits, rfl⟩ := List.exists_cons_of_ne_nil hne
  intro c hc
  rcases hsign with ⟨rfl, rfl⟩ | ⟨rfl, rfl⟩ | ⟨rfl, rfl⟩
  · obtain rfl := Option.some.inj hc
    exact isspaceChar_digit (hdigits d List.mem_cons_self)
  · obtain rfl := Option.some.inj hc
    decide
  · obtain rfl := Option.some.inj hc
    decide

/-- A numeral ends with a digit. -/
theorem Numeral.last {text : Bytes} {value : Int} (h : Numeral text value) :
    ∀ c ∈ text.getLast?, isdigit c = true := by
  cases h with
  | @intro blanks sign digits factor hblanks hsign hne hdigits =>
    intro c hc
    rw [← List.append_assoc, List.getLast?_append_of_ne_nil _ hne] at hc
    exact hdigits c (List.mem_of_getLast? hc)

/-- White space and sign are scanned off a numeral, with any text behind it. -/
theorem scan_numeral {word : Bytes} {value : Int} (hword : Numeral word value) :
    ∃ factor : Int, ∃ digits : Bytes, digits ≠ [] ∧ (∀ c ∈ digits, isdigit c = true)
      ∧ value = factor * decimalValue digits
      ∧ ∀ tail, takeSign ((word ++ tail).dropWhile isspaceChar) = (factor, digits ++ tail) := by
  cases hword with
  | @intro blanks sign digits factor hblanks hsign hne hdigits =>
    refine ⟨factor, digits, hne, hdigits, rfl, fun tail => ?_⟩
    rw [List.append_assoc, dropWhile_span hblanks (numeral_head hsign hne hdigits tail),
      takeSign_numeral hsign hne hdigits]

/-- `std::stoi` at a numeral that ends where the digits end. -/
theorem stoi_numeral {word tail : Bytes} {value : Int} (hword : Numeral word value)
    (htail : EndsNumeral tail) :
    stoi (word ++ tail) = if intMin ≤ value ∧ value ≤ intMax then some value else none := by
  obtain ⟨factor, digits, hne, hdigits, rfl, hscan⟩ := scan_numeral hword
  rw [stoi, hscan]
  dsimp only
  rw [takeWhile_span hdigits htail, if_neg (by simpa using hne)]

/-- What is left of a text behind the digits `std::stoi` reads. -/
def stoiRest (text : Bytes) : Bytes :=
  (takeSign (text.dropWhile isspaceChar)).2.dropWhile isdigit

theorem stoiRest_numeral {word tail : Bytes} {value : Int} (hword : Numeral word value)
    (htail : EndsNumeral tail) : stoiRest (word ++ tail) = tail := by
  obtain ⟨factor, digits, -, hdigits, -, hscan⟩ := scan_numeral hword
  rw [stoiRest, hscan]
  exact dropWhile_span hdigits htail

/-- Taking off the sign splits the text. -/
theorem takeSign_split (text : Bytes) :
    ∃ sign, (sign, (takeSign text).1) ∈ signs ∧ text = sign ++ (takeSign text).2 := by
  match text with
  | [] => exact ⟨[], by decide, rfl⟩
  | c :: text =>
    rw [takeSign]
    split
    next hminus => exact ⟨ascii "-", by simp [signs], by rw [hminus]; rfl⟩
    next =>
      split
      next hplus => exact ⟨ascii "+", by simp [signs], by rw [hplus]; rfl⟩
      next => exact ⟨[], by simp [signs], rfl⟩

/-- **`std::stoi` reads a numeral that is an `int` off the front of the text.** -/
theorem stoi_eq_some_iff {text : Bytes} {value : Int} :
    stoi text = some value
      ↔ ∃ word tail, text = word ++ tail ∧ Numeral word value ∧ EndsNumeral tail
          ∧ intMin ≤ value ∧ value ≤ intMax := by
  constructor
  · intro h
    obtain ⟨sign, hsign, hsplit⟩ := takeSign_split (text.dropWhile isspaceChar)
    unfold stoi at h
    dsimp only at h
    split at h
    next => exact absurd h (by simp)
    next hne =>
      split at h
      next hrange =>
        obtain rfl := Option.some.inj h
        refine ⟨text.takeWhile isspaceChar ++ _, stoiRest text, ?_,
          .intro (fun c hc => List.mem_takeWhile_imp hc) hsign (mt List.isEmpty_iff.2 hne)
            (fun c hc => List.mem_takeWhile_imp hc), head?_dropWhile _, hrange⟩
        rw [stoiRest, List.append_assoc, List.append_assoc, List.takeWhile_append_dropWhile,
          ← hsplit, List.takeWhile_append_dropWhile]
      next => exact absurd h (by simp)
  · rintro ⟨word, tail, rfl, hword, htail, hrange⟩
    rw [stoi_numeral hword htail, if_pos hrange]

end LogMetrics
