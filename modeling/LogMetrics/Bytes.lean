/-!
# Byte strings, `char` and `size_t`

`std::string` and `std::string_view` are modelled as lists of bytes. The
program is built where `char` is a signed 8-bit type, so a byte handed to a
`<cctype>` function is promoted to a possibly negative `int` first
(`toInt`); the two functions the program calls are given on all of `int`, as
the "C" locale has them: outside `0..255` (where the standard leaves them
undefined) nothing is white space and nothing has a lower case.

`size_t` values are `Nat`s below `2 ^ 64`; an operation of the program that
can wrap says so with `sizeAdd`. Lengths of strings and containers are plain
`Nat`s, since no container has `2 ^ 64` elements.
-/

namespace LogMetrics

abbrev Byte := UInt8

/-- `std::string`, `std::string_view`. -/
abbrev Bytes := List Byte

/-- The bytes of a string literal. -/
def ascii (literal : String) : Bytes := literal.toList.map fun c => UInt8.ofNat c.toNat

/-- The integer promotion of a signed `char`. -/
def toInt (c : Byte) : Int := c.toInt8.toInt

/-- `std::isspace` in the "C" locale: the blank and `'\t'` to `'\r'`. -/
def isspace (c : Int) : Bool := c == 32 || (decide (9 ≤ c) && decide (c ≤ 13))

/-- `::tolower` in the "C" locale. -/
def tolower (c : Int) : Int := if 65 ≤ c ∧ c ≤ 90 then c + 32 else c

/-- `std::transform(s.begin(), s.end(), s.begin(), ::tolower)`. -/
def transformTolower (s : Bytes) : Bytes := s.map fun c => UInt8.ofInt (tolower (toInt c))

/-- `std::isspace` of a `char`. -/
def isspaceChar (c : Byte) : Bool := isspace (toInt c)

/-- A property of all bytes, checked value by value. -/
theorem forall_byte {P : Byte → Prop} (h : ∀ n : Fin 256, P (UInt8.ofNat n)) (c : Byte) : P c := by
  have hc := h ⟨c.toNat, c.toNat_lt⟩
  rwa [UInt8.ofNat_toNat] at hc

/-! ## `size_t` -/

/-- The number of values of `size_t`. -/
abbrev sizeMod : Nat := 18446744073709551616

/-- `std::numeric_limits<size_t>::max()`. -/
def sizeMax : Nat := sizeMod - 1

/-- Addition of `size_t` values wraps. -/
def sizeAdd (a b : Nat) : Nat := (a + b) % sizeMod

theorem sizeAdd_eq {a b : Nat} (h : a + b < sizeMod) : sizeAdd a b = a + b :=
  Nat.mod_eq_of_lt h

theorem sizeAdd_lt (a b : Nat) : sizeAdd a b < sizeMod := Nat.mod_lt _ (by decide)

/-- Counting on by one always changes the count, also when it wraps. -/
theorem sizeAdd_one_ne (n : Nat) : sizeAdd n 1 ≠ n := by
  unfold sizeAdd sizeMod
  omega

end LogMetrics
