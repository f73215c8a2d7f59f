import LogMetrics.Decimal

/-!
# `get_current_timestamp`

`src/logger/utility.cpp`. A time point is its count of nanoseconds since the
epoch. `putTime` is what `std::localtime` and `std::put_time` make of a whole
second, and `readTime` a reader's way back. Counts are integers of any size:
the clock's 64 bits are left only by the product `ts` in nanoseconds in the
first second of its range, and the difference taken from it is right again.

The text ends in a point and six digits (`SS.ffffff`), but what is printed
there is a count of milliseconds, padded from the left: it denotes a thousand
times less. The text is within a millisecond of its instant only in the first
1.001 milliseconds of a second (`timestamp_denotes_iff`).
-/

namespace LogMetrics.Logger

/-- `std::chrono::floor<std::chrono::seconds>`: `duration_cast` truncates, and
a result above the time point is one too high. -/
def floorSeconds (now : Int) : Int :=
  let seconds := now.tdiv 1000000000
  if seconds * 1000000000 > now then seconds - 1 else seconds

/-- `duration_cast<std::chrono::milliseconds>(now - ts).count()`. -/
def millisBehind (now ts : Int) : Int := (now - ts * 1000000000).tdiv 1000000

/-- `get_current_timestamp` at `now`. -/
def getCurrentTimestamp (putTime : Int → Bytes) (now : Int) : Bytes :=
  let ts := floorSeconds now
  let ms := millisBehind now ts
  putTime ts ++ ascii "." ++ setw 6 '0'.toUInt8 (printInt ms)

/-- The text ends in a point and six digits, and `x` is the instant, in
nanoseconds, of its whole second and its digits as a fraction of a second. -/
inductive DenotesInstant (readTime : Bytes → Option Int) : Bytes → Int → Prop
  | intro {front digits : Bytes} {second : Int} (hsecond : readTime front = some second)
    (hlength : digits.length = 6) (hdigits : ∀ c ∈ digits, isdigit c = true) :
    DenotesInstant readTime (front ++ ascii "." ++ digits)
      (second * 1000000000 + decimalValue digits * 1000)

/-- A text denotes one instant. -/
theorem DenotesInstant.unique {readTime : Bytes → Option Int} {text : Bytes} {x y : Int}
    (hx : DenotesInstant readTime text x) (hy : DenotesInstant readTime text y) : x = y := by
  cases hx with
  | @intro front digits second hsecond hlength hdigits =>
    generalize htext : front ++ ascii "." ++ digits = text at hy
    cases hy with
    | @intro front' digits' second' hsecond' hlength' hdigits' =>
      obtain ⟨hfront, rfl⟩ := List.append_inj' htext (hlength.trans hlength'.symm)
      obtain ⟨rfl, -⟩ := List.append_inj' hfront rfl
      obtain rfl := Option.some.inj (hsecond.symm.trans hsecond')
      rfl

/-! ## The parts of a time point -/

/-- It is the floor, also before the epoch. -/
theorem floorSeconds_eq (now : Int) : floorSeconds now = now / 1000000000 := by
  have hsign : Int.sign 1000000000 = 1 := rfl
  unfold floorSeconds
  rw [Int.tdiv_eq_ediv, hsign]
  dsimp only
  split
  next => split <;> omega
  next => split <;> omega

theorem millisBehind_eq (now : Int) :
    millisBehind now (floorSeconds now) = now % 1000000000 / 1000000 := by
  have hrest : now - floorSeconds now * 1000000000 = now % 1000000000 := by
    rw [floorSeconds_eq]
    omega
  rw [millisBehind, hrest, Int.tdiv_eq_ediv_of_nonneg (Int.emod_nonneg now (by decide))]

/-- The six digits, and the number they make: the milliseconds. -/
theorem timestamp_digits (putTime : Int → Bytes) (now : Int) :
    ∃ digits, getCurrentTimestamp putTime now = putTime (floorSeconds now) ++ ascii "." ++ digits
      ∧ digits.length = 6 ∧ (∀ c ∈ digits, isdigit c = true)
      ∧ (decimalValue digits : Int) = now % 1000000000 / 1000000 := by
  obtain ⟨ms, hms⟩ : ∃ ms : Nat, now % 1000000000 / 1000000 = ms :=
    ⟨(now % 1000000000 / 1000000).toNat, by omega⟩
  have hlt : ms < 1000000 := by omega
  have hfits : (Nat.toDigits 10 ms).length ≤ 6 :=
    (Nat.length_toDigits_le_iff (by decide) (by decide)).2 hlt
  obtain ⟨hlength, hdigits, hvalue⟩ := setw_decimal hfits
  refine ⟨setw 6 '0'.toUInt8 (printNat ms), ?_, hlength, hdigits, ?_⟩
  · unfold getCurrentTimestamp
    dsimp only
    rw [millisBehind_eq, hms]
    rfl
  · rw [hvalue, hms]

/-- **The printed timestamp is of its instant only at the start of a second.**
Where the whole second is rendered as its reader reads it, the text is a point
and six digits behind it, and denotes an instant at most a millisecond before
`now` exactly in the first 1.001 milliseconds of a second. -/
theorem timestamp_denotes_iff {putTime : Int → Bytes} {readTime : Bytes → Option Int} {now : Int}
    (h : readTime (putTime (floorSeconds now)) = some (floorSeconds now)) :
    (∃ digits, getCurrentTimestamp putTime now = putTime (floorSeconds now) ++ ascii "." ++ digits
      ∧ digits.length = 6 ∧ ∀ c ∈ digits, isdigit c = true)
      ∧ ((∃ x, DenotesInstant readTime (getCurrentTimestamp putTime now) x
          ∧ x ≤ now ∧ now < x + 1000000)
        ↔ now % 1000000000 < 1001000) := by
  obtain ⟨digits, htext, hlength, hdigits, hvalue⟩ := timestamp_digits putTime now
  have hdenotes := DenotesInstant.intro h hlength hdigits
  rw [← htext] at hdenotes
  have hfloor := floorSeconds_eq now
  refine ⟨⟨digits, htext, hlength, hdigits⟩, ?_⟩
  constructor
  · intro hx
    obtain ⟨x, hx, hle, hlt⟩ := hx
    obtain rfl := hx.unique hdenotes
    omega
  · intro hstart
    exact ⟨_, hdenotes, by omega, by omega⟩

/-! ## On the first day -/

/-- A whole second of 1 January 1970, UTC. -/
def putFirstDay (second : Int) : Bytes :=
  ascii "1970-01-01 " ++ setw 2 '0'.toUInt8 (printInt (second / 3600)) ++ ascii ":"
    ++ setw 2 '0'.toUInt8 (printInt (second % 3600 / 60)) ++ ascii ":"
    ++ setw 2 '0'.toUInt8 (printInt (second % 60))

/-- The way back, by position. -/
def readFirstDay (text : Bytes) : Option Int :=
  if text.take 11 = ascii "1970-01-01 " then
    some (decimalValue ((text.drop 11).take 2) * 3600 + decimalValue ((text.drop 14).take 2) * 60
      + decimalValue ((text.drop 17).take 2))
  else none

/-- At 12:34:56.000789 the text is right. -/
theorem timestamp_denotes_noon :
    getCurrentTimestamp putFirstDay 45296000789000 = ascii "1970-01-01 12:34:56.000000"
      ∧ ∃ x, DenotesInstant readFirstDay (getCurrentTimestamp putFirstDay 45296000789000) x
        ∧ x ≤ 45296000789000 ∧ 45296000789000 < x + 1000000 :=
  ⟨by decide +kernel, (timestamp_denotes_iff (by decide +kernel)).2.2 (by decide)⟩

/-- At 0.12 seconds, the text `1970-01-01 00:00:00.000120` says 0.00012. -/
theorem timestamp_scale_off :
    ¬∀ (putTime : Int → Bytes) (readTime : Bytes → Option Int) (now : Int),
      readTime (putTime (floorSeconds now)) = some (floorSeconds now) →
        ∃ x, DenotesInstant readTime (getCurrentTimestamp putTime now) x
          ∧ x ≤ now ∧ now < x + 1000000 := by
  intro h
  obtain ⟨x, hx, -, hlt⟩ := h putFirstDay readFirstDay 120000000 (by decide +kernel)
  have htext : getCurrentTimestamp putFirstDay 120000000
      = ascii "1970-01-01 00:00:00" ++ ascii "." ++ ascii "000120" := by decide +kernel
  have hdenotes : DenotesInstant readFirstDay (getCurrentTimestamp putFirstDay 120000000) 120000 := by
    have hsecond : readFirstDay (ascii "1970-01-01 00:00:00") = some 0 := by decide +kernel
    rw [htext]
    exact .intro hsecond rfl (List.all_eq_true.1 (by decide))
  rw [hx.unique hdenotes] at hlt
  exact absurd hlt (by decide)

end LogMetrics.Logger
