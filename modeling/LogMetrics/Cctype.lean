import LogMetrics.Base.Logged
import LogMetrics.Bytes

/-!
# The calls of `<cctype>`

`std::isspace` and `::tolower` take an `int` that is `EOF` or the value of an
`unsigned char`; what they do with any other is undefined. A `Cctype` is a C
library that keeps to this: it answers as the "C" locale has it where the
argument is in the domain, and in any way at all elsewhere. The programs hand
over a `char` as it is, so that the bytes from 128 to 254 come as the numbers
from -128 to -2, outside the domain, and the byte 255 as `EOF`
(`inDomain_toInt_iff`).

`Bytes` has the two functions on all of `int`. Here each call is logged with
its argument, and it is the one of `Bytes` where it is in the domain
(`Cctype.agrees`); for the library that is the one of `Bytes` everywhere,
each call is (`agrees_cLocale`). Both are `Cctype.Agrees`, and what the
programs make of a text is derived from that.
-/

namespace LogMetrics

open LogMetrics.Base
open LogMetrics.Base.Logged (call Exact)

/-- `EOF`. -/
def eof : Int := -1

/-- What the standard defines the functions of `<cctype>` for. -/
def InDomain (c : Int) : Prop := c = eof ∨ 0 ≤ c ∧ c ≤ 255

instance (c : Int) : Decidable (InDomain c) :=
  inferInstanceAs (Decidable (c = eof ∨ 0 ≤ c ∧ c ≤ 255))

/-- A call, with its argument. -/
inductive CtypeCall where
  | isspace (c : Int)
  | tolower (c : Int)
  deriving DecidableEq, Repr

namespace CtypeCall

def argument : CtypeCall → Int
  | isspace c => c
  | tolower c => c

/-- The call's argument is in the domain. -/
def Defined (e : CtypeCall) : Prop := InDomain e.argument

instance (e : CtypeCall) : Decidable e.Defined :=
  inferInstanceAs (Decidable (InDomain e.argument))

end CtypeCall

/-- A C library. -/
structure Cctype where
  isspace : Int → Bool
  tolower : Int → Int
  isspace_eq : ∀ c, InDomain c → isspace c = LogMetrics.isspace c
  tolower_eq : ∀ c, InDomain c → tolower c = LogMetrics.tolower c

/-- The library that answers out of the domain as `Bytes` has it. -/
def cLocale : Cctype where
  isspace := isspace
  tolower := tolower
  isspace_eq _ _ := rfl
  tolower_eq _ _ := rfl

/-- A byte that a signed `char` hands over in the domain. -/
def Plain (c : Byte) : Prop := c.toNat < 128 ∨ c.toNat = 255

instance (c : Byte) : Decidable (Plain c) :=
  inferInstanceAs (Decidable (c.toNat < 128 ∨ c.toNat = 255))

theorem inDomain_toInt_iff (c : Byte) : InDomain (toInt c) ↔ Plain c :=
  forall_byte (P := fun c => InDomain (toInt c) ↔ Plain c) (by decide +kernel) c

namespace Cctype

/-- `std::isspace` of a `char`. -/
def isspaceChar (lib : Cctype) (c : Byte) : Logged CtypeCall Bool :=
  call (.isspace (toInt c)) (lib.isspace (toInt c))

/-- `::tolower` of a `char`, put back into a `char`. -/
def tolowerChar (lib : Cctype) (c : Byte) : Logged CtypeCall Byte :=
  call (.tolower (toInt c)) (UInt8.ofInt (lib.tolower (toInt c)))

/-- `std::transform(s.begin(), s.end(), s.begin(), ::tolower)`. -/
def transformTolower (lib : Cctype) (s : Bytes) : Logged CtypeCall Bytes :=
  s.mapM' lib.tolowerChar

/-- The library's calls have `P` exactly for the bytes that are `good`, which
all of ASCII is, and for these they are the functions of `Bytes`. -/
structure Agrees (lib : Cctype) (P : CtypeCall → Prop) (good : Byte → Prop) : Prop where
  isspaceChar : ∀ c, Exact P (lib.isspaceChar c) (good c) (LogMetrics.isspaceChar c)
  tolowerChar : ∀ c,
    Exact P (lib.tolowerChar c) (good c) (UInt8.ofInt (LogMetrics.tolower (toInt c)))
  good_ascii : ∀ c : Byte, c.toNat < 128 → good c

/-- Any library agrees with `Bytes` in the domain. -/
theorem agrees (lib : Cctype) : lib.Agrees CtypeCall.Defined Plain where
  isspaceChar c := by
    have hcall : Exact CtypeCall.Defined (lib.isspaceChar c) (InDomain (toInt c))
        (LogMetrics.isspaceChar c) := .call (lib.isspace_eq _)
    exact hcall.congr (inDomain_toInt_iff c)
  tolowerChar c := by
    have hcall : Exact CtypeCall.Defined (lib.tolowerChar c) (InDomain (toInt c))
        (UInt8.ofInt (LogMetrics.tolower (toInt c))) := by
      refine .call fun hdomain => ?_
      have hresult := lib.tolower_eq (toInt c) hdomain
      rw [hresult]
    exact hcall.congr (inDomain_toInt_iff c)
  good_ascii _ h := Or.inl h

/-- The library of `Bytes` agrees with it everywhere. -/
theorem agrees_cLocale : cLocale.Agrees (fun _ => True) fun _ => True where
  isspaceChar _ := .call fun _ => rfl
  tolowerChar _ := .call fun _ => rfl
  good_ascii _ _ := trivial

/-- The lower case of a text is asked for byte by byte. -/
theorem Agrees.transformTolower {lib : Cctype} {P : CtypeCall → Prop} {good : Byte → Prop}
    (h : lib.Agrees P good) (s : Bytes) :
    Exact P (lib.transformTolower s) (∀ c ∈ s, good c) (LogMetrics.transformTolower s) :=
  Exact.mapM' h.tolowerChar s

end Cctype

end LogMetrics
