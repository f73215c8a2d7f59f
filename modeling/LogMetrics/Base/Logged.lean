import Mathlib.Control.Monad.Writer

/-!
# Computations that log their calls

A computation that calls into a library, with the log of the calls it made:
Mathlib's `Writer` over a list.

`Exact P x cond v` is the triple for such a computation: all its calls have
`P` exactly if `cond` holds, and then it returns `v`. Nothing is said about
the value otherwise, so a computation can be specified whose library does
anything at all once a call is wrong. The rules follow the computation: in
`x >>= f` the second part has to be specified only where the first one went
well, and only at the value specified for it (`Exact.bind`).
-/

namespace LogMetrics.Base

universe u

/-- A computation with the log of the calls it made, first call first. -/
abbrev Logged (ε : Type u) : Type u → Type u := Writer (List ε)

namespace Logged

variable {ε α β : Type u}

/-- What the computation returns. -/
def value (x : Logged ε α) : α := (Id.run x.run).1

/-- The calls it made. -/
def log (x : Logged ε α) : List ε := (Id.run x.run).2

/-- One call, and what the library returned. -/
def call (e : ε) (result : α) : Logged ε α := do
  tell [e]
  return result

@[simp] theorem value_pure (a : α) : value (pure a : Logged ε α) = a := rfl

@[simp] theorem log_pure (a : α) : log (pure a : Logged ε α) = [] := rfl

@[simp] theorem value_call (e : ε) (result : α) : value (call e result) = result := rfl

@[simp] theorem log_call (e : ε) (result : α) : log (call e result) = [e] := rfl

@[simp] theorem value_bind (x : Logged ε α) (f : α → Logged ε β) :
    value (x >>= f) = value (f x.value) := rfl

@[simp] theorem log_bind (x : Logged ε α) (f : α → Logged ε β) :
    log (x >>= f) = x.log ++ log (f x.value) := rfl

/-- Every call the computation makes has `P`. -/
def AllLogged (P : ε → Prop) (x : Logged ε α) : Prop := ∀ e ∈ x.log, P e

variable {P : ε → Prop} {C D : Prop}

/-- A sequence is right when both parts are. -/
theorem allLogged_bind {x : Logged ε α} {f : α → Logged ε β} :
    AllLogged P (x >>= f) ↔ AllLogged P x ∧ AllLogged P (f x.value) := by
  simp only [AllLogged, log_bind, List.forall_mem_append]

/-- All calls have `P` exactly under the condition, and then `v` is returned. -/
structure Exact (P : ε → Prop) (x : Logged ε α) (cond : Prop) (v : α) : Prop where
  allLogged_iff : AllLogged P x ↔ cond
  value_eq : cond → x.value = v

namespace Exact

/-- No call is made. -/
theorem pure (a : α) : Exact P (pure a) True a := by
  refine ⟨?_, fun _ => value_pure a⟩
  simp [AllLogged]

/-- One call is made; its result is known if the call has `P`. -/
theorem call {e : ε} {result v : α} (hresult : P e → result = v) :
    Exact P (call e result) (P e) v := by
  refine ⟨?_, fun he => (value_call e result).trans (hresult he)⟩
  simp [AllLogged]

/-- Two computations in sequence. -/
theorem bind {x : Logged ε α} {f : α → Logged ε β} {v : α} {w : β} (hx : Exact P x C v)
    (hf : C → Exact P (f v) D w) : Exact P (x >>= f) (C ∧ D) w := by
  constructor
  · rw [allLogged_bind, hx.allLogged_iff]
    -- the second part is run at the value of the first only where that went well
    have hsecond : C → (AllLogged P (f x.value) ↔ D) := by
      intro hC
      rw [hx.value_eq hC]
      exact (hf hC).allLogged_iff
    exact and_congr_right hsecond
  · intro hCD
    obtain ⟨hC, hD⟩ := hCD
    rw [value_bind, hx.value_eq hC]
    exact (hf hC).value_eq hD

/-- The same condition in other words. -/
theorem congr {x : Logged ε α} {v : α} (h : Exact P x C v) (hiff : C ↔ D) : Exact P x D v := by
  refine ⟨h.allLogged_iff.trans hiff, fun hD => ?_⟩
  exact h.value_eq (hiff.mpr hD)

/-- A computation whose value is passed on. -/
theorem bind_pure {x : Logged ε α} {v : α} (h : Exact P x C v) (g : α → β) :
    Exact P (x >>= fun a => Pure.pure (g a)) C (g v) :=
  (h.bind fun _ => pure (g v)).congr (and_iff_left trivial)

/-- A computation for each element of a list, in turn. -/
theorem mapM' {f : α → Logged ε β} {cond : α → Prop} {g : α → β}
    (h : ∀ a, Exact P (f a) (cond a) (g a)) (l : List α) :
    Exact P (l.mapM' f) (∀ a ∈ l, cond a) (l.map g) := by
  induction l with
  | nil => exact (pure []).congr (by simp)
  | cons a l ih =>
    rw [List.mapM'_cons, List.map_cons]
    have hrest : Exact P (List.mapM' f l >>= fun bs => Pure.pure (g a :: bs))
        (∀ a' ∈ l, cond a') (g a :: l.map g) := ih.bind_pure (g a :: ·)
    exact ((h a).bind fun _ => hrest).congr List.forall_mem_cons.symm

end Exact

end Logged

end LogMetrics.Base
