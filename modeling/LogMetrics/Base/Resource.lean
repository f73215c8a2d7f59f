import Mathlib.Data.Multiset.AddSub
import Mathlib.Data.Multiset.Count

/-!
# Resources acquired, used and released

A trace of a program that acquires resources of type `ρ`, applies operations
of type `ι` to them and releases them. `Legal held es held'`: with `held` in
hand, the trace `es` releases and uses only what it holds, and leaves `held'`.
The same resource may be acquired again after it was released, or twice at a
time, so what is held is a multiset.

Read off a legal trace that starts with nothing: each release is of a resource
acquired more often than released so far (`Legal.release_owned`), so is each
use (`Legal.use_owned`), and a trace that ends with nothing has released
everything as often as it acquired it (`Legal.all_released`).
-/

namespace LogMetrics.Base

universe u v

inductive ResourceEvent (ρ : Type u) (ι : Type v) where
  | acquire (r : ρ)
  | release (r : ρ)
  | use (op : ι) (r : ρ)
  deriving DecidableEq, Repr

variable {ρ : Type u} {ι : Type v}

inductive Legal : Multiset ρ → List (ResourceEvent ρ ι) → Multiset ρ → Prop
  | nil {held : Multiset ρ} : Legal held [] held
  | acquire {held held' : Multiset ρ} {r : ρ} {es : List (ResourceEvent ρ ι)}
    (h : Legal (r ::ₘ held) es held') : Legal held (.acquire r :: es) held'
  | release {held held' : Multiset ρ} {r : ρ} {es : List (ResourceEvent ρ ι)}
    (h : Legal held es held') : Legal (r ::ₘ held) (.release r :: es) held'
  | use {held held' : Multiset ρ} {op : ι} {r : ρ} {es : List (ResourceEvent ρ ι)}
    (hmem : r ∈ held) (h : Legal held es held') : Legal held (.use op r :: es) held'

namespace Legal

variable {held mid held' : Multiset ρ} {es fs : List (ResourceEvent ρ ι)}

theorem append (h : Legal held es mid) (h' : Legal mid fs held') : Legal held (es ++ fs) held' := by
  induction h with
  | nil => exact h'
  | acquire _ ih => exact .acquire (ih h')
  | release _ ih => exact .release (ih h')
  | use hmem _ ih => exact .use hmem (ih h')

/-- A trace passes through what is held between its parts. -/
theorem append_inv (h : Legal held (es ++ fs) held') :
    ∃ mid, Legal held es mid ∧ Legal mid fs held' := by
  induction es generalizing held with
  | nil => exact ⟨held, .nil, h⟩
  | cons e es ih =>
    cases h with
    | acquire h =>
      obtain ⟨mid, hes, hfs⟩ := ih h
      exact ⟨mid, .acquire hes, hfs⟩
    | release h =>
      obtain ⟨mid, hes, hfs⟩ := ih h
      exact ⟨mid, .release hes, hfs⟩
    | use hmem h =>
      obtain ⟨mid, hes, hfs⟩ := ih h
      exact ⟨mid, .use hmem hes, hfs⟩

end Legal

section Count

variable [DecidableEq ρ]

/-- How often the resource was acquired. -/
def acquires (r : ρ) (es : List (ResourceEvent ρ ι)) : Nat :=
  es.countP fun
    | .acquire r' => r' == r
    | _ => false

/-- How often the resource was released. -/
def releases (r : ρ) (es : List (ResourceEvent ρ ι)) : Nat :=
  es.countP fun
    | .release r' => r' == r
    | _ => false

theorem acquire_mem {r : ρ} {es : List (ResourceEvent ρ ι)} (h : 0 < acquires r es) :
    .acquire r ∈ es := by
  obtain ⟨e, he, hr⟩ := List.countP_pos_iff.1 h
  cases e with
  | acquire r' =>
    obtain rfl := beq_iff_eq.1 hr
    exact he
  | release r' => exact absurd hr (by simp)
  | use op r' => exact absurd hr (by simp)

namespace Legal

variable {held held' : Multiset ρ} {es : List (ResourceEvent ρ ι)}

/-- What was held and what was acquired is what was released and what is
held. -/
theorem balance (h : Legal held es held') (r : ρ) :
    held.count r + acquires r es = releases r es + held'.count r := by
  induction h with
  | nil => simp [acquires, releases]
  | acquire _ ih =>
    rw [Multiset.count_cons] at ih
    simp only [acquires, releases, List.countP_cons, beq_iff_eq] at ih ⊢
    grind
  | release _ ih =>
    rw [Multiset.count_cons]
    simp only [acquires, releases, List.countP_cons, beq_iff_eq] at ih ⊢
    grind
  | use _ _ ih => simpa [acquires, releases, List.countP_cons] using ih

theorem acquired_of_mem {r : ρ} (h : Legal 0 es held) (hr : r ∈ held) :
    releases r es < acquires r es := by
  have hbalance := h.balance r
  have hpos := Multiset.count_pos.2 hr
  rw [Multiset.count_zero] at hbalance
  omega

variable {pre post : List (ResourceEvent ρ ι)} {r : ρ}

theorem release_owned (h : Legal 0 es held') (hsplit : es = pre ++ .release r :: post) :
    releases r pre < acquires r pre := by
  rw [hsplit] at h
  obtain ⟨mid, hpre, hpost⟩ := h.append_inv
  cases hpost with
  | release => exact hpre.acquired_of_mem (Multiset.mem_cons_self r _)

theorem use_owned {op : ι} (h : Legal 0 es held') (hsplit : es = pre ++ .use op r :: post) :
    releases r pre < acquires r pre := by
  rw [hsplit] at h
  obtain ⟨mid, hpre, hpost⟩ := h.append_inv
  cases hpost with
  | use hmem => exact hpre.acquired_of_mem hmem

theorem all_released (h : Legal 0 es (0 : Multiset ρ)) (r : ρ) : acquires r es = releases r es := by
  have hbalance := h.balance r
  rwa [Multiset.count_zero, Nat.zero_add, Nat.add_zero] at hbalance

end Legal

end Count

end LogMetrics.Base
