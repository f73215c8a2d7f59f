import Mathlib.Order.Lattice
import Mathlib.Data.List.TakeWhile
import Mathlib.Data.List.Infix

/-!
# A pruned history

A queue that records a history by appending, and from which elements below a
bound are now and then dropped from the *front*, destructively. `Retains b
hist q` says that the queue `q` is the history `hist` less a prefix of
elements below `b`. The relation survives appending to both sides, raising
the bound, and pruning at the bound; it does not need the history sorted.

Sortedness enters once, in `Retains.prune_eq_filter`: on a sorted history a
prune at `b` leaves exactly the elements at or above `b`, no matter how often
the queue was pruned at smaller bounds before.
-/

namespace LogMetrics.Base

universe u

variable {α : Type u} [LinearOrder α]

/-- `q` is `hist` less a prefix of elements below `bound`. -/
def Retains (bound : α) (hist q : List α) : Prop :=
  ∃ old, hist = old ++ q ∧ ∀ s ∈ old, s < bound

namespace Retains

theorem refl (bound : α) (hist : List α) : Retains bound hist hist :=
  ⟨[], rfl, fun _ hs => absurd hs List.not_mem_nil⟩

theorem mono {b b' : α} {hist q : List α} (hb : b ≤ b') (h : Retains b hist q) :
    Retains b' hist q := by
  obtain ⟨old, hsplit, hold⟩ := h
  exact ⟨old, hsplit, fun s hs => lt_of_lt_of_le (hold s hs) hb⟩

theorem push {b : α} {hist q : List α} (h : Retains b hist q) (x : α) :
    Retains b (hist ++ [x]) (q ++ [x]) := by
  obtain ⟨old, rfl, hold⟩ := h
  exact ⟨old, List.append_assoc .., hold⟩

theorem prune {b : α} {hist q : List α} (h : Retains b hist q) :
    Retains b hist (q.dropWhile fun s => decide (s < b)) := by
  obtain ⟨old, rfl, hold⟩ := h
  refine ⟨old ++ q.takeWhile fun s => decide (s < b), ?_, ?_⟩
  · rw [List.append_assoc, List.takeWhile_append_dropWhile]
  · intro s hs
    rcases List.mem_append.mp hs with hs | hs
    · exact hold s hs
    · simpa using List.mem_takeWhile_imp hs

theorem suffix {b : α} {hist q : List α} (h : Retains b hist q) : q <:+ hist := by
  obtain ⟨old, rfl, -⟩ := h
  exact List.suffix_append old q

end Retains

/-- On a sorted list the elements at or above `b` are those behind the first
one that is. -/
theorem dropWhile_lt_eq_filter {b : α} {q : List α} (hq : q.Pairwise (· ≤ ·)) :
    (q.dropWhile fun s => decide (s < b)) = q.filter fun s => decide (b ≤ s) := by
  induction q with
  | nil => rfl
  | cons x q ih =>
    obtain ⟨hx, hq⟩ := List.pairwise_cons.mp hq
    by_cases hlt : x < b
    · rw [List.dropWhile_cons_of_pos (by simpa using hlt),
        List.filter_cons_of_neg (by simpa using hlt)]
      exact ih hq
    · rw [List.dropWhile_cons_of_neg (by simpa using hlt)]
      refine (List.filter_eq_self.mpr fun s hs => ?_).symm
      rcases List.mem_cons.mp hs with rfl | hs
      · simpa using hlt
      · simpa using le_trans (not_lt.mp hlt) (hx s hs)

/-- **A prune of a sorted history is exact**: what was dropped earlier was
below the bound anyway. -/
theorem Retains.prune_eq_filter {b : α} {hist q : List α} (h : Retains b hist q)
    (hsorted : hist.Pairwise (· ≤ ·)) :
    (q.dropWhile fun s => decide (s < b)) = hist.filter fun s => decide (b ≤ s) := by
  rw [dropWhile_lt_eq_filter (hsorted.sublist h.suffix.sublist)]
  obtain ⟨old, rfl, hold⟩ := h
  have hnone : (old.filter fun s => decide (b ≤ s)) = [] :=
    List.filter_eq_nil_iff.mpr fun s hs => by simpa using hold s hs
  rw [List.filter_append, hnone, List.nil_append]

end LogMetrics.Base
