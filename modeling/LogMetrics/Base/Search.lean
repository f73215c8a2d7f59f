/-!
# Positions in a list: searching and cutting

The string operations of a standard library that search work by *position*:
`find` returns an index, `substr` cuts from an index. The four searches and
the cut below are stated over lists of any element type, positions are `Nat`
and the "not found" value (`npos`) is `none`.

Proofs do not follow positions. `find_eq_some_iff` trades a found position
for the decomposition of the list there: `find s c pos = some i` says that
from `pos` on the list is `a ++ c :: b` with `c` not in `a` and
`i = pos + a.length`; `drop_add_of_drop_eq` is where the next search starts.
-/

namespace LogMetrics.Base

universe u

variable {α : Type u} [DecidableEq α]

/-- The least position at or after `pos` that holds `c`. -/
def find (s : List α) (c : α) (pos : Nat) : Option Nat :=
  ((s.drop pos).idxOf? c).map (pos + ·)

/-- The greatest position that holds `c`. -/
def rfind (s : List α) (c : α) : Option Nat :=
  (s.reverse.idxOf? c).map (s.length - 1 - ·)

/-- The least position whose element is not in `set`. -/
def findFirstNotOf (s set : List α) : Option Nat :=
  s.findIdx? (fun c => !set.contains c)

/-- The greatest position whose element is not in `set`. -/
def findLastNotOf (s set : List α) : Option Nat :=
  (s.reverse.findIdx? (fun c => !set.contains c)).map (s.length - 1 - ·)

/-- At most `len` elements from position `pos` on. -/
def substr (s : List α) (pos len : Nat) : List α := (s.drop pos).take len

/-- The searched element is found behind any stretch free of it. -/
theorem idxOf?_append_cons {a b : List α} {c : α} (ha : c ∉ a) :
    (a ++ c :: b).idxOf? c = some a.length := by
  induction a with
  | nil => simp [List.idxOf?_cons]
  | cons x a ih =>
    have hxc : ¬(x = c) := fun h => ha (by simp [h])
    have hca : c ∉ a := fun h => ha (List.mem_cons_of_mem _ h)
    rw [List.cons_append, List.idxOf?_cons, ih hca]
    simp [hxc]

/-- A list is cut at the first occurrence of an element in one way. -/
theorem append_cons_inj {a a' b b' : List α} {c : α} (ha : c ∉ a) (ha' : c ∉ a')
    (h : a ++ c :: b = a' ++ c :: b') : a = a' ∧ b = b' := by
  have hlen : a.length = a'.length := by
    have hidx := idxOf?_append_cons (b := b) ha
    rw [h, idxOf?_append_cons ha'] at hidx
    exact (Option.some.inj hidx).symm
  obtain ⟨rfl, htail⟩ := List.append_inj h hlen
  exact ⟨rfl, (List.cons.inj htail).2⟩

omit [DecidableEq α] in
/-- Searching on from the end of `a`: the rest of the list is what follows. -/
theorem drop_add_of_drop_eq {s a b : List α} {pos : Nat} (h : s.drop pos = a ++ b) :
    s.drop (pos + a.length) = b := by
  rw [← List.drop_drop, h, List.drop_left]

/-- **A found position is a decomposition**: from `pos` on, the list is `a`,
free of `c`, and then `c`; the position is behind `a`. -/
theorem find_eq_some_iff {s : List α} {c : α} {pos i : Nat} :
    find s c pos = some i ↔ ∃ a b, s.drop pos = a ++ c :: b ∧ c ∉ a ∧ i = pos + a.length := by
  constructor
  · intro h
    unfold find at h
    obtain ⟨k, hk, rfl⟩ := Option.map_eq_some_iff.mp h
    obtain ⟨hlt, hget, hmin⟩ := List.idxOf?_eq_some_iff.mp hk
    refine ⟨(s.drop pos).take k, (s.drop pos).drop (k + 1), ?_, ?_, ?_⟩
    · rw [← hget, ← List.drop_eq_getElem_cons hlt, List.take_append_drop]
    · intro hmem
      obtain ⟨j, hj, hjc⟩ := List.mem_iff_getElem.mp hmem
      rw [List.getElem_take] at hjc
      rw [List.length_take] at hj
      exact hmin j (by omega) hjc
    · rw [List.length_take, Nat.min_eq_left (Nat.le_of_lt hlt)]
  · rintro ⟨a, b, hdrop, ha, rfl⟩
    unfold find
    rw [hdrop, idxOf?_append_cons ha]
    rfl

/-- The last occurrence is in front of a stretch free of the element. -/
theorem rfind_append_cons {a b : List α} {c : α} (hb : c ∉ b) :
    rfind (a ++ c :: b) c = some a.length := by
  have hrev : (a ++ c :: b).reverse = b.reverse ++ c :: a.reverse := by simp
  rw [rfind, hrev, idxOf?_append_cons (by simpa using hb), Option.map_some, List.length_reverse,
    List.length_append, List.length_cons]
  congr 1
  omega

theorem findFirstNotOf_eq_none {s set : List α} (h : ∀ c ∈ s, set.contains c = true) :
    findFirstNotOf s set = none :=
  List.findIdx?_eq_none_iff.mpr fun c hc => by rw [h c hc]; rfl

/-- The first element outside the set is behind a stretch inside it. -/
theorem findFirstNotOf_append_cons {a b set : List α} {c : α}
    (ha : ∀ x ∈ a, set.contains x = true) (hc : set.contains c = false) :
    findFirstNotOf (a ++ c :: b) set = some a.length := by
  have hnone : a.findIdx? (fun x => !set.contains x) = none := findFirstNotOf_eq_none ha
  rw [findFirstNotOf, List.findIdx?_append, hnone, List.findIdx?_cons, hc]
  simp

/-- The last element outside the set is in front of a stretch inside it. -/
theorem findLastNotOf_append_cons {a b set : List α} {c : α}
    (hb : ∀ x ∈ b, set.contains x = true) (hc : set.contains c = false) :
    findLastNotOf (a ++ c :: b) set = some a.length := by
  have hrev : (a ++ c :: b).reverse = b.reverse ++ c :: a.reverse := by simp
  have hfirst := findFirstNotOf_append_cons (b := a.reverse)
    (fun x hx => hb x (List.mem_reverse.mp hx)) hc
  rw [findFirstNotOf, ← hrev] at hfirst
  rw [findLastNotOf, hfirst, Option.map_some, List.length_reverse, List.length_append,
    List.length_cons]
  congr 1
  omega

omit [DecidableEq α] in
/-- What `substr` cuts out between two positions. -/
theorem substr_append (a t b : List α) : substr (a ++ (t ++ b)) a.length t.length = t := by
  rw [substr, List.drop_left, List.take_left]

omit [DecidableEq α] in
/-- A cut of a list keeps nothing that the list does not have. -/
theorem substr_subset (s : List α) (pos len : Nat) : substr s pos len ⊆ s := fun _ hx =>
  List.mem_of_mem_drop (List.mem_of_mem_take hx)

end LogMetrics.Base
