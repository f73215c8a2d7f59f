/-!
# Cutting a stream

A list of lists is a stream (its `flatten`) together with the places it is cut
at. `ends` are those places: for each piece the length of the stream up to
its end. Pieces are recovered from the stream and the cuts, when none is
empty: `eq_of_ends` says that two such cuttings of one stream with the same
set of ends are equal, and `groups_of_ends` that one with fewer ends groups
the pieces of the other.
-/

namespace LogMetrics.Base

universe u v

variable {α : Type u}

/-- For each piece, the length of the stream up to and with it. -/
def ends : List (List α) → List Nat
  | [] => []
  | x :: xs => x.length :: (ends xs).map (x.length + ·)

theorem ends_snoc (xs : List (List α)) (x : List α) :
    ends (xs ++ [x]) = ends xs ++ [xs.flatten.length + x.length] := by
  induction xs with
  | nil => simp [ends]
  | cons y xs ih => simp [ends, ih, Nat.add_assoc]

/-- The last end is the length of the stream. -/
theorem length_flatten_mem_ends {xs : List (List α)} (h : xs ≠ []) :
    xs.flatten.length ∈ ends xs := by
  induction xs with
  | nil => exact absurd rfl h
  | cons x xs ih =>
    by_cases hxs : xs = []
    · subst hxs
      simp [ends]
    · rw [ends, List.flatten_cons, List.length_append]
      exact List.mem_cons_of_mem _ (List.mem_map.mpr ⟨_, ih hxs, rfl⟩)

/-- With no empty piece every end is positive. -/
theorem ends_pos {xs : List (List α)} (hne : ∀ x ∈ xs, x ≠ []) :
    ∀ k ∈ ends xs, 0 < k := by
  intro k hk
  cases xs with
  | nil => exact absurd hk List.not_mem_nil
  | cons x xs =>
    have hx : 0 < x.length := List.length_pos_iff.mpr (hne x (List.mem_cons_self ..))
    rcases List.mem_cons.mp hk with rfl | hk
    · exact hx
    · obtain ⟨j, -, rfl⟩ := List.mem_map.mp hk
      omega

/-- The first end is the least. -/
theorem length_le_of_mem_ends {x : List α} {xs : List (List α)} {k : Nat}
    (hk : k ∈ ends (x :: xs)) : x.length ≤ k := by
  rcases List.mem_cons.mp hk with rfl | hk
  · exact Nat.le_refl _
  · obtain ⟨j, -, rfl⟩ := List.mem_map.mp hk
    exact Nat.le_add_right _ _

/-- Past the first piece, the ends of the rest. -/
theorem add_mem_ends_cons {x : List α} {xs : List (List α)} {k : Nat} (hk : 0 < k) :
    x.length + k ∈ ends (x :: xs) ↔ k ∈ ends xs := by
  rw [ends, List.mem_cons, List.mem_map]
  constructor
  · rintro (h | ⟨j, hj, h⟩)
    · omega
    · rwa [← Nat.add_left_cancel h]
  · intro h
    exact Or.inr ⟨k, h, rfl⟩

/-- **A stream and its cuts determine the pieces.** -/
theorem eq_of_ends {xs ys : List (List α)} (hx : ∀ x ∈ xs, x ≠ []) (hy : ∀ y ∈ ys, y ≠ [])
    (hflat : xs.flatten = ys.flatten) (hends : ∀ k, k ∈ ends xs ↔ k ∈ ends ys) : xs = ys := by
  induction xs generalizing ys with
  | nil =>
    cases ys with
    | nil => rfl
    | cons y ys => exact absurd ((hends y.length).mpr (List.mem_cons_self ..)) List.not_mem_nil
  | cons x xs ih =>
    cases ys with
    | nil => exact absurd ((hends x.length).mp (List.mem_cons_self ..)) List.not_mem_nil
    | cons y ys =>
      -- each first end is an end of the other side, so the two are equal
      have hlen : x.length = y.length := Nat.le_antisymm
        (length_le_of_mem_ends ((hends y.length).mpr (List.mem_cons_self ..)))
        (length_le_of_mem_ends ((hends x.length).mp (List.mem_cons_self ..)))
      rw [List.flatten_cons, List.flatten_cons] at hflat
      obtain ⟨rfl, htail⟩ := List.append_inj hflat hlen
      have hx' : ∀ z ∈ xs, z ≠ [] := fun z hz => hx z (List.mem_cons_of_mem _ hz)
      have hy' : ∀ z ∈ ys, z ≠ [] := fun z hz => hy z (List.mem_cons_of_mem _ hz)
      have htails : ∀ k, k ∈ ends xs ↔ k ∈ ends ys := by
        intro k
        rcases Nat.eq_zero_or_pos k with rfl | hk
        · exact ⟨fun h => absurd (ends_pos hx' 0 h) (Nat.lt_irrefl 0),
            fun h => absurd (ends_pos hy' 0 h) (Nat.lt_irrefl 0)⟩
        · rw [← add_mem_ends_cons (x := x) hk, ← add_mem_ends_cons (x := x) hk]
          exact hends (x.length + k)
      rw [ih hx' hy' htail htails]

section Groups

variable {β : Type v} {f : β → List α}

/-- At an end, the pieces fall into those up to it and the rest. -/
theorem split_at_end {ys : List β} {k : Nat} (hk : k ∈ ends (ys.map f)) :
    ∃ front back, ys = front ++ back ∧ front ≠ [] ∧ (front.map f).flatten.length = k
      ∧ ∀ j, 0 < j → k + j ∈ ends (ys.map f) → j ∈ ends (back.map f) := by
  induction ys generalizing k with
  | nil => exact absurd hk List.not_mem_nil
  | cons y ys ih =>
    rcases List.mem_cons.mp hk with rfl | hrest
    · refine ⟨[y], ys, rfl, by simp, by simp, ?_⟩
      intro j hj hend
      exact (add_mem_ends_cons hj).mp hend
    · obtain ⟨i, hi, rfl⟩ := List.mem_map.mp hrest
      obtain ⟨front, back, rfl, hne, hlength, hback⟩ := ih hi
      refine ⟨y :: front, back, rfl, by simp, ?_, ?_⟩
      · rw [List.map_cons, List.flatten_cons, List.length_append, hlength]
      · intro j hj hend
        rw [Nat.add_assoc] at hend
        exact hback j hj ((add_mem_ends_cons (by omega)).mp hend)

/-- **Cuts at some of the ends group the pieces.** -/
theorem groups_of_ends {xs : List (List α)} {ys : List β} (hx : ∀ x ∈ xs, x ≠ [])
    (hflat : xs.flatten <+: (ys.map f).flatten) (hends : ∀ k ∈ ends xs, k ∈ ends (ys.map f)) :
    ∃ groups : List (List β), (∀ g ∈ groups, g ≠ []) ∧ groups.flatten <+: ys
      ∧ xs = groups.map fun g => (g.map f).flatten := by
  induction xs generalizing ys with
  | nil => exact ⟨[], by simp, List.nil_prefix, rfl⟩
  | cons x xs ih =>
    obtain ⟨front, back, rfl, hne, hlength, hback⟩ :=
      split_at_end (hends x.length (List.mem_cons_self ..))
    have hx' : ∀ z ∈ xs, z ≠ [] := fun z hz => hx z (List.mem_cons_of_mem _ hz)
    -- the two sides agree on the first piece, and so on the rest
    obtain ⟨rest, hrest⟩ := hflat
    rw [List.flatten_cons, List.map_append, List.flatten_append, List.append_assoc] at hrest
    obtain ⟨hfirst, htail⟩ := List.append_inj hrest hlength.symm
    have hends' : ∀ k ∈ ends xs, k ∈ ends (back.map f) := by
      intro k hk
      have hpos := ends_pos hx' k hk
      exact hback k hpos (hends _ ((add_mem_ends_cons hpos).mpr hk))
    obtain ⟨groups, hgroups, hprefix, hmap⟩ := ih hx' ⟨rest, htail⟩ hends'
    refine ⟨front :: groups, ?_, ?_, ?_⟩
    · intro g hg
      rcases List.mem_cons.mp hg with rfl | hg
      · exact hne
      · exact hgroups g hg
    · rw [List.flatten_cons]
      exact (List.prefix_append_right_inj front).mpr hprefix
    · rw [List.map_cons, ← hfirst, ← hmap]

end Groups

end LogMetrics.Base
