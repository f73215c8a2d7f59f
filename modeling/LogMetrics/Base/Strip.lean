import Mathlib.Data.List.DropRight

/-!
# Runs at the ends of a list

The longest run of elements with `p` at the front of a list is the `a` of any
splitting `a ++ b` in which `a` consists of such elements and `b` does not
start with one (`takeWhile_span`, `dropWhile_span`).

`strip p s` is `s` less its longest prefix and its longest suffix of elements
with `p`. It is the `t` of any splitting `s = a ++ t ++ b` in which `a` and
`b` consist of such elements and `t` neither starts nor ends with one
(`strip_append`), and there is such a splitting (`exists_strip`).
-/

namespace LogMetrics.Base

universe u

variable {α : Type u} {p : α → Bool}

section Span

variable {a b : List α}

theorem takeWhile_span (ha : ∀ c ∈ a, p c = true) (hb : ∀ c ∈ b.head?, p c = false) :
    (a ++ b).takeWhile p = a := by
  rw [List.takeWhile_append_of_pos ha]
  cases b with
  | nil => exact List.append_nil a
  | cons c b =>
    rw [List.takeWhile_cons_of_neg (by simp [hb c rfl])]
    exact List.append_nil a

theorem dropWhile_span (ha : ∀ c ∈ a, p c = true) (hb : ∀ c ∈ b.head?, p c = false) :
    (a ++ b).dropWhile p = b := by
  rw [List.dropWhile_append_of_pos ha]
  cases b with
  | nil => rfl
  | cons c b => exact List.dropWhile_cons_of_neg (by simp [hb c rfl])

theorem head?_dropWhile (s : List α) : ∀ c ∈ (s.dropWhile p).head?, p c = false := by
  intro c hc
  have h := List.head?_dropWhile_not p s
  rw [Option.mem_def.mp hc] at h
  exact h

end Span

/-- The elements behind the last occurrence of `c`. -/
theorem rtakeWhile_append_cons [DecidableEq α] {a b : List α} {c : α} (hb : c ∉ b) :
    (a ++ c :: b).rtakeWhile (· != c) = b := by
  have hrun : ∀ x ∈ b.reverse, (x != c) = true := by
    intro x hx
    rw [bne_iff_ne]
    rintro rfl
    exact hb (List.mem_reverse.mp hx)
  rw [List.rtakeWhile, List.reverse_append, List.reverse_cons, List.append_assoc,
    takeWhile_span hrun (by simp), List.reverse_reverse]

/-- The whole list, where `c` does not occur. -/
theorem rtakeWhile_of_not_mem [DecidableEq α] {t : List α} {c : α} (ht : c ∉ t) :
    t.rtakeWhile (· != c) = t := by
  rw [List.rtakeWhile_eq_self_iff]
  intro x hx
  rw [bne_iff_ne]
  rintro rfl
  exact ht hx

/-- The list less the elements with `p` at its ends. -/
def strip (p : α → Bool) (s : List α) : List α := (s.dropWhile p).rdropWhile p

/-- The list neither starts nor ends with an element with `p`. -/
structure Stripped (p : α → Bool) (t : List α) : Prop where
  head : ∀ c rest, t = c :: rest → p c = false
  last : ∀ init c, t = init ++ [c] → p c = false

theorem exists_strip (p : α → Bool) (s : List α) :
    ∃ a b, s = a ++ (strip p s ++ b) ∧ (∀ c ∈ a, p c = true) ∧ (∀ c ∈ b, p c = true)
      ∧ Stripped p (strip p s) := by
  refine ⟨s.takeWhile p, (s.dropWhile p).rtakeWhile p, ?_, fun c hc => List.mem_takeWhile_imp hc,
    fun c hc => List.mem_rtakeWhile_imp hc, ?_, ?_⟩
  · rw [strip, List.rdropWhile_append_rtakeWhile, List.takeWhile_append_dropWhile]
  · intro c rest h
    -- the head of the stripped list is the head of what `dropWhile` leaves
    obtain ⟨b, hb⟩ := List.rdropWhile_prefix p (l := s.dropWhile p)
    rw [← strip, h, List.cons_append] at hb
    apply head?_dropWhile s c
    rw [← hb]
    rfl
  · intro init c h
    have hne : (s.dropWhile p).rdropWhile p ≠ [] := by
      rw [← strip, h]
      simp
    have hlast := List.rdropWhile_last_not p (s.dropWhile p) hne
    have heq : ((s.dropWhile p).rdropWhile p).getLast hne = c := by
      have hcongr : (s.dropWhile p).rdropWhile p = init ++ [c] := h
      simp [hcongr]
    rw [heq] at hlast
    simpa using hlast

/-- **What is between the elements at the ends.** -/
theorem strip_append {a t b : List α} (ha : ∀ c ∈ a, p c = true) (hb : ∀ c ∈ b, p c = true)
    (ht : Stripped p t) (hne : t ≠ []) : strip p (a ++ (t ++ b)) = t := by
  have hfirst : (a ++ (t ++ b)).dropWhile p = t ++ b := by
    obtain ⟨c, rest, rfl⟩ := List.exists_cons_of_ne_nil hne
    apply dropWhile_span ha
    rintro c' ⟨⟩
    exact ht.head c rest rfl
  have hlast : t.rdropWhile p = t := by
    rw [List.rdropWhile_eq_self_iff]
    intro hl
    rw [ht.last _ _ (List.dropLast_append_getLast hl).symm]
    exact Bool.false_ne_true
  rw [strip, hfirst, List.rdropWhile, List.reverse_append,
    List.dropWhile_append_of_pos (fun c hc => hb c (List.mem_reverse.mp hc))]
  exact hlast

theorem strip_of_stripped {t : List α} (ht : Stripped p t) : strip p t = t := by
  by_cases hne : t = []
  · rw [hne]
    rfl
  · have h := strip_append (a := []) (b := []) (fun c hc => absurd hc List.not_mem_nil)
      (fun c hc => absurd hc List.not_mem_nil) ht hne
    simpa using h

theorem strip_eq_nil_iff {s : List α} : strip p s = [] ↔ ∀ c ∈ s, p c = true := by
  constructor
  · intro h
    obtain ⟨a, b, hs, ha, hb, -⟩ := exists_strip p s
    rw [h, List.nil_append] at hs
    intro c hc
    rw [hs] at hc
    exact (List.mem_append.mp hc).elim (ha c) (hb c)
  · intro h
    rw [strip, List.dropWhile_eq_nil_iff.mpr h]
    rfl

/-- A list that starts with an element to keep is stripped at its end only. -/
theorem strip_cons {c : α} {s : List α} (hc : p c = false) :
    ∃ rest, strip p (c :: s) = c :: rest := by
  obtain ⟨a, b, hs, ha, hb, -⟩ := exists_strip p (c :: s)
  cases a with
  | cons x a =>
    obtain ⟨rfl, -⟩ := List.cons.inj hs
    exact absurd (ha c (List.mem_cons_self ..)) (by simp [hc])
  | nil =>
    cases hstrip : strip p (c :: s) with
    | cons x rest =>
      rw [hstrip] at hs
      obtain ⟨rfl, -⟩ := List.cons.inj hs
      exact ⟨rest, rfl⟩
    | nil =>
      exact absurd (strip_eq_nil_iff.mp hstrip c (List.mem_cons_self ..)) (by simp [hc])

end LogMetrics.Base
