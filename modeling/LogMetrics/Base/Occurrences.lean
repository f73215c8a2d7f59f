import Mathlib.Data.List.Infix

/-!
# What occurs in a text

A recognizer is shown a text and says whether something begins where the text
begins, and what. As long as it does not take back what it has recognized when
the text goes on (`Stable`), cutting a text can only lose occurrences: those
in the pieces, piece by piece, are a subsequence of those in the whole
(`flatMap_occurrences_sublist`).
-/

namespace LogMetrics.Base

universe u v

variable {α : Type u} {β : Type v}

/-- What is recognized in a text is recognized in each that begins with it. -/
def Stable (f : List α → Option β) : Prop :=
  ∀ s t b, f s = some b → f (s ++ t) = some b

/-- What the recognizer finds in the text, in order. -/
def occurrences (f : List α → Option β) : List α → List β
  | [] => []
  | a :: s => (f (a :: s)).toList ++ occurrences f s

variable {f : List α → Option β}

/-- What is recognized at some place occurs. -/
theorem mem_occurrences {a u : List α} {b : β} (hne : u ≠ []) (h : f u = some b) :
    b ∈ occurrences f (a ++ u) := by
  induction a with
  | nil =>
    cases u with
    | nil => exact absurd rfl hne
    | cons x u =>
      show b ∈ (f (x :: u)).toList ++ occurrences f u
      rw [h]
      exact List.mem_append_left _ (List.mem_singleton.mpr rfl)
  | cons x a ih => exact List.mem_append_right _ ih

/-- Nothing is lost where two texts are put together. -/
theorem append_occurrences_sublist (hf : Stable f) (s t : List α) :
    (occurrences f s ++ occurrences f t).Sublist (occurrences f (s ++ t)) := by
  induction s with
  | nil => exact List.Sublist.refl _
  | cons x s ih =>
    have hhead : (f (x :: s)).toList.Sublist (f (x :: s ++ t)).toList := by
      cases h : f (x :: s) with
      | none => exact List.nil_sublist _
      | some b =>
        rw [hf _ t b h]
    show ((f (x :: s)).toList ++ occurrences f s ++ occurrences f t).Sublist
      ((f (x :: s ++ t)).toList ++ occurrences f (s ++ t))
    rw [List.append_assoc]
    exact hhead.append ih

/-- The occurrences in the pieces of a text are some of those in the text. -/
theorem flatMap_occurrences_sublist (hf : Stable f) (pieces : List (List α)) :
    (pieces.flatMap (occurrences f)).Sublist (occurrences f pieces.flatten) := by
  induction pieces with
  | nil => exact List.Sublist.refl _
  | cons s pieces ih =>
    rw [List.flatMap_cons, List.flatten_cons]
    exact ((List.Sublist.refl _).append ih).trans (append_occurrences_sublist hf s pieces.flatten)

/-- The occurrences in a text are some of those in a longer one. -/
theorem occurrences_prefix_sublist (hf : Stable f) {s t : List α} (h : s <+: t) :
    (occurrences f s).Sublist (occurrences f t) := by
  obtain ⟨rest, rfl⟩ := h
  exact (List.sublist_append_left _ _).trans (append_occurrences_sublist hf s rest)

/-- What is read from the pieces, if it occurs there, are some of the
occurrences in the pieces. -/
theorem filterMap_sublist_flatMap {γ : Type*} {g : γ → Option β} {l : γ → List β}
    (h : ∀ c b, g c = some b → b ∈ l c) (cs : List γ) :
    (cs.filterMap g).Sublist (cs.flatMap l) := by
  induction cs with
  | nil => exact List.Sublist.refl _
  | cons c cs ih =>
    rw [List.flatMap_cons]
    cases hg : g c with
    | none =>
      rw [List.filterMap_cons_none hg]
      exact ih.trans (List.sublist_append_right _ _)
    | some b =>
      rw [List.filterMap_cons_some hg]
      exact (List.singleton_sublist.mpr (h c b hg)).append ih

/-- Where nothing begins nothing is found. -/
theorem occurrences_append_of_none {s : List α} (h : ∀ x ∈ s, ∀ u, f (x :: u) = none)
    (t : List α) : occurrences f (s ++ t) = occurrences f t := by
  induction s with
  | nil => rfl
  | cons x s ih =>
    have hrest := ih fun y hy => h y (List.mem_cons_of_mem _ hy)
    show (f (x :: (s ++ t))).toList ++ occurrences f (s ++ t) = _
    rw [h x (List.mem_cons_self ..), hrest]
    rfl

end LogMetrics.Base
