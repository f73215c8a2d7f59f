/-!
# Lines

Reading a stream with `getline` until it fails cuts it at each delimiter; what
follows the last delimiter is a line when it is not empty. Writing lines with
a delimiter behind each and reading them back is the identity on lines that
do not hold the delimiter (`getlines_unlines`).
-/

namespace LogMetrics.Base

universe u

variable {α : Type u} [DecidableEq α]

/-- The lines that repeated `getline` returns. -/
def getlines (delim : α) : List α → List (List α)
  | [] => []
  | c :: s =>
    if c = delim then [] :: getlines delim s
    else
      match getlines delim s with
      | [] => [[c]]
      | line :: lines => (c :: line) :: lines

/-- Each line with the delimiter behind it. -/
def unlines (delim : α) (lines : List (List α)) : List α :=
  (lines.map fun line => line ++ [delim]).flatten

omit [DecidableEq α] in
theorem unlines_append (delim : α) (lines lines' : List (List α)) :
    unlines delim (lines ++ lines') = unlines delim lines ++ unlines delim lines' := by
  simp [unlines]

/-- A line ends at its delimiter. -/
theorem getlines_line {delim : α} {line : List α} (h : delim ∉ line) (rest : List α) :
    getlines delim (line ++ delim :: rest) = line :: getlines delim rest := by
  induction line with
  | nil => rw [List.nil_append, getlines, if_pos rfl]
  | cons c line ih =>
    have hc : ¬c = delim := fun e => h (by simp [e])
    have hline : delim ∉ line := fun e => h (List.mem_cons_of_mem _ e)
    rw [List.cons_append, getlines, if_neg hc, ih hline]

/-- A text that does not start with the delimiter has a first line, which
starts as the text does. -/
theorem getlines_cons {delim c : α} (hc : c ≠ delim) (s : List α) :
    ∃ line lines, getlines delim (c :: s) = (c :: line) :: lines := by
  rw [getlines, if_neg hc]
  cases getlines delim s with
  | nil => exact ⟨[], [], rfl⟩
  | cons line lines => exact ⟨line, lines, rfl⟩

/-- A text is cut at any of its delimiters: the lines up to it, and the lines
behind it. -/
theorem getlines_append {delim : α} (s rest : List α) :
    getlines delim (s ++ delim :: rest) = getlines delim (s ++ [delim]) ++ getlines delim rest := by
  induction s with
  | nil => simp [getlines]
  | cons c s ih =>
    by_cases hc : c = delim
    · simp only [List.cons_append, getlines, if_pos hc, ih]
    · simp only [List.cons_append, getlines, if_neg hc, ih]
      -- there is a line in front of the delimiter, and `c` joins it
      have hne : getlines delim (s ++ [delim]) ≠ [] := by
        cases s with
        | nil => simp [getlines]
        | cons x s =>
          by_cases hx : x = delim
          · simp [getlines, hx]
          · obtain ⟨line, lines, h⟩ := getlines_cons hx (s ++ [delim])
            rw [List.cons_append, h]
            simp
      obtain ⟨line, lines, h⟩ := List.exists_cons_of_ne_nil hne
      rw [h]
      rfl

/-- A text without delimiters is one line, if it is not empty. -/
theorem getlines_self {delim : α} {s : List α} (h : delim ∉ s) (hne : s ≠ []) :
    getlines delim s = [s] := by
  induction s with
  | nil => exact absurd rfl hne
  | cons c s ih =>
    have hc : ¬c = delim := fun e => h (by simp [e])
    have hs : delim ∉ s := fun e => h (List.mem_cons_of_mem _ e)
    rw [getlines, if_neg hc]
    by_cases hnil : s = []
    · subst hnil
      rfl
    · rw [ih hs hnil]

/-- **Lines written are the lines read.** -/
theorem getlines_unlines {delim : α} {lines : List (List α)} (h : ∀ line ∈ lines, delim ∉ line) :
    getlines delim (unlines delim lines) = lines := by
  induction lines with
  | nil => rfl
  | cons line lines ih =>
    have hline := h line (List.mem_cons_self ..)
    have hlines : ∀ l ∈ lines, delim ∉ l := fun l hl => h l (List.mem_cons_of_mem _ hl)
    rw [unlines, List.map_cons, List.flatten_cons, List.append_assoc]
    show getlines delim (line ++ delim :: unlines delim lines) = _
    rw [getlines_line hline, ih hlines]

/-- The lines in front of any other text are read first. -/
theorem getlines_unlines_append {delim : α} {lines : List (List α)}
    (h : ∀ line ∈ lines, delim ∉ line) (rest : List α) :
    getlines delim (unlines delim lines ++ rest) = lines ++ getlines delim rest := by
  induction lines with
  | nil => rfl
  | cons line lines ih =>
    have hline := h line (List.mem_cons_self ..)
    have hlines : ∀ l ∈ lines, delim ∉ l := fun l hl => h l (List.mem_cons_of_mem _ hl)
    rw [unlines, List.map_cons, List.flatten_cons, List.append_assoc, List.append_assoc]
    show getlines delim (line ++ delim :: (unlines delim lines ++ rest)) = _
    rw [getlines_line hline, ih hlines]
    rfl

end LogMetrics.Base
