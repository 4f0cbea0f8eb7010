/-!
# Lines of a text

A line ends at a line feed, and a carriage return directly before that line feed belongs to the
terminator. Text after the last line feed is a line of its own unless it is empty, and there a
carriage return is kept.
-/

namespace LadderMachine.Text

def consPiece (c : Char) : List (List Char) → List (List Char)
  | [] => [[c]]
  | piece :: rest => if c = '\n' then [c] :: piece :: rest else (c :: piece) :: rest

/-- Cuts a text after every line feed; every piece but the last one ends in a line feed. -/
def pieces (text : List Char) : List (List Char) := text.foldr consPiece []

/-- Drops a final line feed together with a carriage return directly before it. -/
def dropTerminator : List Char → List Char
  | [] => []
  | ['\n'] => []
  | ['\r', '\n'] => []
  | c :: cs => c :: dropTerminator cs

def lines (text : List Char) : List (List Char) := (pieces text).map dropTerminator

def unlines (ls : List (List Char)) : List Char := ls.flatMap (· ++ ['\n'])

@[simp] theorem pieces_nil : pieces [] = [] := rfl

theorem pieces_cons (c : Char) (cs : List Char) : pieces (c :: cs) = consPiece c (pieces cs) := rfl

@[simp] theorem lines_nil : lines [] = [] := rfl

theorem dropTerminator_cons (c : Char) (cs : List Char) (h₁ : c :: cs ≠ ['\n'])
    (h₂ : c :: cs ≠ ['\r', '\n']) : dropTerminator (c :: cs) = c :: dropTerminator cs := by
  rw [dropTerminator]
  · rintro rfl rfl; exact h₁ rfl
  · rintro rfl rfl; exact h₂ rfl

theorem pieces_newline (cs : List Char) : pieces ('\n' :: cs) = ['\n'] :: pieces cs := by
  rw [pieces_cons]
  cases pieces cs <;> rfl

/-- A text without a line feed, put in front of a text that starts with one. -/
theorem pieces_append_newline (line cs : List Char) (h : '\n' ∉ line) :
    pieces (line ++ '\n' :: cs) = (line ++ ['\n']) :: pieces cs := by
  induction line with
  | nil => exact pieces_newline cs
  | cons c r ih =>
    simp only [List.mem_cons, not_or] at h
    rw [List.cons_append, pieces_cons, ih h.2, consPiece, if_neg (fun hc => h.1 hc.symm)]
    rfl

theorem dropTerminator_append_newline (line : List Char) (h : line.getLast? ≠ some '\r') :
    dropTerminator (line ++ ['\n']) = line := by
  induction line with
  | nil => rfl
  | cons c r ih =>
    cases r with
    | nil =>
      rw [List.cons_append, List.nil_append, dropTerminator_cons]
      · rfl
      · simp
      · intro hc
        simp_all
    | cons d s =>
      rw [List.cons_append, dropTerminator_cons]
      · rw [ih (by simpa [List.getLast?_cons_cons] using h)]
      · simp
      · cases s <;> simp

/-- Written lines are read back, as long as no line holds a line feed or ends in a carriage
return. -/
theorem lines_unlines (ls : List (List Char)) (h : ∀ l ∈ ls, '\n' ∉ l)
    (hr : ∀ l ∈ ls, l.getLast? ≠ some '\r') : lines (unlines ls) = ls := by
  induction ls with
  | nil => rfl
  | cons l rest ih =>
    have h₁ := pieces_append_newline l (unlines rest) (h l (by simp))
    have h₂ : unlines (l :: rest) = l ++ '\n' :: unlines rest := by simp [unlines]
    rw [lines, h₂, h₁, List.map_cons, dropTerminator_append_newline l (hr l (by simp))]
    exact congrArg _ (ih (fun x hx => h x (by simp [hx])) fun x hx => hr x (by simp [hx]))

end LadderMachine.Text
