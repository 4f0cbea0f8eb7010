import Mathlib.Data.List.Basic
import LadderMachine.Text.Lines

/-!
# What the lines of a text are

`Splits` describes the lines of a text by the line feeds in it, without cutting it into pieces, and
`lines_eq_iff` says that `lines` finds exactly these. So no line holds a line feed. `keepLines` cuts a
text behind its first lines.
-/

namespace LadderMachine.Text

variable {text line rest : List Char} {ls : List (List Char)}

def dropReturn (line : List Char) : List Char :=
  if line.getLast? = some '\r' then line.dropLast else line

/-- Every line feed ends a line, and a carriage return directly before it goes with it. What follows
the last line feed is a line as it stands, unless it is empty. -/
inductive Splits : List Char → List (List Char) → Prop
  | empty : Splits [] []
  | last {line : List Char} (hn : '\n' ∉ line) (hne : line ≠ []) : Splits line [line]
  | feed {line rest : List Char} {ls : List (List Char)} (hn : '\n' ∉ line) (h : Splits rest ls) :
    Splits (line ++ '\n' :: rest) (dropReturn line :: ls)

theorem dropReturn_of_not_mem (hr : '\r' ∉ line) : dropReturn line = line :=
  if_neg fun h => hr (List.mem_of_getLast? h)

theorem pieces_of_not_mem (hn : '\n' ∉ line) (hne : line ≠ []) : pieces line = [line] := by
  induction line with
  | nil => exact absurd rfl hne
  | cons c r ih =>
    simp only [List.mem_cons, not_or] at hn
    cases r with
    | nil => rfl
    | cons d s => rw [pieces_cons, ih hn.2 (by simp), consPiece, if_neg (Ne.symm hn.1)]

theorem dropTerminator_of_not_mem (hn : '\n' ∉ line) : dropTerminator line = line := by
  induction line with
  | nil => rfl
  | cons c r ih =>
    have hr := ih fun h => hn (List.mem_cons_of_mem _ h)
    rw [dropTerminator_cons, hr]
    · intro h
      simp [h] at hn
    · intro h
      simp [h] at hn

theorem dropTerminator_append_return (line : List Char) :
    dropTerminator (line ++ ['\r', '\n']) = line := by
  induction line with
  | nil => rfl
  | cons c r ih =>
    rw [List.cons_append, dropTerminator_cons, ih]
    · cases r <;> simp
    · rcases r with _ | ⟨_, _ | _⟩ <;> simp

theorem dropTerminator_append_feed (line : List Char) :
    dropTerminator (line ++ ['\n']) = dropReturn line := by
  by_cases h : line.getLast? = some '\r'
  · obtain ⟨before, rfl⟩ := List.getLast?_eq_some_iff.1 h
    simpa [dropReturn] using dropTerminator_append_return before
  · rw [dropReturn, if_neg h]
    exact dropTerminator_append_newline line h

theorem lines_of_not_mem (hn : '\n' ∉ line) (hne : line ≠ []) : lines line = [line] := by
  simp [lines, pieces_of_not_mem hn hne, dropTerminator_of_not_mem hn]

theorem lines_append_feed (rest : List Char) (hn : '\n' ∉ line) :
    lines (line ++ '\n' :: rest) = dropReturn line :: lines rest := by
  simp [lines, pieces_append_newline line rest hn, dropTerminator_append_feed]

theorem splits_lines (text : List Char) : Splits text (lines text) := by
  by_cases h : '\n' ∈ text
  · obtain ⟨line, rest, ht, hn⟩ := List.eq_append_cons_of_mem h
    have hlt : rest.length < text.length := by simp [ht]; omega
    rw [ht, lines_append_feed rest hn]
    exact .feed hn (splits_lines rest)
  · cases text with
    | nil => exact .empty
    | cons c r =>
      rw [lines_of_not_mem h (by simp)]
      exact .last h (by simp)
termination_by text.length

theorem lines_eq_of_splits (h : Splits text ls) : lines text = ls := by
  induction h with
  | empty => rfl
  | last hn hne => exact lines_of_not_mem hn hne
  | feed hn _ ih => rw [lines_append_feed _ hn, ih]

theorem lines_eq_iff : lines text = ls ↔ Splits text ls := by
  constructor
  · rintro rfl
    exact splits_lines text
  · exact lines_eq_of_splits

theorem Splits.not_mem (h : Splits text ls) (hl : line ∈ ls) : '\n' ∉ line := by
  induction h with
  | empty => exact absurd hl (by simp)
  | last hn _ => rwa [List.mem_singleton.1 hl]
  | @feed first _ _ hn _ ih =>
    rcases List.mem_cons.1 hl with rfl | hl
    · unfold dropReturn
      split
      · exact fun h => hn (List.dropLast_subset _ h)
      · exact hn
    · exact ih hl

theorem not_mem_of_mem_lines (h : line ∈ lines text) : '\n' ∉ line :=
  (splits_lines text).not_mem h

/-- A text that ends in a line feed holds whole lines, whatever follows. -/
theorem lines_feed_append (above rest : List Char) :
    lines (above ++ '\n' :: rest) = lines (above ++ ['\n']) ++ lines rest := by
  by_cases h : '\n' ∈ above
  · obtain ⟨line, above', ha, hn⟩ := List.eq_append_cons_of_mem h
    have hlt : above'.length < above.length := by simp [ha]; omega
    rw [ha, List.append_assoc, List.append_assoc, List.cons_append, List.cons_append,
      lines_append_feed _ hn, lines_append_feed _ hn, lines_feed_append above' rest, List.cons_append]
  · rw [lines_append_feed rest h, lines_append_feed [] h]
    rfl
termination_by above.length

theorem pieces_unlines (h : ∀ l ∈ ls, '\n' ∉ l) : pieces (unlines ls) = ls.map (· ++ ['\n']) := by
  induction ls with
  | nil => rfl
  | cons l rest ih =>
    have hcut : unlines (l :: rest) = l ++ '\n' :: unlines rest := by
      simp [unlines]
    rw [hcut, pieces_append_newline l _ (h l (by simp)), List.map_cons,
      ih fun l' hl => h l' (List.mem_cons_of_mem _ hl)]

/-- Lines can be told from the text in which each of them ends in a line feed. -/
theorem unlines_inj {ls ms : List (List Char)} (hl : ∀ l ∈ ls, '\n' ∉ l) (hm : ∀ l ∈ ms, '\n' ∉ l)
    (h : unlines ls = unlines ms) : ls = ms := by
  have hpieces : ls.map (· ++ ['\n']) = ms.map (· ++ ['\n']) := by
    rw [← pieces_unlines hl, h, pieces_unlines hm]
  exact (List.map_inj_right fun _ _ => List.append_cancel_right).1 hpieces

/-- Lines that are put together with line feeds behind them. -/
theorem toList_join_feeds (ls : List String) :
    (String.join (ls.map (· ++ "\n"))).toList = unlines (ls.map String.toList) := by
  simp [unlines, String.toList_join, List.flatMap_map]

/-- The first lines of a text, each with its terminator. -/
def keepLines (n : Nat) (text : List Char) : List Char := ((pieces text).take n).flatten

theorem pieces_keepLines (n : Nat) (text : List Char) :
    pieces (keepLines n text) = (pieces text).take n := by
  induction n generalizing text with
  | zero => rfl
  | succ n ih =>
    by_cases h : '\n' ∈ text
    · obtain ⟨line, rest, rfl, hn⟩ := List.eq_append_cons_of_mem h
      have hkeep : keepLines (n + 1) (line ++ '\n' :: rest) = line ++ '\n' :: keepLines n rest := by
        simp [keepLines, pieces_append_newline line rest hn]
      rw [hkeep, pieces_append_newline _ _ hn, pieces_append_newline _ _ hn, ih,
        List.take_succ_cons]
    · by_cases hne : text = []
      · rw [hne]
        rfl
      · have hkeep : keepLines (n + 1) text = text := by
          simp [keepLines, pieces_of_not_mem h hne]
        rw [hkeep, pieces_of_not_mem h hne, List.take_succ_cons, List.take_nil]

theorem lines_keepLines (n : Nat) (text : List Char) :
    lines (keepLines n text) = (lines text).take n := by
  rw [lines, pieces_keepLines, List.map_take, lines]

end LadderMachine.Text
