import LadderMachine.Container.Reader
import LadderMachine.Proofs.Text.Lines

/-!
# What ends a line does not matter

A line ends at a line feed, alone or behind a carriage return, and the last line may be left open. A text
without carriage returns has the same lines if all its line feeds are replaced by the other terminator
(`lines_terminate`), or if its open last line is ended (`lines_append_chars`). No later stage sees the
terminators, so such texts are read alike: as the same image or the same fault, with the same report.
-/

namespace LadderMachine

namespace Text

inductive Terminator
  | feed
  | returnFeed

def Terminator.chars : Terminator → List Char
  | feed => ['\n']
  | returnFeed => ['\r', '\n']

/-- The text with the terminator in place of every line feed. -/
def terminate (t : Terminator) (text : List Char) : List Char :=
  text.flatMap fun c => if c = '\n' then t.chars else [c]

variable {text line : List Char} {ls : List (List Char)}

theorem terminate_of_not_mem (t : Terminator) (hn : '\n' ∉ line) : terminate t line = line := by
  induction line with
  | nil => rfl
  | cons c r ih =>
    simp only [List.mem_cons, not_or] at hn
    rw [terminate, List.flatMap_cons, if_neg (Ne.symm hn.1), ← terminate, ih hn.2]
    rfl

theorem terminate_append_feed (t : Terminator) (rest : List Char) (hn : '\n' ∉ line) :
    terminate t (line ++ '\n' :: rest) = line ++ (t.chars ++ terminate t rest) := by
  rw [terminate, List.flatMap_append, ← terminate, terminate_of_not_mem t hn, List.flatMap_cons,
    if_pos rfl, ← terminate]

theorem lines_append_chars_append (t : Terminator) (rest : List Char) (hn : '\n' ∉ line)
    (hr : '\r' ∉ line) : lines (line ++ (t.chars ++ rest)) = line :: lines rest := by
  cases t with
  | feed =>
    have hcut := lines_append_feed rest hn
    rwa [dropReturn_of_not_mem hr] at hcut
  | returnFeed =>
    have hn' : '\n' ∉ line ++ ['\r'] := by simpa using hn
    have hcut := lines_append_feed rest hn'
    have hdrop : dropReturn (line ++ ['\r']) = line := by simp [dropReturn]
    rwa [hdrop, List.append_assoc] at hcut

theorem Splits.lines_terminate (h : Splits text ls) (t : Terminator) (hr : '\r' ∉ text) :
    lines (terminate t text) = ls := by
  induction h with
  | empty => rfl
  | last hn hne => rw [terminate_of_not_mem t hn, lines_of_not_mem hn hne]
  | feed hn _ ih =>
    simp only [List.mem_append, List.mem_cons, not_or] at hr
    rw [terminate_append_feed t _ hn, lines_append_chars_append t _ hn hr.1, ih hr.2.2,
      dropReturn_of_not_mem hr.1]

/-- A terminator behind the last line adds nothing, unless there is no line. -/
theorem Splits.lines_append_chars (h : Splits text ls) (t : Terminator) (hr : '\r' ∉ text)
    (hne : text ≠ []) (hopen : text.getLast? ≠ some '\n') : lines (text ++ t.chars) = ls := by
  induction h with
  | empty => exact absurd rfl hne
  | last hn _ =>
    have hend := lines_append_chars_append t [] hn hr
    rwa [List.append_nil] at hend
  | @feed line rest _ hn _ ih =>
    simp only [List.mem_append, List.mem_cons, not_or] at hr
    have hrest : rest ≠ [] := by
      rintro rfl
      simp at hopen
    have hlast : rest.getLast? ≠ some '\n' := by
      rwa [List.getLast?_append_cons, List.getLast?_cons_of_ne_nil hrest] at hopen
    have hcut := lines_append_feed (rest ++ t.chars) hn
    rw [List.append_assoc, List.cons_append, hcut, ih hr.2.2 hrest hlast]

end Text

namespace Container

theorem read_ofList (cs : List Char) (config : Config) :
    read (String.ofList cs) config = readLines config (Text.lines cs) := by
  rw [read, String.toList_ofList]

/-- A text without carriage returns is read as before if every line feed in it is replaced by either
terminator, and if either terminator is added behind an open last line. -/
theorem read_terminate (text : String) (hr : '\r' ∉ text.toList) (config : Config)
    (t : Text.Terminator) :
    read (String.ofList (Text.terminate t text.toList)) config = read text config ∧
      (text.toList.getLast? ≠ some '\n' →
        read (String.ofList (text.toList ++ t.chars)) config = read text config) := by
  have hsplits := Text.splits_lines text.toList
  constructor
  · rw [read_ofList, hsplits.lines_terminate t hr, read]
  · intro hopen
    rw [read_ofList, read]
    by_cases hne : text.toList = []
    · -- No line and an empty first line both lack the signature.
      rw [hne]
      cases t <;> rfl
    · rw [hsplits.lines_append_chars t hr hne hopen]

/-- A faulty mapping on the last line is quoted without the terminators around it. -/
theorem read_terminate_faulty :
    (read "$$LDcode\r\nff0000000000000000000000\r\n$$bits\r\n$$note\r\nX1" {}) =
        ⟨.error (.malformedMapping 5 "X1"), [.ignoredSentinel 4 "$$note"]⟩ ∧
      (read "$$LDcode\nff0000000000000000000000\n$$bits\n$$note\nX1\r\n" {}) =
        ⟨.error (.malformedMapping 5 "X1"), [.ignoredSentinel 4 "$$note"]⟩ := by
  have hread : read "$$LDcode\nff0000000000000000000000\n$$bits\n$$note\nX1" {} =
      ⟨.error (.malformedMapping 5 "X1"), [.ignoredSentinel 4 "$$note"]⟩ := by
    rfl
  obtain ⟨hreplaced, hadded⟩ := read_terminate
    "$$LDcode\nff0000000000000000000000\n$$bits\n$$note\nX1" (by decide) {} .returnFeed
  exact ⟨hreplaced.trans hread, (hadded (by decide)).trans hread⟩

end Container

end LadderMachine
