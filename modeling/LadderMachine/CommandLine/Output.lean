import LadderMachine.Event

/-!
# Output of the command line

What a command prints is a sequence of texts and events. An event becomes a line of its own when its
level is not below the level asked for, and leaves no trace otherwise.
-/

namespace LadderMachine.CommandLine

inductive Output
  | text (content : String)
  | event (event : Event)
deriving DecidableEq

/-- The least level that is shown; `none` shows nothing. -/
abbrev LogFilter := Option Level

namespace LogFilter

def shows (filter : LogFilter) (level : Level) : Bool :=
  match filter with
  | none => false
  | some least => least.rank ≤ level.rank

def standard (verbose : Bool) : LogFilter := some (if verbose then .debug else .info)

end LogFilter

namespace Output

/-- The line of an event, its level aligned to the right in five columns. -/
def logLine (e : Event) : String :=
  String.ofList (e.level.label.toList.leftpad 5 ' ') ++ " " ++ e.text ++ "\n"

def render (filter : LogFilter) : Output → String
  | text content => content
  | event e => if filter.shows e.level then logLine e else ""

def ofEvents (events : List Event) : List Output := events.map event

def renderAll (filter : LogFilter) (outputs : List Output) : String :=
  String.join (outputs.map (render filter))

end Output

end LadderMachine.CommandLine
