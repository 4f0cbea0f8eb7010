import LadderMachine.Text.Decimal

/-!
# Command-line arguments

The grammar of the command line. Options stand before or after the file; short ones can be written
together and carry their value attached, after an equals sign or as the next argument, which must not
look like an option itself. Behind `--` everything is a file. A subcommand starts a grammar of its own;
what stood before it has to be well formed but counts no more, except for the two global options, which
the subcommand may give again.
-/

namespace LadderMachine.CommandLine

inductive UsageError
  | unknownArgument (text : String)
  | unexpectedValue (text : String)
  | missingValue (text : String)
  | invalidValue (text : String)
  | repeated (text : String)
deriving DecidableEq

def UsageError.message : UsageError → String
  | unknownArgument text => "unknown argument '" ++ text ++ "'"
  | unexpectedValue text => "'" ++ text ++ "' takes no value"
  | missingValue text => "'" ++ text ++ "' needs a value"
  | invalidValue text => "'" ++ text ++ "' has an invalid value"
  | repeated text => "'" ++ text ++ "' is given more than once"

inductive Flag
  | verbose
  | realtime
  | listing
  | statistics
  | dump
  | version
  | help
deriving DecidableEq

inductive Setting
  | config
  | cycles
  | watch
  | oscillator
deriving DecidableEq

/-- The grammars of the command line itself and of its subcommands. -/
inductive Grammar
  | main
  | run
  | disassemble
deriving DecidableEq

abbrev Switch := Flag ⊕ Setting

def longName? (name : String) : Option Switch :=
  match name with
  | "verbose" => some (.inl .verbose)
  | "realtime" => some (.inl .realtime)
  | "disasm" => some (.inl .listing)
  | "stats" => some (.inl .statistics)
  | "dump" => some (.inl .dump)
  | "version" => some (.inl .version)
  | "help" => some (.inl .help)
  | "config" => some (.inr .config)
  | "cycles" => some (.inr .cycles)
  | "watch" => some (.inr .watch)
  | "osc" => some (.inr .oscillator)
  | _ => none

def shortName? (name : Char) : Option Switch :=
  match name with
  | 'v' => some (.inl .verbose)
  | 'V' => some (.inl .version)
  | 'h' => some (.inl .help)
  | 'c' => some (.inr .config)
  | 'n' => some (.inr .cycles)
  | 'w' => some (.inr .watch)
  | _ => none

def Grammar.allows : Grammar → Switch → Bool
  | _, .inl .verbose => true
  | _, .inl .help => true
  | _, .inr .config => true
  | .main, .inl .version => true
  | .run, .inl .version => false
  | .main, _ => true
  | .run, _ => true
  | .disassemble, _ => false

def Grammar.subcommand? (g : Grammar) (name : String) : Option Grammar :=
  match g, name with
  | .main, "run" => some .run
  | .main, "disasm" => some .disassemble
  | _, _ => none

/-- What the arguments of one grammar have given so far. -/
structure Given where
  flags : List Flag := []
  file : Option String := none
  config : Option String := none
  cycles : Option Nat := none
  watches : List String := []
  oscillator : Option String := none
deriving DecidableEq

namespace Given

def has (g : Given) (f : Flag) : Bool := g.flags.contains f

def addFlag (g : Given) (f : Flag) (text : String) : Except UsageError Given :=
  if g.has f then .error (.repeated text) else .ok { g with flags := f :: g.flags }

def addFile (g : Given) (name : String) : Except UsageError Given :=
  if g.file.isSome then .error (.unknownArgument name)
  else if name = "" then .error (.invalidValue name)
  else .ok { g with file := some name }

/-- Takes the value of an option. Only names can be watched in any number, and may be empty. -/
def addSetting (g : Given) (s : Setting) (value : String) : Except UsageError Given :=
  match s with
  | .config =>
    if g.config.isSome then .error (.repeated value)
    else if value = "" then .error (.invalidValue value)
    else .ok { g with config := some value }
  | .cycles =>
    if g.cycles.isSome then .error (.repeated value)
    else match Decimal.word? value.toList with
      | some n => .ok { g with cycles := some n }
      | none => .error (.invalidValue value)
  | .watch => .ok { g with watches := g.watches ++ [value] }
  | .oscillator =>
    if g.oscillator.isSome then .error (.repeated value)
    else .ok { g with oscillator := some value }

end Given

/-- What one argument amounts to: it is taken in, or its option still lacks a value, or it asks for
information and nothing else. -/
inductive Taken
  | whole (given : Given)
  | awaiting (setting : Setting) (given : Given)
  | version
  | help

def takeFlag (g : Given) (f : Flag) (text : String) : Except UsageError Taken :=
  match f with
  | .version => .ok .version
  | .help => .ok .help
  | f => (g.addFlag f text).map .whole

def takeLong (grammar : Grammar) (g : Given) (body : List Char) : Except UsageError Taken :=
  let name := String.ofList (body.takeWhile (· ≠ '='))
  let value? := match body.dropWhile (· ≠ '=') with
    | [] => none
    | _ :: value => some (String.ofList value)
  match (longName? name).filter grammar.allows with
  | none => .error (.unknownArgument name)
  | some (.inl f) =>
    match value? with
    | none => takeFlag g f name
    | some _ => .error (.unexpectedValue name)
  | some (.inr s) =>
    match value? with
    | none => .ok (.awaiting s g)
    | some value => (g.addSetting s value).map .whole

def dropEquals : List Char → List Char
  | '=' :: cs => cs
  | cs => cs

/-- Takes options given by their short names; the first one with a value takes all that follows. -/
def takeShort (grammar : Grammar) (g : Given) : List Char → Except UsageError Taken
  | [] => .ok (.whole g)
  | c :: cs =>
    match (shortName? c).filter grammar.allows with
    | none => .error (.unknownArgument c.toString)
    | some (.inr s) =>
      if cs = [] then .ok (.awaiting s g)
      else (g.addSetting s (String.ofList (dropEquals cs))).map .whole
    | some (.inl f) =>
      match takeFlag g f c.toString with
      | .ok (.whole g') => takeShort grammar g' cs
      | other => other

def takeArgument (grammar : Grammar) (g : Given) (argument : String) : Except UsageError Taken :=
  match argument.toList with
  | '-' :: '-' :: body => takeLong grammar g body
  | '-' :: c :: cs => takeShort grammar g (c :: cs)
  | _ => (g.addFile argument).map .whole

/-- An argument that cannot be the value of an option; a single hyphen can. -/
def looksLikeOption (argument : String) : Bool :=
  argument.toList.head? = some '-' && argument ≠ "-"

structure RunOptions where
  file : String
  cycles : Option Nat := none
  realtime : Bool := false
  listing : Bool := false
  watches : List String := []
  oscillator : Option String := none
  statistics : Bool := false
  dump : Bool := false
deriving DecidableEq

inductive Command
  | run (options : RunOptions)
  | disassemble (file : String)
deriving DecidableEq

structure Invocation where
  verbose : Bool := false
  config : Option String := none
  command : Command
deriving DecidableEq

inductive Request
  | version
  | help
  | invoke (invocation : Invocation)
deriving DecidableEq

def defaultFile : String := "program.int"

def Given.runOptions (g : Given) : RunOptions where
  file := g.file.getD defaultFile
  cycles := g.cycles
  realtime := g.has .realtime
  listing := g.has .listing
  watches := g.watches
  oscillator := g.oscillator
  statistics := g.has .statistics
  dump := g.has .dump

/-- The invocation that the arguments of a grammar amount to, below those that stood before it. -/
def invocation (grammar : Grammar) (outer g : Given) : Invocation where
  verbose := outer.has .verbose || g.has .verbose
  config := g.config.or outer.config
  command := match grammar with
    | .main => .run g.runOptions
    | .run => .run g.runOptions
    | .disassemble => .disassemble (g.file.getD defaultFile)

/-- Takes the arguments behind `--`. -/
def parseFiles (grammar : Grammar) (outer g : Given) : List String → Except UsageError Request
  | [] => .ok (.invoke (invocation grammar outer g))
  | argument :: rest =>
    match g.addFile argument with
    | .error e => .error e
    | .ok g' => parseFiles grammar outer g' rest

/-- Takes the arguments behind the subcommand that asks for help, which names at most one other. -/
def parseHelp : List String → Except UsageError Request
  | [] => .ok .help
  | name :: rest =>
    if (name = "help" ∨ (Grammar.main.subcommand? name).isSome) ∧ rest = [] then .ok .help
    else .error (.unknownArgument name)

def parseIn (grammar : Grammar) (outer g : Given) : List String → Except UsageError Request
  | [] => .ok (.invoke (invocation grammar outer g))
  | argument :: rest =>
    match grammar.subcommand? argument with
    | some inner => parseIn inner g {} rest
    | none =>
      if grammar = .main ∧ argument = "help" then parseHelp rest
      else if argument = "--" then parseFiles grammar outer g rest
      else match takeArgument grammar g argument with
        | .error e => .error e
        | .ok .version => .ok .version
        | .ok .help => .ok .help
        | .ok (.whole g') => parseIn grammar outer g' rest
        | .ok (.awaiting setting g') =>
          match rest with
          | [] => .error (.missingValue argument)
          | value :: rest =>
            if looksLikeOption value then .error (.missingValue argument)
            else match g'.addSetting setting value with
              | .error e => .error e
              | .ok g'' => parseIn grammar outer g'' rest

def parse (arguments : List String) : Except UsageError Request := parseIn .main {} {} arguments

end LadderMachine.CommandLine
