import LadderMachine.CommandLine.Session

/-!
# Transcripts of commands

A command in full: its exit code and everything it prints, given the files it can read. The exit code
is 2 for arguments that do not follow the grammar, 1 for a command that ends early and 0 otherwise.
-/

namespace LadderMachine.CommandLine

/-- Contents of the file at a path, or the reason why there are none. -/
abbrev FileReader := String → Except ReadFault ByteArray

def versionText : String := "ldvm 0.4.0\n"

def helpText : String := String.join <| List.map (· ++ "\n")
  ["Ladder-logic bytecode interpreter", "",
    "Usage: ldvm [OPTIONS] [FILE]", "       ldvm run [OPTIONS] [FILE]",
    "       ldvm disasm [OPTIONS] [FILE]", "",
    "  -n, --cycles <CYCLES>  Stop after this many cycles",
    "      --realtime         Sleep out the remainder of each cycle period",
    "      --disasm           Print the program listing before running",
    "  -w, --watch <NAME>     Print a named variable after every cycle",
    "      --osc <NAME>       Toggle a named bit before every cycle",
    "      --stats            Print statistics on exit",
    "      --dump             Print every non-zero memory cell on exit",
    "  -c, --config <CONFIG>  JSON configuration file",
    "  -v, --verbose          Log at debug level",
    "  -h, --help             Print help", "  -V, --version          Print version"]

structure Transcript where
  code : Nat := 0
  output : List Output := []
  errors : String := ""

namespace Transcript

def fatal (output : List Output) (reason : Fatal) : Transcript where
  code := 1
  output := output
  errors := "[!] FATAL: " ++ reason.message ++ "\n"

end Transcript

def readConfig (files : FileReader) : Option String → Except ConfigError Config
  | none => .ok {}
  | some path => Config.readContents path (files path)

def readContainer (files : FileReader) (path : String) (config : Config) :
    Logged (Except LoadError Image) :=
  Container.readContents path (files path) config

def disassemble (r : Logged (Except LoadError Image)) : Transcript :=
  match r.value with
  | .error e => .fatal (Output.ofEvents r.events) (.load e)
  | .ok image =>
    let listing := image.program.listing
    let output := Output.ofEvents r.events ++ listingOutput listing
    match listing.check with
    | .error e => .fatal output (.listing e)
    | .ok () => { output }

def runCycles (budget : Nat) (options : RunOptions) (cycles : Nat) (config : Config)
    (r : Logged (Except LoadError Image)) : Option Transcript :=
  let opened := Session.openOn options config r
  match opened.result with
  | .error e => some (.fatal opened.output e)
  | .ok session =>
    match session.cycles budget cycles #[] with
    | none => none
    | some (shown, last) => some { output := opened.output ++ shown ++ last.closing options }

/-- A whole invocation; none if it does not end. -/
def Invocation.transcript (budget : Nat) (i : Invocation) (files : FileReader) : Option Transcript :=
  match readConfig files i.config with
  | .error e => some (.fatal [] (.config e))
  | .ok config =>
    match i.command with
    | .disassemble file => some (disassemble (readContainer files file config))
    | .run options =>
      let r := readContainer files options.file config
      match options.cycles with
      | some n => runCycles budget options n config r
      | none =>
        match (Session.openOn options config r).result with
        | .error _ => runCycles budget options 0 config r
        | .ok _ => none

structure Result where
  code : Nat
  stdout : String
  stderr : String
deriving DecidableEq

/-- Runs a command. Without a filter asked for, the verbosity of the invocation decides. -/
def run (budget : Nat) (filter : Option LogFilter) (arguments : List String) (files : FileReader) :
    Option Result :=
  match parse arguments with
  | .error e => some ⟨2, "", "error: " ++ e.message ++ "\n"⟩
  | .ok .version => some ⟨0, versionText, ""⟩
  | .ok .help => some ⟨0, helpText, ""⟩
  | .ok (.invoke i) =>
    (i.transcript budget files).map fun t =>
      ⟨t.code, Output.renderAll (filter.getD (.standard i.verbose)) t.output, t.errors⟩

end LadderMachine.CommandLine
