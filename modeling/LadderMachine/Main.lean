import LadderMachine.CommandLine.Transcript

/-!
# The program

Reads the files of an invocation, runs it and prints as it goes. A run without a number of cycles goes
on until it is stopped, and a paced one sleeps out the rest of each cycle period.
-/

namespace LadderMachine.CommandLine

/-- Steps that one cycle may take; far more than any cycle that is waited for. -/
def stepBudget : Nat := Nat.pow 2 62

/-- Number of a system error, which may come with its sign turned. -/
def systemCode (code : UInt32) : Nat := if 0x80000000 ≤ code then (-code).toNat else code.toNat

def faultOf (e : IO.Error) : ReadFault :=
  match e with
  | .noFileOrDirectory _ _ _ => .notFound
  | .inappropriateType _ code _ =>
    match systemCode code with
    | 20 => .notDirectory
    | 21 => .isDirectory
    | _ => .other (toString e)
  | .invalidArgument _ code _ =>
    if systemCode code = 36 then .nameTooLong else .other (toString e)
  | _ => .other (toString e)

def readPath (path : String) : IO (Except ReadFault ByteArray) := do
  try
    return .ok (← IO.FS.readBinFile path)
  catch e => return .error (faultOf e)

/-- The filter that the environment asks for. -/
def requestedFilter : IO (Option LogFilter) := do
  match ← IO.getEnv "LDVM_LOG" with
  | some "off" => return some none
  | some "error" => return some (some .error)
  | some "warn" => return some (some .warn)
  | some "info" => return some (some .info)
  | some "debug" => return some (some .debug)
  | some "trace" => return some (some .trace)
  | _ => return none

def emit (filter : LogFilter) (outputs : List Output) : IO Unit := do
  let stdout ← IO.getStdout
  stdout.putStr (Output.renderAll filter outputs)
  stdout.flush

def finish (filter : LogFilter) (t : Transcript) : IO UInt32 := do
  emit filter t.output
  IO.eprint t.errors
  return UInt32.ofNat t.code

/-- Sleeps until the given number of microseconds after a moment in nanoseconds. -/
def sleepOut (start : Nat) (us : UInt64) : IO Unit := do
  let spent := ((← IO.monoNanosNow) - start) / 1000
  if spent < us.toNat then IO.sleep (UInt32.ofNat ((us.toNat - spent) / 1000))

partial def loop (filter : LogFilter) (options : RunOptions) (s : Session) : IO Session := do
  if options.cycles.any (· ≤ s.count) then return s
  let start ← IO.monoNanosNow
  match s.cycle stepBudget with
  | none => return s
  | some (outputs, next) =>
    emit filter outputs
    if options.realtime then sleepOut start s.simulator.cycleTime
    loop filter options next

def runSession (filter : LogFilter) (options : RunOptions) (config : Config)
    (r : Logged (Except LoadError Image)) : IO UInt32 := do
  let opened := Session.openOn options config r
  match opened.result with
  | .error e => finish filter (.fatal opened.output e)
  | .ok session =>
    emit filter opened.output
    let last ← loop filter options session
    finish filter { output := last.closing options }

def invoke (filter : LogFilter) (i : Invocation) : IO UInt32 := do
  let contents ← i.config.mapM readPath
  let config := match i.config, contents with
    | some path, some c => Config.readContents path c
    | _, _ => .ok {}
  match config, i.command with
  | .error e, _ => finish filter (.fatal [] (.config e))
  | .ok config, .disassemble file =>
    finish filter (disassemble (Container.readContents file (← readPath file) config))
  | .ok config, .run options =>
    runSession filter options config (Container.readContents options.file (← readPath options.file) config)

end LadderMachine.CommandLine

open LadderMachine.CommandLine in
def main (arguments : List String) : IO UInt32 := do
  match parse arguments with
  | .error e => do
    IO.eprintln ("error: " ++ e.message)
    return 2
  | .ok .version => do
    IO.print versionText
    return 0
  | .ok .help => do
    IO.print helpText
    return 0
  | .ok (.invoke i) => do
    let filter := (← requestedFilter).getD (.standard i.verbose)
    invoke filter i
