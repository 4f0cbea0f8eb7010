import LadderMachine.Binary64

/-!
# Statistics

Counters that grow while a machine runs and are never reset. Every cycle is counted once, and so is
every executed instruction; the anomalies are the events that leave a trace in a report.
-/

namespace LadderMachine

structure Statistics where
  cycles : Nat := 0
  /-- Instructions executed, among them markers and those that were skipped. -/
  instructions : Nat := 0
  jumpsTaken : Nat := 0
  divisionsByZero : Nat := 0
  unsupportedOperations : Nat := 0
  addressFaults : Nat := 0
  ranPastEnd : Nat := 0
  stepLimitTrips : Nat := 0
deriving DecidableEq

namespace Statistics

/-- Sum of the anomaly counters; running past the end is not an anomaly. -/
def anomalies (s : Statistics) : Nat :=
  s.divisionsByZero + s.unsupportedOperations + s.addressFaults + s.stepLimitTrips

/-- Instructions per cycle in double precision; zero before the first cycle. -/
def instructionsPerCycle (s : Statistics) : Binary64 :=
  if s.cycles = 0 then .zero else (Binary64.ofNat s.instructions).div (.ofNat s.cycles)

def doubleRule : String := "=========================================================="

def singleRule : String := "----------------------------------------------------------"

def reportLines (s : Statistics) : List String :=
  ["", doubleRule, "LADDER VM STATISTICS", doubleRule,
    "vm_cycles                " ++ toString s.cycles,
    "vm_insts                 " ++ toString s.instructions,
    "vm_insts_per_cycle       " ++ s.instructionsPerCycle.hundredths,
    "vm_jumps_taken           " ++ toString s.jumpsTaken,
    singleRule, "ANOMALIES",
    "  div_by_zero            " ++ toString s.divisionsByZero,
    "  unsupported_ops        " ++ toString s.unsupportedOperations,
    "  address_faults         " ++ toString s.addressFaults,
    "  ran_off_end            " ++ toString s.ranPastEnd,
    "  watchdog_trips         " ++ toString s.stepLimitTrips,
    doubleRule]

def report (s : Statistics) : String := String.join (s.reportLines.map (· ++ "\n"))

end Statistics

end LadderMachine
