import Std.Data.TreeMap
import PicCascade.Pair.Operation
import PicCascade.Platform.Latch
import PicCascade.Platform.Scratch

/-!
# Board

Everything that port accesses can change: a first pair, at times a second one whose output can
drive a request line of the first, the latches, and scratch devices. The output of the first pair
goes to a probe: a recorder, which keeps every level that it is driven to, or a cell, which keeps
the last one. Levels that an operation drives are delivered before the next operation begins.
-/

namespace PicCascade

/-- Where the output of the first pair can go. -/
inductive Probe where
  | recorder
  | cell
deriving DecidableEq

/-- Where the output of the second pair can go. -/
inductive Outlet where
  | probe (probe : Probe)
  /-- A request line of the first pair (`PicIrqLine`). -/
  | request (n : UInt8)
deriving DecidableEq

/-- One of the pairs. -/
inductive Slot where
  | first
  | second
deriving DecidableEq

/-- The state of all devices. -/
structure Board where
  first : Pair Probe
  second : Option (Pair Outlet) := none
  /-- The levels that the recorder was driven to since it was last emptied, oldest first. -/
  recorded : List Bool := []
  /-- The level of the cell. -/
  cell : Bool := false
  faults : FaultLatch := {}
  /-- The faults of the first pair that were journaled, each with the pair as it was then. -/
  journal : List (Fault × Pair Probe) := []
  resets : ResetLatch := {}
  scratch : Std.TreeMap Nat Scratch := ∅

namespace Board

variable {α : Type}

/-! ## Operations on the pairs -/

/-- Delivers a level to a probe. -/
def driveProbe (b : Board) (probe : Probe) (level : Bool) : Board :=
  match probe with
  | .recorder => { b with recorded := b.recorded ++ [level] }
  | .cell => { b with cell := level }

/-- Delivers levels to probes, in order. -/
def driveProbes (b : Board) (driven : List (Probe × Bool)) : Board :=
  driven.foldl (fun b d => b.driveProbe d.1 d.2) b

/-- Runs an operation on the first pair and delivers what it drives. -/
def onFirst (b : Board) (op : Pair Probe → Outcome Probe α) : α × Board :=
  let o := op b.first
  (o.answer, { b with first := o.pair }.driveProbes o.driven)

/-- Delivers a level that the second pair drives. -/
def driveOutlet (b : Board) (wire : Outlet) (level : Bool) : Board :=
  match wire with
  | .probe probe => b.driveProbe probe level
  | .request n => (b.onFirst (·.setLine n level)).2

/-- Delivers levels that the second pair drives, in order. -/
def driveOutlets (b : Board) (driven : List (Outlet × Bool)) : Board :=
  driven.foldl (fun b d => b.driveOutlet d.1 d.2) b

/-- Runs an operation on the second pair, if there is one, and delivers what it drives. -/
def onSecond (b : Board) (op : Pair Outlet → Outcome Outlet α) : Option α × Board :=
  match b.second with
  | none => (none, b)
  | some p =>
    let o := op p
    (some o.answer, { b with second := some o.pair }.driveOutlets o.driven)

/-- Performs an operation on one of the pairs. -/
def perform (b : Board) (slot : Slot) (op : Pair.Operation Probe) :
    Option Pair.Answer × Board :=
  match slot with
  | .first =>
    let (answer, b) := b.onFirst (·.perform op)
    (some answer, b)
  | .second => b.onSecond (·.perform (op.mapWire .probe))

/-- Replaces one of the pairs by a new one with the same wiring, connected to the recorder. -/
def renew (b : Board) : Slot → Board
  | .first => (b.onFirst fun p => (Pair.new p.config).connect (some .recorder)).2
  | .second =>
    (b.onSecond fun p => (Pair.new p.config).connect (some (.probe .recorder))).2

/-- Acts on the request in the reset latch by resetting one of the pairs (`apply_reset`). -/
def applyReset (b : Board) (slot : Slot) : Option Pair.ResetKind × Board :=
  let (kind, resets) := b.resets.take
  let b := { b with resets }
  match kind with
  | none => (none, b)
  | some kind => (some kind, (b.perform slot (.reset kind)).2)

/-! ## Records -/

/-- Hands out the recorded levels and empties the recorder. -/
def takeRecorded (b : Board) : List Bool × Board := (b.recorded, { b with recorded := [] })

/-- Hands out the fault in the latch and empties the latch. -/
def takeFault (b : Board) : Option Fault × Board :=
  let (fault, faults) := b.faults.take
  (fault, { b with faults })

/-- Hands out the request in the reset latch and empties the latch. -/
def takeReset (b : Board) : Option Pair.ResetKind × Board :=
  let (kind, resets) := b.resets.take
  (kind, { b with resets })

/-- A scratch device. One that was never accessed is as after power-on. -/
def scratchAt (b : Board) (id : Nat) : Scratch := b.scratch[id]?.getD {}

/-- Replaces a scratch device. -/
def setScratch (b : Board) (id : Nat) (s : Scratch) : Board :=
  { b with scratch := b.scratch.insert id s }

/-- Shows a scratch device and empties its record. -/
def takeScratch (b : Board) (id : Nat) : Scratch × Board :=
  let s := b.scratchAt id
  (s, b.setScratch id { s with accesses := [] })

end Board

end PicCascade
