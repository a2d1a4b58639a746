import PicCascade.Platform.Board
import PicCascade.Platform.PortBus

/-!
# Port handlers of a board

What the handlers on a bus do to a board. The pairs are one byte wide: an access of another width
neither reaches their registers nor is split. A fault is passed on to where the handler reports,
once the write that caused it has been carried out.
-/

namespace PicCascade

/-- Where the handlers of the first pair report faults. -/
inductive FaultRoute where
  | latch
  | journal
deriving DecidableEq

/-- What can answer at a port (`Pic8259Port`, and the scratch devices). -/
inductive Handler where
  /-- A register of the first pair, with the place where faults go (`faults`). -/
  | first (route : Option FaultRoute)
  /-- A register of the second pair; faults go to the latch or are dropped. -/
  | second (reports : Bool)
  /-- A scratch device, which takes part in resets or not. -/
  | scratch (id : Nat) (resettable : Bool)
deriving DecidableEq

/-! ## What a handler does to a board -/

namespace Board

/-- Passes on a fault of the first pair (`report_fault`). -/
def report (b : Board) (fault : Fault) : FaultRoute → Board
  | .latch => { b with faults := b.faults.report fault }
  | .journal => { b with journal := b.journal ++ [(fault, b.first)] }

/-- Reads through a handler (`read` of `Pic8259Port`). -/
def readPort (b : Board) (port : UInt16) (size : UInt8) : Handler → UInt32 × Board
  | .first _ =>
    if size = 1 then
      let (value, b) := b.onFirst (·.readPort port)
      (value.toUInt32, b)
    else (openBus size, b)
  | .second _ =>
    if size = 1 then
      let (value, b) := b.onSecond (·.readPort port)
      ((value.map (·.toUInt32)).getD (openBus size), b)
    else (openBus size, b)
  | .scratch id _ =>
    let (value, s) := (b.scratchAt id).read port size
    (value, b.setScratch id s)

/-- Writes through a handler (`write` of `Pic8259Port`). -/
def writePort (b : Board) (port : UInt16) (size : UInt8) (value : UInt32) : Handler → Board
  | .first route =>
    if size = 1 then
      match route, b.onFirst (·.writePort port value.toUInt8) with
      | some route, (some fault, b) => b.report fault route
      | _, (_, b) => b
    else b
  | .second reports =>
    if size = 1 then
      match reports, b.onSecond (·.writePort port value.toUInt8) with
      | true, (some (some fault), b) => b.report fault .latch
      | _, (_, b) => b
    else b
  | .scratch id _ => b.setScratch id ((b.scratchAt id).write port size value)

/-- Resets through a handler (`reset` of `Pic8259Port`). A pair is reset as a whole. -/
def resetPort (b : Board) : Handler → Board
  | .first _ => (b.onFirst (·.reset .cold)).2
  | .second _ => (b.onSecond (·.reset .cold)).2
  | .scratch id resettable =>
    if resettable then b.setScratch id (b.scratchAt id).reset else b

instance : PortDevice Handler Board where
  read handler port size b := b.readPort port size handler
  write handler port size value b := b.writePort port size value handler
  reset handler b := b.resetPort handler

end Board

end PicCascade
