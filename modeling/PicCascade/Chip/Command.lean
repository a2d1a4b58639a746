import PicCascade.Chip.Basic
import PicCascade.Text.Hex

/-!
# Command words of one chip

A byte written to the command port is an initialisation command (ICW1), a mode command (OCW3) or a
priority and end-of-interrupt command (OCW2); bits 4 and 3 tell which. A byte written to the data
port is the mask register, or while an initialisation is under way the next word of it.

Initialisation for level-triggered operation of the whole chip is not supported: such a command is
carried out and reported as a fault.
-/

namespace PicCascade

/-- A programming error of the guest (`PicError`). -/
inductive Fault where
  /-- ICW1 asks for level-triggered operation (`LevelTriggeredInit`). -/
  | levelTriggeredInit (chip : Position) (value : UInt8)
deriving DecidableEq

/-- The text that reports a fault (`Display` of `PicError`). -/
def Fault.message : Fault → String
  | .levelTriggeredInit chip value =>
    chip.name ++ " PIC: level sensitive irq not supported (ICW1=0x" ++ Hex.ofByte value ++ ")"

/-- A command byte, taken apart: the cases of `write_command`, with those of `Ocw2` among them. -/
inductive Command where
  /-- ICW1: begins an initialisation. -/
  | icw1 (levelTriggered single expectIcw4 : Bool)
  /-- OCW3: sets the modes that are given. -/
  | ocw3 (poll : Bool) (readIsr specialMask : Option Bool)
  /-- Switches rotation on automatic end of interrupt (`SetRotateOnAutoEoi`). -/
  | autoRotation (on : Bool)
  /-- Ends the service of the line in service with the highest priority (`NonSpecificEoi`). -/
  | endHighest (rotate : Bool)
  /-- Ends the service of a given line (`SpecificEoi`, and `RotateOnSpecificEoi` with rotation). -/
  | endLine (i : Line) (rotate : Bool)
  /-- Gives a line the lowest priority (`SetPriority`). -/
  | setLowest (i : Line)
  /-- Has no effect (`NoOp`). -/
  | noOperation
deriving DecidableEq

namespace Command

/-- Bit `i` of a byte. -/
def bit (value : UInt8) (i : Nat) : Bool := value.toBitVec.getLsbD i

/-- Takes a command byte apart (the conditions of `write_command`, and `Ocw2::decode`). -/
def decode (value : UInt8) : Command :=
  if bit value 4 then
    .icw1 (bit value 3) (bit value 1) (bit value 0)
  else if bit value 3 then
    .ocw3 (bit value 2)
      (if bit value 1 then some (bit value 0) else none)
      (if bit value 6 then some (bit value 5) else none)
  else
    let line := Line.ofByte value
    match bit value 7, bit value 6, bit value 5 with
    | rotate, false, false => .autoRotation rotate
    | rotate, false, true => .endHighest rotate
    | rotate, true, true => .endLine line rotate
    | true, true, false => .setLowest line
    | false, true, false => .noOperation

/-- The fault of writing the byte to the command port (what `write_command` returns). -/
def fault? (position : Position) (value : UInt8) : Option Fault :=
  match decode value with
  | .icw1 true _ _ => some (.levelTriggeredInit position value)
  | _ => none

end Command

namespace Chip

variable {position : Position}

/-- Carries out a command (the branches of `write_command` and `write_ocw2`). -/
def execute (c : Chip position) : Command → Chip position
  | .icw1 _ single expectIcw4 =>
    c.reset.modify fun r => { r with stage := .awaitingIcw2, single, expectIcw4 }
  | .ocw3 poll readIsr specialMask =>
    c.modify fun r => { r with
      poll := r.poll || poll
      readIsr := readIsr.getD r.readIsr
      specialMask := specialMask.getD r.specialMask }
  | .autoRotation on => c.modify fun r => { r with rotateOnAutoEoi := on }
  | .endHighest rotate =>
    match c.regs.isr.highest? c.regs.top with
    | some i => c.endService i rotate
    | none => c
  | .endLine i rotate => c.endService i rotate
  | .setLowest i => refresh <| c.modify fun r => { r with top := Line.next i }
  | .noOperation => c

/-- A write to the command port (`write_command`). -/
def writeCommand (c : Chip position) (value : UInt8) : Chip position :=
  c.execute (Command.decode value)

/-- The stage after ICW3 (stage 2 of `write_data`). -/
def afterIcw3 (r : Registers) : InitStage := if r.expectIcw4 then .awaitingIcw4 else .ready

/-- A write to the data port (`write_data`). -/
def writeData (c : Chip position) (value : UInt8) : Chip position :=
  match c.regs.stage with
  | .ready => refresh <| c.modify fun r => { r with imr := .ofByte value }
  | .awaitingIcw2 =>
    c.modify fun r => { r with
      base := value &&& 0xF8
      stage := if r.single then afterIcw3 r else .awaitingIcw3 }
  | .awaitingIcw3 => c.modify fun r => { r with stage := afterIcw3 r }
  | .awaitingIcw4 =>
    c.modify fun r => { r with
      specialFullyNested := Command.bit value 4
      autoEoi := Command.bit value 1
      stage := .ready }

/-- A write to the trigger mode port (`write_elcr`). Only the lines in `writable` can be
level-triggered. -/
def writeElcr (c : Chip position) (writable : LineSet 8) (value : UInt8) : Chip position :=
  c.modify fun r => { r with elcr := .ofByte value ∩ writable }

end Chip

end PicCascade
