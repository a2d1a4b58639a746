import PicCascade.Pair.Acknowledge

/-!
# Port access

The guest programs the pair through byte-wide ports. A port without a register reads as all ones
and takes no writes. A write that is a fault is carried out all the same.
-/

namespace PicCascade.Pair

variable {Wire : Type}

/-- Reads a command port: polls the chip if that was asked for, else returns a status (the `Command`
branch of `port_read_u8`). -/
def readCommand (p : Pair Wire) (position : Position) : Outcome Wire UInt8 :=
  if (p.chip position).regs.poll then
    let (i, p) := p.poll position
    (p.modifyChip position (·.modify fun r => { r with poll := false })).settle (Line.toByte i)
  else ⟨(p.chip position).status, p, []⟩

/-- Reads a register (the branches of `port_read_u8`). -/
def readRegister (p : Pair Wire) : Register → Outcome Wire UInt8
  | .command position => p.readCommand position
  | .data position => ⟨(p.chip position).regs.imr.toByte, p, []⟩
  | .elcr position => ⟨(p.chip position).regs.elcr.toByte, p, []⟩

/-- Reads a port (`port_read_u8`). -/
def readPort (p : Pair Wire) (port : UInt16) : Outcome Wire UInt8 :=
  match p.config.decode? port with
  | none => ⟨0xFF, p, []⟩
  | some register => p.readRegister register

/-- Writes a register (the branches of `port_write_u8`). The answer is the fault, if the write is
one. -/
def writeRegister (p : Pair Wire) (value : UInt8) : Register → Outcome Wire (Option Fault)
  | .command position =>
    (p.modifyChip position (·.writeCommand value)).settle (Command.fault? position value)
  | .data position => (p.modifyChip position (·.writeData value)).settle none
  | .elcr position =>
    (p.modifyChip position (·.writeElcr (p.config.chip position).elcrMask value)).settle none

/-- Writes a port (`port_write_u8`). -/
def writePort (p : Pair Wire) (port : UInt16) (value : UInt8) : Outcome Wire (Option Fault) :=
  match p.config.decode? port with
  | none => ⟨none, p, []⟩
  | some register => p.writeRegister value register

end PicCascade.Pair
