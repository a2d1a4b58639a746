import PicCascade.Chip.Arbitration

/-!
# One chip

A chip holds its registers and the level of its output, which asks for service. The output is not
a function of the registers at every moment: it is recomputed by the operations below (`refresh`)
and then waits to be forwarded to whatever the chip drives.
-/

namespace PicCascade

/-- A chip at one of the two positions (`Pic`). -/
structure Chip (position : Position) where
  regs : Registers := {}
  /-- The output as it was last recomputed (`int_out`). -/
  output : Bool := false
  /-- The output was recomputed and has not been forwarded since (`int_out_updated`). -/
  unforwarded : Bool := false
deriving DecidableEq

namespace Chip

variable {position : Position}

/-- The line that the chip offers for service (`pending_irq`). -/
def pending? (c : Chip position) : Option Line := c.regs.pending? position

/-- Changes the registers and leaves the output alone. -/
def modify (c : Chip position) (f : Registers → Registers) : Chip position :=
  { c with regs := f c.regs }

/-- Recomputes the output from the registers (`update_irq`). -/
def refresh (c : Chip position) : Chip position :=
  { c with output := c.pending?.isSome, unforwarded := true }

/-- Marks the output as forwarded (`take_int_out_update`). -/
def forwarded (c : Chip position) : Chip position :=
  { c with unforwarded := false }

/-- Drives a request line (`set_irq`). A level-triggered line requests service while it is high. An
edge-triggered line requests service when it rises, and the request stays when it falls. -/
def setLine (c : Chip position) (i : Line) (level : Bool) : Chip position :=
  refresh <| c.modify fun r => { r with
    irr :=
      if i ∈ r.elcr then r.irr.put i level
      else if level ∧ i ∉ r.lastHigh then r.irr.insert i
      else r.irr
    lastHigh := r.lastHigh.put i level }

/-- Acknowledges a line (`intack`): its service begins, or with automatic end of interrupt is over
at once. The request of a level-triggered line stays. -/
def acknowledge (c : Chip position) (i : Line) : Chip position :=
  refresh <| c.modify fun r => { r with
    irr := if i ∈ r.elcr then r.irr else r.irr.erase i
    isr := if r.autoEoi then r.isr else r.isr.insert i
    top := if r.autoEoi && r.rotateOnAutoEoi then Line.next i else r.top }

/-- Withdraws the request of a line and ends its service, and leaves the output alone. These are the
clears in `poll_read`. -/
def retire (c : Chip position) (i : Line) : Chip position :=
  c.modify fun r => { r with irr := r.irr.erase i, isr := r.isr.erase i }

/-- Ends the service of a line. With rotation the line drops to the lowest priority. The
end-of-interrupt commands of `write_ocw2` come down to this. -/
def endService (c : Chip position) (i : Line) (rotate : Bool) : Chip position :=
  refresh <| c.modify fun r => { r with
    isr := r.isr.erase i
    top := if rotate then Line.next i else r.top }

/-- Returns all registers but the trigger modes to their power-on values (`init_reset`). -/
def reset (c : Chip position) : Chip position :=
  refresh <| c.modify fun r => { elcr := r.elcr }

/-- Returns all registers to their power-on values (`cold_reset`). -/
def coldReset (c : Chip position) : Chip position :=
  refresh <| c.modify fun _ => {}

/-- The vector of a line, a sum that wraps. -/
def vector (c : Chip position) (i : Line) : UInt8 := c.regs.base + Line.toByte i

/-- What a status read returns (`read_status`). -/
def status (c : Chip position) : UInt8 :=
  if c.regs.readIsr then c.regs.isr.toByte else c.regs.irr.toByte

end Chip

end PicCascade
