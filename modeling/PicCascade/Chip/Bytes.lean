import PicCascade.Chip.Command

/-!
# A chip on bytes

The registers of `PicCascade.Registers` cannot leave their ranges: a line is one of eight and a
stage one of four. Here the same chip works on a register file in which both are plain bytes, with
the byte arithmetic of the hardware interface: a set of lines is a mask, the line at some distance
from the highest priority is a sum modulo 8, and the search for the first line of a mask counts the
distance upwards. A line that a command names is the low three bits of the command byte. An addition
that exceeds a byte and a shift beyond a byte are faults, and so is every operation that runs into
one. There is no result then.

`Registers.bytes` and `Chip.bytes` give the register file and the chip on bytes that stand for
registers and a chip.
-/

namespace PicCascade

/-! ## Checked arithmetic -/

namespace Checked

/-- The sum of two bytes, unless it exceeds a byte. -/
def add? (a b : UInt8) : Option UInt8 := if a.toNat + b.toNat < 256 then some (a + b) else none

/-- The byte 1 shifted left, unless this shifts by more than 7. -/
def bit? (n : UInt8) : Option UInt8 := if n < 8 then some (1 <<< n) else none

theorem toNat_of_add? {a b c : UInt8} (h : add? a b = some c) : c.toNat = a.toNat + b.toNat := by
  unfold add? at h
  split at h
  · rename_i fits
    rw [← Option.some.inj h, UInt8.toNat_add]
    exact Nat.mod_eq_of_lt fits
  · cases h

end Checked

open Checked

/-! ## The register file -/

/-- The registers of a chip as bytes and flags (`ChipState`): the fields are those of `Registers`,
in the same order. Nothing keeps the bytes in range. -/
structure RegisterFile where
  lastHigh : UInt8 := 0
  irr : UInt8 := 0
  imr : UInt8 := 0
  isr : UInt8 := 0
  top : UInt8 := 0
  base : UInt8 := 0
  readIsr : Bool := false
  poll : Bool := false
  specialMask : Bool := false
  stage : UInt8 := 0
  autoEoi : Bool := false
  rotateOnAutoEoi : Bool := false
  specialFullyNested : Bool := false
  expectIcw4 : Bool := false
  single : Bool := false
  elcr : UInt8 := 0
deriving DecidableEq

namespace RegisterFile

/-- Counts up from a distance to the first one at which there is a line of the mask (the loop of
`priority`). -/
def scan? (mask top distance : UInt8) : Option UInt8 := do
  let line ← add? distance top
  let bit ← bit? (line &&& 7)
  if mask &&& bit = 0 then
    match _ : add? distance 1 with
    | none => none
    | some further => scan? mask top further
  else some distance
termination_by 256 - distance.toNat
decreasing_by
  have sum := toNat_of_add? ‹add? distance 1 = some further›
  have bound := further.toNat_lt
  rw [UInt8.toNat_one] at sum
  omega

/-- The distance from the line with the highest priority to the first line of the mask, and 8 if the
mask is empty (`priority`). -/
def distance? (r : RegisterFile) (mask : UInt8) : Option UInt8 :=
  if mask = 0 then some 8 else scan? mask r.top 0

/-- The lines in service that keep lines of the same or a larger distance waiting (`in_service` in
`pending_irq`). -/
def blocking? (position : Position) (r : RegisterFile) : Option UInt8 :=
  let unmasked := if r.specialMask then r.isr &&& ~~~r.imr else r.isr
  if r.specialFullyNested && position = .primary then do
    let cascade ← bit? (Line.toByte Line.cascade)
    return unmasked &&& ~~~cascade
  else some unmasked

/-- The line with the highest priority, after line `i` has dropped to the lowest if `rotate`. -/
def rotated? (r : RegisterFile) (i : UInt8) (rotate : Bool) : Option UInt8 :=
  if rotate then do
    let next ← add? i 1
    return next &&& 7
  else some r.top

/-- The number of the stage after ICW2 (stage 1 of `write_data`). -/
def afterIcw2 (r : RegisterFile) : UInt8 :=
  match r.single, r.expectIcw4 with
  | true, true => 3
  | true, false => 0
  | false, _ => 2

/-- The number of the stage after ICW3 (stage 2 of `write_data`). -/
def afterIcw3 (r : RegisterFile) : UInt8 := if r.expectIcw4 then 3 else 0

/-- The line that the chip offers for service (`pending_irq`). -/
def pending? (position : Position) (r : RegisterFile) : Option (Option UInt8) := do
  let distance ← r.distance? (r.irr &&& ~~~r.imr)
  if distance = 8 then
    return none
  else
    let current ← r.distance? (← r.blocking? position)
    if distance < current then
      let line ← add? distance r.top
      return some (line &&& 7)
    else
      return none

end RegisterFile

/-! ## The chip -/

/-- A chip on bytes (`Pic`). -/
structure ByteChip (position : Position) where
  regs : RegisterFile
  output : Bool
  unforwarded : Bool
deriving DecidableEq

namespace ByteChip

variable {position : Position}

/-- The line that the chip offers for service (`pending_irq`). -/
def pending? (c : ByteChip position) : Option (Option UInt8) := c.regs.pending? position

/-- Replaces the registers and leaves the output alone. -/
def withRegs (c : ByteChip position) (regs : RegisterFile) : ByteChip position := { c with regs }

/-- Recomputes the output from the registers (`update_irq`). -/
def refresh? (c : ByteChip position) : Option (ByteChip position) := do
  let line ← c.pending?
  return { c with output := line.isSome, unforwarded := true }

/-- Marks the output as forwarded (`take_int_out_update`). -/
def forwarded (c : ByteChip position) : ByteChip position := { c with unforwarded := false }

/-- Drives a request line (`set_irq`). -/
def setLine? (c : ByteChip position) (i : UInt8) (level : Bool) : Option (ByteChip position) := do
  let mask ← bit? (i &&& 7)
  let r := c.regs
  refresh? <| c.withRegs <|
    if r.elcr &&& mask ≠ 0 then
      if level then { r with irr := r.irr ||| mask, lastHigh := r.lastHigh ||| mask }
      else { r with irr := r.irr &&& ~~~mask, lastHigh := r.lastHigh &&& ~~~mask }
    else if level then
      { r with
        irr := if r.lastHigh &&& mask = 0 then r.irr ||| mask else r.irr
        lastHigh := r.lastHigh ||| mask }
    else { r with lastHigh := r.lastHigh &&& ~~~mask }

/-- Acknowledges a line (`intack`). -/
def acknowledge? (c : ByteChip position) (i : UInt8) : Option (ByteChip position) := do
  let mask ← bit? (i &&& 7)
  let r := c.regs
  let top ← r.rotated? i (r.autoEoi && r.rotateOnAutoEoi)
  refresh? <| c.withRegs { r with
    isr := if r.autoEoi then r.isr else r.isr ||| mask
    top
    irr := if r.elcr &&& mask = 0 then r.irr &&& ~~~mask else r.irr }

/-- Withdraws the request of a line and ends its service, and leaves the output alone (the clears in
`poll_read`). -/
def retire? (c : ByteChip position) (i : UInt8) : Option (ByteChip position) := do
  let mask ← bit? i
  let r := c.regs
  return c.withRegs { r with irr := r.irr &&& ~~~mask, isr := r.isr &&& ~~~mask }

/-- Ends the service of a line. With rotation the line drops to the lowest priority (the
end-of-interrupt commands of `write_ocw2`). -/
def endService? (c : ByteChip position) (i : UInt8) (rotate : Bool) :
    Option (ByteChip position) := do
  let mask ← bit? i
  let r := c.regs
  let top ← r.rotated? i rotate
  refresh? <| c.withRegs { r with isr := r.isr &&& ~~~mask, top }

/-- Returns all registers but the trigger modes to their power-on values (`init_reset`). -/
def reset? (c : ByteChip position) : Option (ByteChip position) :=
  refresh? <| c.withRegs { elcr := c.regs.elcr }

/-- Returns all registers to their power-on values (`cold_reset`). -/
def coldReset? (c : ByteChip position) : Option (ByteChip position) := do
  let c ← c.reset?
  return c.withRegs { c.regs with elcr := 0 }

/-- What a status read returns (`read_status`). -/
def status (c : ByteChip position) : UInt8 := if c.regs.readIsr then c.regs.isr else c.regs.irr

/-- Ends the service of the line in service with the highest priority, if there is one
(`NonSpecificEoi` in `write_ocw2`). -/
def endHighest? (c : ByteChip position) (rotate : Bool) : Option (ByteChip position) := do
  let distance ← c.regs.distance? c.regs.isr
  if distance = 8 then
    return c
  else
    let line ← add? distance c.regs.top
    c.endService? (line &&& 7) rotate

/-- A priority or end-of-interrupt command; the top three bits tell which (`write_ocw2`). -/
def writeOcw2? (c : ByteChip position) (value : UInt8) : Option (ByteChip position) :=
  match value >>> 5 with
  | 0 => some <| c.withRegs { c.regs with rotateOnAutoEoi := false }
  | 4 => some <| c.withRegs { c.regs with rotateOnAutoEoi := true }
  | 1 => c.endHighest? false
  | 5 => c.endHighest? true
  | 3 => c.endService? (value &&& 7) false
  | 6 => refresh? <| c.withRegs { c.regs with top := (value + 1) &&& 7 }
  | 7 => c.endService? (value &&& 7) true
  | _ => some c

/-- A write to the command port (`write_command`). -/
def writeCommand? (c : ByteChip position) (value : UInt8) : Option (ByteChip position) :=
  if Command.bit value 4 then do
    let c ← c.reset?
    return c.withRegs { c.regs with
      stage := 1
      expectIcw4 := Command.bit value 0
      single := Command.bit value 1 }
  else if Command.bit value 3 then
    let r := c.regs
    some <| c.withRegs { r with
      poll := r.poll || Command.bit value 2
      readIsr := if Command.bit value 1 then Command.bit value 0 else r.readIsr
      specialMask := if Command.bit value 6 then Command.bit value 5 else r.specialMask }
  else c.writeOcw2? value

/-- A write to the data port (`write_data`). At a stage that does not exist it has no effect. -/
def writeData? (c : ByteChip position) (value : UInt8) : Option (ByteChip position) :=
  let r := c.regs
  match r.stage with
  | 0 => refresh? <| c.withRegs { r with imr := value }
  | 1 => some <| c.withRegs { r with base := value &&& 0xF8, stage := r.afterIcw2 }
  | 2 => some <| c.withRegs { r with stage := r.afterIcw3 }
  | 3 => some <| c.withRegs { r with
      specialFullyNested := Command.bit value 4
      autoEoi := Command.bit value 1
      stage := 0 }
  | _ => some c

/-- A write to the trigger mode port (`write_elcr`). -/
def writeElcr (c : ByteChip position) (writable value : UInt8) : ByteChip position :=
  c.withRegs { c.regs with elcr := value &&& writable }

/-- Replaces the registers, as far as the trigger modes can be set (`load_chip_state`), and
recomputes the output (`update_irq` in `sync_restored_outputs`). -/
def load? (c : ByteChip position) (writable : UInt8) (r : RegisterFile) :
    Option (ByteChip position) :=
  refresh? <| c.withRegs { r with elcr := r.elcr &&& writable }

end ByteChip

/-! ## Registers and chips as bytes -/

/-- The register file that stands for the registers. -/
def Registers.bytes (r : Registers) : RegisterFile where
  lastHigh := r.lastHigh.toByte
  irr := r.irr.toByte
  imr := r.imr.toByte
  isr := r.isr.toByte
  top := Line.toByte r.top
  base := r.base
  readIsr := r.readIsr
  poll := r.poll
  specialMask := r.specialMask
  stage := r.stage.toByte
  autoEoi := r.autoEoi
  rotateOnAutoEoi := r.rotateOnAutoEoi
  specialFullyNested := r.specialFullyNested
  expectIcw4 := r.expectIcw4
  single := r.single
  elcr := r.elcr.toByte

/-- The chip on bytes that stands for a chip. -/
def Chip.bytes {position : Position} (c : Chip position) : ByteChip position :=
  ⟨c.regs.bytes, c.output, c.unforwarded⟩

end PicCascade
