import PicCascade.Proofs.Chip.Output

/-!
# Registers that commands leave alone

Port writes to a chip program its modes. ICW1 returns the chip to its power-on registers, except
for the trigger modes. The other commands only touch the lines in service, the rotation and some
modes, and data writes only touch the mask, the vectors and the remaining modes.

Results:
* `Command.initializes_decode_iff`: bit 4 tells ICW1 from the other commands.
* `regs_writeCommand`, `regs_writeCommand_of_icw1`, `regs_writeData`: the registers after each kind of
  write, up to those that the write may change.
* `elcr_writeCommand`, `elcr_writeData`: the trigger modes are kept.
* `irr_writeCommand`, `lastHigh_writeCommand`, `irr_writeData`, `lastHigh_writeData`: so are the
  requests and the edge detectors, unless the command is ICW1.
* `autoEoi_writeCommand`, `autoEoi_writeData`: automatic end of interrupt stays off without ICW4.
-/

namespace PicCascade

theorem Command.decode_icw1 {value : UInt8} (icw1 : bit value 4 = true) :
    decode value = .icw1 (bit value 3) (bit value 1) (bit value 0) := by
  rw [decode, if_pos icw1]

/-- The command is ICW1. -/
def Command.Initializes : Command → Prop
  | .icw1 .. => True
  | _ => False

instance (command : Command) : Decidable command.Initializes :=
  match command with
  | .icw1 .. => isTrue trivial
  | .ocw3 .. | .autoRotation _ | .endHighest _ | .endLine .. | .setLowest _ | .noOperation =>
    isFalse id

theorem Command.initializes_decode_iff {value : UInt8} :
    (decode value).Initializes ↔ bit value 4 = true := by
  by_cases icw1 : bit value 4 = true
  · rw [decode_icw1 icw1]
    exact iff_of_true trivial icw1
  · refine iff_of_false ?_ icw1
    rw [decode, if_neg icw1]
    split
    · exact id
    · dsimp only
      split <;> exact id

namespace Chip

variable {position : Position}

/-! ## The command port -/

theorem regs_writeCommand (c : Chip position) {value : UInt8}
    (h : ¬ (Command.decode value).Initializes) :
    ∃ isr top readIsr poll specialMask rotateOnAutoEoi,
      (c.writeCommand value).regs =
        { c.regs with isr, top, readIsr, poll, specialMask, rotateOnAutoEoi } := by
  unfold writeCommand
  cases decoded : Command.decode value with
  | icw1 levelTriggered single expectIcw4 =>
    rw [decoded] at h
    exact absurd trivial h
  | endHighest rotate =>
    rw [execute]
    split
    · exact ⟨_, _, _, _, _, _, rfl⟩
    · exact ⟨_, _, _, _, _, _, rfl⟩
  | _ => exact ⟨_, _, _, _, _, _, rfl⟩

theorem regs_writeCommand_of_icw1 (c : Chip position) {value : UInt8}
    (icw1 : Command.bit value 4 = true) :
    (c.writeCommand value).regs =
      { elcr := c.regs.elcr
        stage := .awaitingIcw2
        single := Command.bit value 1
        expectIcw4 := Command.bit value 0 } := by
  rw [writeCommand, Command.decode_icw1 icw1]
  rfl

theorem regs_writeCommand_of_initializes (c : Chip position) {value : UInt8}
    (h : (Command.decode value).Initializes) :
    ∃ single expectIcw4,
      (c.writeCommand value).regs =
        { elcr := c.regs.elcr, stage := .awaitingIcw2, single, expectIcw4 } :=
  ⟨_, _, c.regs_writeCommand_of_icw1 (Command.initializes_decode_iff.mp h)⟩

theorem elcr_writeCommand (c : Chip position) (value : UInt8) :
    (c.writeCommand value).regs.elcr = c.regs.elcr := by
  by_cases h : (Command.decode value).Initializes
  · obtain ⟨_, _, eq⟩ := c.regs_writeCommand_of_initializes h
    rw [eq]
  · obtain ⟨_, _, _, _, _, _, eq⟩ := c.regs_writeCommand h
    rw [eq]

theorem irr_writeCommand {c : Chip position} {value : UInt8}
    (h : ¬ (Command.decode value).Initializes) :
    (c.writeCommand value).regs.irr = c.regs.irr := by
  obtain ⟨_, _, _, _, _, _, eq⟩ := c.regs_writeCommand h
  rw [eq]

theorem lastHigh_writeCommand {c : Chip position} {value : UInt8}
    (h : ¬ (Command.decode value).Initializes) :
    (c.writeCommand value).regs.lastHigh = c.regs.lastHigh := by
  obtain ⟨_, _, _, _, _, _, eq⟩ := c.regs_writeCommand h
  rw [eq]

theorem autoEoi_writeCommand {c : Chip position} (value : UInt8)
    (manual : c.regs.autoEoi = false) : (c.writeCommand value).regs.autoEoi = false := by
  by_cases h : (Command.decode value).Initializes
  · obtain ⟨_, _, eq⟩ := c.regs_writeCommand_of_initializes h
    rw [eq]
  · obtain ⟨_, _, _, _, _, _, eq⟩ := c.regs_writeCommand h
    rw [eq]
    exact manual

/-! ## The data port -/

theorem regs_writeData (c : Chip position) (value : UInt8) :
    ∃ imr base stage specialFullyNested autoEoi,
      (c.writeData value).regs =
        { c.regs with imr, base, stage, specialFullyNested, autoEoi } := by
  unfold writeData
  cases c.regs.stage with
  | ready => exact ⟨_, _, _, _, _, rfl⟩
  | awaitingIcw2 => exact ⟨_, _, _, _, _, rfl⟩
  | awaitingIcw3 => exact ⟨_, _, _, _, _, rfl⟩
  | awaitingIcw4 => exact ⟨_, _, _, _, _, rfl⟩

theorem elcr_writeData (c : Chip position) (value : UInt8) :
    (c.writeData value).regs.elcr = c.regs.elcr := by
  obtain ⟨_, _, _, _, _, eq⟩ := c.regs_writeData value
  rw [eq]

theorem irr_writeData (c : Chip position) (value : UInt8) :
    (c.writeData value).regs.irr = c.regs.irr := by
  obtain ⟨_, _, _, _, _, eq⟩ := c.regs_writeData value
  rw [eq]

theorem lastHigh_writeData (c : Chip position) (value : UInt8) :
    (c.writeData value).regs.lastHigh = c.regs.lastHigh := by
  obtain ⟨_, _, _, _, _, eq⟩ := c.regs_writeData value
  rw [eq]

theorem autoEoi_writeData {c : Chip position} {value : UInt8} (manual : c.regs.autoEoi = false)
    (icw4 : c.regs.stage = .awaitingIcw4 → Command.bit value 1 = false) :
    (c.writeData value).regs.autoEoi = false := by
  unfold writeData
  cases stage : c.regs.stage with
  | awaitingIcw4 => exact icw4 stage
  | ready | awaitingIcw2 | awaitingIcw3 => exact manual

end Chip

end PicCascade
