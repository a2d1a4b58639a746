import PicCascade.Chip.Position
import PicCascade.LineSet

/-!
# Registers of one chip

The programmable state of an 8259A interrupt controller. Bitmaps over the lines are sets, and the
rotating priority is the line that has the highest priority at the moment: priority falls from that
line upwards and wraps from line 7 to line 0. A chip that receives an initialisation command goes
through a sequence of stages, one for each further command word that it awaits.
-/

namespace PicCascade

/-- How far a chip is in its initialisation (`init_state`, as a number). -/
inductive InitStage where
  | ready
  | awaitingIcw2
  | awaitingIcw3
  | awaitingIcw4
deriving DecidableEq

namespace InitStage

/-- The number of the stage. -/
def toByte : InitStage → UInt8
  | .ready => 0
  | .awaitingIcw2 => 1
  | .awaitingIcw3 => 2
  | .awaitingIcw4 => 3

/-- The stage with the given number. -/
def ofByte? : UInt8 → Option InitStage
  | 0 => some .ready
  | 1 => some .awaitingIcw2
  | 2 => some .awaitingIcw3
  | 3 => some .awaitingIcw4
  | _ => none

@[simp]
theorem ofByte?_toByte (stage : InitStage) : ofByte? stage.toByte = some stage := by
  cases stage <;> rfl

end InitStage

/-- The registers of one chip (`ChipState`). Without further mention they are as after power-on
(`default`): no line is set anywhere, line 0 has the highest priority, no mode is on and no
initialisation is under way. -/
structure Registers where
  /-- The lines that were high when they last changed (`last_irr`). -/
  lastHigh : LineSet 8 := ∅
  /-- The lines that request service. -/
  irr : LineSet 8 := ∅
  /-- The lines whose requests are masked. -/
  imr : LineSet 8 := ∅
  /-- The lines that are being serviced. -/
  isr : LineSet 8 := ∅
  /-- The line with the highest priority (`priority_add`). -/
  top : Line := Line.first
  /-- The vector of line 0 (`irq_base`). -/
  base : UInt8 := 0
  /-- Status reads return the lines in service rather than the requests (`read_reg_select`). -/
  readIsr : Bool := false
  /-- The next status read polls for a request. -/
  poll : Bool := false
  /-- Masked lines in service do not block other requests (`special_mask`). -/
  specialMask : Bool := false
  /-- The initialisation word that the chip awaits (`init_state`). -/
  stage : InitStage := .ready
  /-- An acknowledged line is not marked as in service (`auto_eoi`). -/
  autoEoi : Bool := false
  /-- With automatic end of interrupt, an acknowledged line drops to the lowest priority
  (`rotate_on_auto_eoi`). -/
  rotateOnAutoEoi : Bool := false
  /-- On the primary, the cascade line does not block further requests of the secondary
  (`special_fully_nested_mode`). -/
  specialFullyNested : Bool := false
  /-- The initialisation includes a fourth word (`init4`). -/
  expectIcw4 : Bool := false
  /-- The initialisation leaves out the third word (`single_mode`). -/
  single : Bool := false
  /-- The lines that are level-triggered; the others are edge-triggered. -/
  elcr : LineSet 8 := ∅
deriving DecidableEq

end PicCascade
