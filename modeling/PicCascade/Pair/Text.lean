import PicCascade.Chip.Record
import PicCascade.Pair.Basic

/-!
# Texts about a pair

A summary of the main registers, one line per chip, and a full description in one line.
-/

namespace PicCascade.Pair

variable {Wire : Type}

/-- One line of the summary (one turn of the loop in `Display`). -/
def summaryLine (position : Position) (r : Registers) : String :=
  "pic" ++ position.index.repr
    ++ ": irr=" ++ Hex.ofByte r.irr.toByte
    ++ " imr=" ++ Hex.ofByte r.imr.toByte
    ++ " isr=" ++ Hex.ofByte r.isr.toByte
    ++ " hprio=" ++ r.top.val.repr
    ++ " irq_base=" ++ Hex.ofByte r.base
    ++ " rr_sel=" ++ Text.bit r.readIsr
    ++ " elcr=" ++ Hex.ofByte r.elcr.toByte
    ++ " fnm=" ++ Text.bit r.specialFullyNested
    ++ "\n"

/-- The main registers of both chips (`Display` of `DualPic8259`). -/
def summary (p : Pair Wire) : String :=
  summaryLine .primary p.primary.regs ++ summaryLine .secondary p.secondary.regs

/-- The pair, spelled out except for what it is connected to (`Debug` of `DualPic8259`). -/
def describe (p : Pair Wire) : String :=
  Text.partialRecord "DualPic8259" [
    ("config", p.config.describe),
    ("primary", p.primary.regs.describe),
    ("secondary", p.secondary.regs.describe),
    ("int_out_level", Text.flag p.level),
    ("stats", p.counters.describe)]

end PicCascade.Pair
