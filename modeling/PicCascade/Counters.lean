import PicCascade.LineSet
import PicCascade.Text.Structure

/-!
# Edge counters

Sixteen counters, one for each line seen from outside, count how often the line rises while
counting is on. The levels of the lines are followed at all times, so a line that was already high
when counting was switched on is not counted.
-/

namespace PicCascade

/-- The counters and the levels of the lines (`IrqStats`). -/
structure Counters where
  enabled : Bool
  /-- The lines that are high (`levels`). -/
  high : LineSet 16 := ∅
  counts : Vector Nat 16 := Vector.replicate 16 0
deriving DecidableEq

namespace Counters

/-- Takes note of the level of a line. -/
def record (c : Counters) (i : Fin 16) (level : Bool) : Counters :=
  { c with
    high := c.high.put i level
    counts :=
      if c.enabled && level && i ∉ c.high then c.counts.set i (c.counts[i] + 1) else c.counts }

/-- Sets all counts to zero (`clear_counts`). -/
def clear (c : Counters) : Counters := { c with counts := Vector.replicate 16 0 }

/-- How often a line has risen. There is nothing to count for a number above 15. -/
def count (c : Counters) (n : UInt8) : Nat := c.counts[n.toNat]?.getD 0

/-- A line for each counter that is not zero, under a heading (`Display` of `IrqStats`). -/
def text (c : Counters) : String :=
  if c.enabled then
    let row (entry : Nat × Nat) : String :=
      Text.alignRight 2 entry.2.repr ++ ": " ++ entry.1.repr ++ "\n"
    let rows := (c.counts.toList.zipIdx.filter (·.1 ≠ 0)).map row
    "IRQ statistics:\n" ++ String.join rows
  else "irq statistics disabled\n"

/-- The structure of the counters, spelled out (`Debug` of `IrqStats`). -/
def describe (c : Counters) : String :=
  Text.record "IrqStats" [
    ("enabled", Text.flag c.enabled),
    ("levels", c.high.toNat.repr),
    ("counts", Text.list (c.counts.toList.map Nat.repr))]

end Counters

end PicCascade
