import PicCascade.Chip.Command
import PicCascade.Config
import PicCascade.Counters

/-!
# The cascaded pair

Two chips, the secondary driving the cascade line of the primary and the primary driving a wire.
What hangs on the wire is not the pair's business: an operation lists the levels that it drives, in
order, and on which wire, and whoever runs the operation delivers them.

An operation first changes the chips and then settles the pair: a recomputed output of the
secondary is put on the cascade line, and a recomputed output of the primary is driven onto the
wire if its level changes.
-/

namespace PicCascade

/-- The two chips, their wiring and the edge counters (`DualPic8259`). `Wire` names what the output
can be connected to (`IrqLine`). -/
structure Pair (Wire : Type) where
  config : Config
  primary : Chip .primary := {}
  secondary : Chip .secondary := {}
  /-- What the output is connected to (`int_out`). -/
  wire : Option Wire := none
  /-- The level that the output was last driven to (`int_out_level`). -/
  level : Bool := false
  /-- The edge counters (`stats`). -/
  counters : Counters
deriving DecidableEq

/-- The result of an operation: its answer, the pair that it leaves and the levels that it drove. -/
structure Outcome (Wire α : Type) where
  answer : α
  pair : Pair Wire
  driven : List (Wire × Bool) := []
deriving DecidableEq

/-- The same outcome with another answer. -/
def Outcome.map {Wire α β : Type} (f : α → β) (o : Outcome Wire α) : Outcome Wire β :=
  ⟨f o.answer, o.pair, o.driven⟩

namespace Pair

variable {Wire α : Type}

/-- A pair as after power-on, with its output unconnected (`with_config`). -/
def new (config : Config) : Pair Wire :=
  { config, counters := { enabled := config.counting } }

/-- One of the chips (`pic`). -/
def chip (p : Pair Wire) : (position : Position) → Chip position
  | .primary => p.primary
  | .secondary => p.secondary

/-- Changes one of the chips (`pic_mut`). -/
def modifyChip (p : Pair Wire) (position : Position) (f : Chip position → Chip position) :
    Pair Wire :=
  match position with
  | .primary => { p with primary := f p.primary }
  | .secondary => { p with secondary := f p.secondary }

/-- Whether the pair asks the processor for service. -/
def output (p : Pair Wire) : Bool := p.primary.pending?.isSome

/-! ## Settling -/

/-- Puts a recomputed output of the secondary on the cascade line (the first half of
`sync_outputs`). -/
def relay (p : Pair Wire) : Pair Wire :=
  if p.secondary.unforwarded then
    { p with
      secondary := p.secondary.forwarded
      primary := p.primary.setLine Line.cascade p.secondary.output }
  else p

/-- The levels to drive onto the wire for a recomputed output of the primary (the calls of
`set_level` in `sync_outputs`). -/
def toDrive (p : Pair Wire) : List (Wire × Bool) :=
  if p.primary.unforwarded && p.primary.output != p.level then
    p.wire.toList.map (·, p.primary.output)
  else []

/-- The pair once a recomputed output of the primary has been driven (the second half of
`sync_outputs`). -/
def drive (p : Pair Wire) : Pair Wire :=
  if p.primary.unforwarded then
    { p with primary := p.primary.forwarded, level := p.primary.output }
  else p

/-- Settles the pair, as the end of an operation with the given answer (`sync_outputs`). -/
def settle (p : Pair Wire) (answer : α) : Outcome Wire α :=
  ⟨answer, p.relay.drive, p.relay.toDrive⟩

/-! ## Lines and wires -/

/-- Drives a request line (`set_irq`). A number above 15 is ignored. -/
def setLine (p : Pair Wire) (n : UInt8) (level : Bool) : Outcome Wire Unit :=
  if h : n.toNat < 16 then
    let counted := { p with counters := p.counters.record ⟨n.toNat, h⟩ level }
    let (position, i) := Line.ofGlobal n
    (counted.modifyChip position (·.setLine i level)).settle ()
  else ⟨(), p, []⟩

/-- Connects the output and drives the new wire to the present level (`connect_output`). -/
def connect (p : Pair Wire) (wire : Option Wire) : Outcome Wire Unit :=
  ⟨(), { p with wire }, wire.toList.map (·, p.level)⟩

/-! ## Resets -/

/-- How thorough a reset is. -/
inductive ResetKind where
  /-- All registers are cleared except the trigger modes. -/
  | device
  /-- All registers are cleared. -/
  | cold
deriving DecidableEq

/-- Resets both chips (`reset` and `cold_reset`, chosen by `apply_reset`). -/
def reset (p : Pair Wire) : ResetKind → Outcome Wire Unit
  | .device => settle { p with primary := p.primary.reset, secondary := p.secondary.reset } ()
  | .cold =>
    settle { p with primary := p.primary.coldReset, secondary := p.secondary.coldReset } ()

/-! ## Edge counters -/

/-- Switches the edge counters on or off (`set_irq_stats_enabled`). -/
def setCounting (p : Pair Wire) (on : Bool) : Pair Wire :=
  { p with counters := { p.counters with enabled := on } }

/-- Sets the edge counters to zero (`clear_irq_stats`). -/
def clearCounts (p : Pair Wire) : Pair Wire := { p with counters := p.counters.clear }

end Pair

end PicCascade
