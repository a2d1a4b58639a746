import PicCascade.Chip.Position
import PicCascade.LineSet
import PicCascade.Text.Structure

/-!
# Configuration and port layout

Each chip answers at a command port, at the data port that follows it, and at a port for its
trigger modes if it has one. Port numbers wrap around at the end of the port space. Windows may
overlap; the registers then take precedence in the order command and data of the primary, command
and data of the secondary, trigger modes of the primary, trigger modes of the secondary.
-/

namespace PicCascade

/-- How one chip is wired: the fields of `PicConfig` that begin with `primary` or with
`secondary`. -/
structure ChipConfig where
  /-- The command port (`primary_base`, `secondary_base`). -/
  base : UInt16
  /-- The port of the trigger modes (`primary_elcr_port`, `secondary_elcr_port`). -/
  elcrPort : Option UInt16
  /-- The lines that can be level-triggered (`primary_elcr_mask`, `secondary_elcr_mask`). -/
  elcrMask : LineSet 8
deriving DecidableEq

/-- How the cascade is wired (`PicConfig`). Without further mention it is as in a PC/AT
(`default`). -/
structure Config where
  primary : ChipConfig := ⟨0x20, some 0x4D0, .ofByte 0xF8⟩
  secondary : ChipConfig := ⟨0xA0, some 0x4D1, .ofByte 0xDE⟩
  /-- Whether edges are counted from the start (`irq_stats`). -/
  counting : Bool := false
deriving DecidableEq

/-- What can be reached through a port (`PicPort`). -/
inductive Register where
  | command (chip : Position)
  | data (chip : Position)
  | elcr (chip : Position)
deriving DecidableEq

/-- The kind of a register, without its chip. -/
def Register.kind : Register → String
  | .command _ => "command"
  | .data _ => "data"
  | .elcr _ => "elcr"

/-- The chip of a register (`PicPort::chip`). -/
def Register.chip : Register → Position
  | .command chip => chip
  | .data chip => chip
  | .elcr chip => chip

namespace Config

/-- The wiring of one chip. -/
def chip (c : Config) : Position → ChipConfig
  | .primary => c.primary
  | .secondary => c.secondary

/-- The register at a port within the window of two ports of one chip (one turn of the loop in
`PicPort::decode`). -/
def inWindow? (c : Config) (port : UInt16) (chip : Position) : Option Register :=
  let offset := port - (c.chip chip).base
  if offset = 0 then some (.command chip)
  else if offset = 1 then some (.data chip)
  else none

/-- The trigger modes of one chip, if they are at a port. -/
def atElcr? (c : Config) (port : UInt16) (chip : Position) : Option Register :=
  if (c.chip chip).elcrPort = some port then some (.elcr chip) else none

/-- The register at a port (`PicPort::decode`). -/
def decode? (c : Config) (port : UInt16) : Option Register :=
  c.inWindow? port .primary <|> c.inWindow? port .secondary <|>
    c.atElcr? port .primary <|> c.atElcr? port .secondary

/-- All ports with a register, in the order of precedence (`PicConfig::ports`). -/
def ports (c : Config) : List UInt16 :=
  [c.primary.base, c.primary.base + 1, c.secondary.base, c.secondary.base + 1]
    ++ c.primary.elcrPort.toList ++ c.secondary.elcrPort.toList

/-- The structure of the configuration, spelled out (`Debug` of `PicConfig`). -/
def describe (c : Config) : String :=
  Text.record "PicConfig" [
    ("primary_base", c.primary.base.toNat.repr),
    ("secondary_base", c.secondary.base.toNat.repr),
    ("primary_elcr_port", Text.option (c.primary.elcrPort.map (·.toNat.repr))),
    ("secondary_elcr_port", Text.option (c.secondary.elcrPort.map (·.toNat.repr))),
    ("primary_elcr_mask", c.primary.elcrMask.toNat.repr),
    ("secondary_elcr_mask", c.secondary.elcrMask.toNat.repr),
    ("irq_stats", Text.flag c.counting)]

end Config

end PicCascade
