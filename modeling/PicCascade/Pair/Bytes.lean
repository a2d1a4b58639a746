import PicCascade.Chip.Bytes.Record
import PicCascade.Pair.Operation

/-!
# The pair on bytes

The cascaded pair with its two chips on bytes. The operations are those of `PicCascade.Pair`, with
line numbers that are bytes too, and an operation that runs into an arithmetic fault has no result.
Vectors are the exception: they are sums that wrap.

A snapshot is decoded to register files, whose bytes may be anything, and the chips are loaded with
these bytes. That they are in range is up to the decoder of the records.
-/

namespace PicCascade

open Checked

/-- Two chips on bytes, their wiring and the edge counters (`DualPic8259`). -/
structure BytePair (Wire : Type) where
  config : Config
  primary : ByteChip .primary
  secondary : ByteChip .secondary
  wire : Option Wire
  level : Bool
  counters : Counters
deriving DecidableEq

/-- The result of an operation on bytes: its answer, the pair that it leaves and the levels that it
drove. -/
structure ByteOutcome (Wire α : Type) where
  answer : α
  pair : BytePair Wire
  driven : List (Wire × Bool) := []
deriving DecidableEq

/-- The same outcome with another answer. -/
def ByteOutcome.map {Wire α β : Type} (f : α → β) (o : ByteOutcome Wire α) : ByteOutcome Wire β :=
  ⟨f o.answer, o.pair, o.driven⟩

/-! ## Saved states -/

/-- What a snapshot says about a pair on bytes (decoded by `load_state`). -/
structure ByteSaved where
  primary : RegisterFile
  secondary : RegisterFile
  counting : Option Bool
deriving DecidableEq

namespace ByteSaved

open Snapshot

/-- The register file in the field with the given tag (`decode_chip`; without the field,
`default`). -/
def registers (c : Container) (tag : UInt16) : Except Error RegisterFile :=
  match c.value? tag with
  | none => .ok {}
  | some bytes => RegisterFile.ofBytes bytes

/-- Decodes the fields of a container (`load_state`, before the pair is changed). -/
def ofContainer (c : Container) : Except Error ByteSaved := do
  c.requireMajor Saved.version.major
  let primary ← registers c Saved.primaryTag
  let secondary ← registers c Saved.secondaryTag
  let counting ← c.bool? Saved.countingTag
  return ⟨primary, secondary, counting⟩

/-- Decodes a snapshot (`load_state`, before the pair is changed). -/
def ofBytes (bytes : List UInt8) : Except Error ByteSaved := do
  ofContainer (← Container.parse Saved.device bytes)

end ByteSaved

namespace BytePair

variable {Wire α : Type}

/-- A pair as after power-on, with its output unconnected (`with_config`). -/
def new (config : Config) : BytePair Wire where
  config
  primary := ⟨{}, false, false⟩
  secondary := ⟨{}, false, false⟩
  wire := none
  level := false
  counters := { enabled := config.counting }

/-- One of the chips (`pic`). -/
def chip (p : BytePair Wire) : (position : Position) → ByteChip position
  | .primary => p.primary
  | .secondary => p.secondary

/-- Changes one of the chips (`pic_mut`). -/
def modifyChip? (p : BytePair Wire) (position : Position)
    (f : ByteChip position → Option (ByteChip position)) : Option (BytePair Wire) :=
  match position with
  | .primary => do return { p with primary := ← f p.primary }
  | .secondary => do return { p with secondary := ← f p.secondary }

/-! ## Settling -/

/-- Puts a recomputed output of the secondary on the cascade line (the first half of
`sync_outputs`). -/
def relay? (p : BytePair Wire) : Option (BytePair Wire) :=
  if p.secondary.unforwarded then do
    let primary ← p.primary.setLine? (Line.toByte Line.cascade) p.secondary.output
    return { p with primary, secondary := p.secondary.forwarded }
  else some p

/-- The levels to drive onto the wire for a recomputed output of the primary (the calls of
`set_level` in `sync_outputs`). -/
def toDrive (p : BytePair Wire) : List (Wire × Bool) :=
  if p.primary.unforwarded && p.primary.output != p.level then
    p.wire.toList.map (·, p.primary.output)
  else []

/-- The pair once a recomputed output of the primary has been driven (the second half of
`sync_outputs`). -/
def drive (p : BytePair Wire) : BytePair Wire :=
  if p.primary.unforwarded then
    { p with primary := p.primary.forwarded, level := p.primary.output }
  else p

/-- Settles the pair, as the end of an operation with the given answer (`sync_outputs`). -/
def settle? (p : BytePair Wire) (answer : α) : Option (ByteOutcome Wire α) := do
  let p ← p.relay?
  return ⟨answer, p.drive, p.toDrive⟩

/-! ## Operations -/

/-- Drives a request line (`set_irq`, with `for_global_irq`). A number above 15 is ignored. -/
def setLine? (p : BytePair Wire) (n : UInt8) (level : Bool) : Option (ByteOutcome Wire Unit) :=
  if h : n.toNat < 16 then do
    let counted := { p with counters := p.counters.record ⟨n.toNat, h⟩ level }
    let position : Position := if n >>> 3 = 0 then .primary else .secondary
    let p ← counted.modifyChip? position (·.setLine? (n &&& 7) level)
    p.settle? ()
  else some ⟨(), p, []⟩

/-- The acknowledge cycle of the processor (`resolve_vector`). -/
def acknowledge? (p : BytePair Wire) : Option (ByteOutcome Wire UInt8) := do
  match ← p.primary.pending? with
  | none => p.settle? (p.primary.regs.base + Line.toByte Line.spurious)
  | some i =>
    let primary ← p.primary.acknowledge? i
    if i = Line.toByte Line.cascade then
      match ← p.secondary.pending? with
      | none =>
        settle? { p with primary } (p.secondary.regs.base + Line.toByte Line.spurious)
      | some j =>
        let secondary ← p.secondary.acknowledge? j
        settle? { p with primary, secondary } (p.secondary.regs.base + j)
    else
      settle? { p with primary } (p.primary.regs.base + i)

/-- The acknowledge cycle, run only if the pair asks for service (`poll_interrupt`). -/
def acknowledgeIfAsserted? (p : BytePair Wire) : Option (ByteOutcome Wire (Option UInt8)) := do
  let line ← p.primary.pending?
  if line.isSome then p.acknowledge?.map (·.map some) else return ⟨none, p, []⟩

/-- Polls a chip (`poll_read`). A poll of the secondary retires the cascade line of the primary
together with the request, and a poll of the primary that finds the cascade line does not recompute
the output. -/
def poll? (p : BytePair Wire) : Position → Option (UInt8 × BytePair Wire)
  | .primary => do
    match ← p.primary.pending? with
    | none => return (Line.toByte Line.spurious, p)
    | some i =>
      let polled ← p.primary.retire? i
      let primary ← if i = Line.toByte Line.cascade then some polled else polled.refresh?
      return (i, { p with primary })
  | .secondary => do
    match ← p.secondary.pending? with
    | none => return (Line.toByte Line.spurious, p)
    | some i =>
      let primary ← p.primary.retire? (Line.toByte Line.cascade)
      let polled ← p.secondary.retire? i
      let secondary ← polled.refresh?
      return (i, { p with primary, secondary })

/-- Polls the whole pair for the number of a line from 0 to 15, and selects the lines in service for
the next status read of the primary (`intack_read`). -/
def readIntack? (p : BytePair Wire) : Option (ByteOutcome Wire UInt8) := do
  let (i, p) ← p.poll? .primary
  let (n, p) ←
    if i = Line.toByte Line.cascade then do
      let (j, p) ← p.poll? .secondary
      let n ← add? j 8
      pure (n, p)
    else pure (i, p)
  let p ← p.modifyChip? .primary fun c => some (c.withRegs { c.regs with readIsr := true })
  p.settle? n

/-- Reads a command port: polls the chip if that was asked for, else returns a status (the `Command`
branch of `port_read_u8`). -/
def readCommand? (p : BytePair Wire) (position : Position) : Option (ByteOutcome Wire UInt8) :=
  if (p.chip position).regs.poll then do
    let (i, p) ← p.poll? position
    let p ← p.modifyChip? position fun c => some (c.withRegs { c.regs with poll := false })
    p.settle? i
  else some ⟨(p.chip position).status, p, []⟩

/-- Reads a port (`port_read_u8`). -/
def readPort? (p : BytePair Wire) (port : UInt16) : Option (ByteOutcome Wire UInt8) :=
  match p.config.decode? port with
  | none => some ⟨0xFF, p, []⟩
  | some (.command position) => p.readCommand? position
  | some (.data position) => some ⟨(p.chip position).regs.imr, p, []⟩
  | some (.elcr position) => some ⟨(p.chip position).regs.elcr, p, []⟩

/-- Writes a port (`port_write_u8`). -/
def writePort? (p : BytePair Wire) (port : UInt16) (value : UInt8) :
    Option (ByteOutcome Wire (Option Fault)) :=
  match p.config.decode? port with
  | none => some ⟨none, p, []⟩
  | some (.command position) => do
    let p ← p.modifyChip? position (·.writeCommand? value)
    p.settle? (Command.fault? position value)
  | some (.data position) => do
    let p ← p.modifyChip? position (·.writeData? value)
    p.settle? none
  | some (.elcr position) => do
    let writable := (p.config.chip position).elcrMask.toByte
    let p ← p.modifyChip? position fun c => some (c.writeElcr writable value)
    p.settle? none

/-- Resets both chips (`reset` and `cold_reset`). -/
def reset? (p : BytePair Wire) : Pair.ResetKind → Option (ByteOutcome Wire Unit)
  | .device => do
    settle? { p with primary := ← p.primary.reset?, secondary := ← p.secondary.reset? } ()
  | .cold => do
    settle? { p with primary := ← p.primary.coldReset?, secondary := ← p.secondary.coldReset? } ()

/-- Restores a pair from a snapshot (`load_state`). The secondary is loaded first, and its
recomputed output is not put on the cascade line. -/
def restore? (p : BytePair Wire) (bytes : List UInt8) :
    Option (ByteOutcome Wire (Except Snapshot.Error Unit)) :=
  match ByteSaved.ofBytes bytes with
  | .error e => some ⟨.error e, p, []⟩
  | .ok saved => do
    let secondary ← p.secondary.load? p.config.secondary.elcrMask.toByte saved.secondary
    let primary ← p.primary.load? p.config.primary.elcrMask.toByte saved.primary
    let loaded := { p with
      primary
      secondary := secondary.forwarded
      counters := { p.counters with enabled := saved.counting.getD p.counters.enabled } }
    (loaded.settle? ()).map (·.map .ok)

/-! ## Runs -/

/-- Performs an operation. -/
def perform? (p : BytePair Wire) : Pair.Operation Wire → Option (ByteOutcome Wire Pair.Answer)
  | .setLine n level => (p.setLine? n level).map (·.map fun _ => .nothing)
  | .readPort port => (p.readPort? port).map (·.map .byte)
  | .writePort port value => (p.writePort? port value).map (·.map .written)
  | .acknowledge => p.acknowledge?.map (·.map .byte)
  | .acknowledgeIfAsserted => p.acknowledgeIfAsserted?.map (·.map .vector)
  | .readIntack => p.readIntack?.map (·.map .byte)
  | .reset kind => (p.reset? kind).map (·.map fun _ => .nothing)
  | .restore bytes => (p.restore? bytes).map (·.map .restored)
  | .connect wire => some ⟨.nothing, { p with wire }, wire.toList.map (·, p.level)⟩
  | .setCounting on =>
    some ⟨.nothing, { p with counters := { p.counters with enabled := on } }, []⟩
  | .clearCounts => some ⟨.nothing, { p with counters := p.counters.clear }, []⟩

/-- Performs a history: all answers, the pair at the end, and all levels driven. -/
def performAll? (p : BytePair Wire) :
    List (Pair.Operation Wire) → Option (ByteOutcome Wire (List Pair.Answer))
  | [] => some ⟨[], p, []⟩
  | op :: history => do
    let first ← p.perform? op
    let others ← first.pair.performAll? history
    return ⟨first.answer :: others.answer, others.pair, first.driven ++ others.driven⟩

end BytePair

/-! ## Pairs as bytes -/

/-- The pair on bytes that stands for a pair. -/
def Pair.bytes {Wire : Type} (p : Pair Wire) : BytePair Wire :=
  ⟨p.config, p.primary.bytes, p.secondary.bytes, p.wire, p.level, p.counters⟩

/-- The register files of a saved state. -/
def Saved.bytes (saved : Saved) : ByteSaved :=
  ⟨saved.primary.bytes, saved.secondary.bytes, saved.counting⟩

/-- The outcome on bytes that stands for an outcome. -/
def Outcome.bytes {Wire α : Type} (o : Outcome Wire α) : ByteOutcome Wire α :=
  ⟨o.answer, o.pair.bytes, o.driven⟩

end PicCascade
