import PicCascade.Chip.Record
import PicCascade.Pair.Basic
import PicCascade.Snapshot.Container.Parser
import PicCascade.Snapshot.Container.Value

/-!
# Saved states of a pair

A pair is saved as a snapshot of device `PIC2` with three fields: the registers of the primary, the
registers of the secondary, and whether edges are counted. A snapshot is decoded completely before
it is put into effect, so one that is refused changes nothing. A missing register field stands for
the power-on registers and a missing flag for no change; fields with other tags are not looked at.
-/

namespace PicCascade

open Snapshot

/-- What a snapshot says about a pair (decoded by `load_state`). -/
structure Saved where
  primary : Registers
  secondary : Registers
  counting : Option Bool
deriving DecidableEq

namespace Saved

/-- The identifier of the device, `PIC2` (`DEVICE_ID`). -/
def device : DeviceId := { bytes := [0x50, 0x49, 0x43, 0x32] }

/-- The version of the field layout (`DEVICE_VERSION`). -/
def version : Version := ⟨1, 0⟩

/-- The tag of the registers of the primary (`TAG_PRIMARY`). -/
def primaryTag : UInt16 := 1

/-- The tag of the registers of the secondary (`TAG_SECONDARY`). -/
def secondaryTag : UInt16 := 2

/-- The tag of the flag that tells whether edges are counted (`TAG_IRQ_STATS_ENABLED`). -/
def countingTag : UInt16 := 3

/-- The registers in the field with the given tag (`decode_chip`; without the field, `default`). -/
def registers (c : Container) (tag : UInt16) : Except Error Registers :=
  match c.value? tag with
  | none => .ok {}
  | some bytes => Registers.ofBytes bytes

/-- Decodes the fields of a container (`load_state`, before the pair is changed). -/
def ofContainer (c : Container) : Except Error Saved := do
  c.requireMajor version.major
  let primary ← registers c primaryTag
  let secondary ← registers c secondaryTag
  let counting ← c.bool? countingTag
  return ⟨primary, secondary, counting⟩

/-- Decodes a snapshot (`load_state`, before the pair is changed). -/
def ofBytes (bytes : List UInt8) : Except Error Saved := do
  ofContainer (← Container.parse device bytes)

end Saved

namespace Pair

variable {Wire : Type}

/-- The snapshot of a pair (what `save_state` hands to its `SnapshotWriter`). -/
def saved (p : Pair Wire) : Container :=
  { header := ⟨formatVersion, Saved.device, Saved.version⟩
    fields := [
      ⟨Saved.primaryTag, p.primary.regs.toBytes⟩,
      ⟨Saved.secondaryTag, p.secondary.regs.toBytes⟩,
      ⟨Saved.countingTag, (Item.bool p.counters.enabled).toBytes⟩] }

/-- The bytes of the snapshot of a pair (`save_state`). -/
def save (p : Pair Wire) : List UInt8 := p.saved.toBytes

/-- Replaces the registers of a chip, as far as its trigger modes can be set (`load_chip_state`). -/
def withSaved (p : Pair Wire) (position : Position) (saved : Registers) : Pair Wire :=
  let writable := (p.config.chip position).elcrMask
  p.modifyChip position (·.modify fun _ => { saved with elcr := saved.elcr ∩ writable })

/-- Puts a decoded snapshot into effect (`load_state` from there on, with `sync_restored_outputs`).
Both outputs are recomputed, but that of the secondary is not put on the cascade line, whose state
is part of the registers of the primary. -/
def load (p : Pair Wire) (saved : Saved) : Outcome Wire Unit :=
  let p := (p.withSaved .secondary saved.secondary).withSaved .primary saved.primary
  let p := p.setCounting (saved.counting.getD p.counters.enabled)
  settle { p with secondary := p.secondary.refresh.forwarded, primary := p.primary.refresh } ()

/-- Restores a pair from a snapshot (`load_state`). -/
def restore (p : Pair Wire) (bytes : List UInt8) : Outcome Wire (Except Error Unit) :=
  match Saved.ofBytes bytes with
  | .error e => ⟨.error e, p, []⟩
  | .ok saved => (p.load saved).map .ok

end Pair

end PicCascade
