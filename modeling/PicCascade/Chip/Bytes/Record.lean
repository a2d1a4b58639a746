import PicCascade.Chip.Bytes
import PicCascade.Snapshot.Item

/-!
# The record of a register file

A register file is written as a record of sixteen bytes, in the order of the record of registers. The
bytes are written as they are, so there are records whose priority is no line or whose stage does not
exist. Reading refuses them.
-/

namespace PicCascade.RegisterFile

open Snapshot

/-- The bytes and flags in the order of the record (the calls in `encode_chip`). -/
def toItems (r : RegisterFile) : List Item :=
  [.u8 r.lastHigh, .u8 r.irr, .u8 r.imr, .u8 r.isr, .u8 r.top, .u8 r.base, .bool r.readIsr,
    .bool r.poll, .bool r.specialMask, .u8 r.stage, .bool r.autoEoi, .bool r.rotateOnAutoEoi,
    .bool r.specialFullyNested, .bool r.expectIcw4, .bool r.single, .u8 r.elcr]

/-- The record of sixteen bytes (`encode_chip`). -/
def toBytes (r : RegisterFile) : List UInt8 := Item.encode r.toItems

/-- Reads a record and nothing after it (`decode_chip`). The priority and the stage are looked at
last, in this order. -/
def read : Reader RegisterFile := do
  let lastHigh ← Reader.u8
  let irr ← Reader.u8
  let imr ← Reader.u8
  let isr ← Reader.u8
  let top ← Reader.u8
  let base ← Reader.u8
  let readIsr ← Reader.bool
  let poll ← Reader.bool
  let specialMask ← Reader.bool
  let stage ← Reader.u8
  let autoEoi ← Reader.bool
  let rotateOnAutoEoi ← Reader.bool
  let specialFullyNested ← Reader.bool
  let expectIcw4 ← Reader.bool
  let single ← Reader.bool
  let elcr ← Reader.u8
  Reader.finish
  Reader.require (top ≤ 7) (.invalidEncoding .highestPriority)
  Reader.require (stage ≤ 3) (.invalidEncoding .initStage)
  return {
    lastHigh, irr, imr, isr, top, base, readIsr, poll, specialMask, stage, autoEoi
    rotateOnAutoEoi, specialFullyNested, expectIcw4, single, elcr }

/-- The register file a record stands for (`decode_chip`). -/
def ofBytes (bytes : List UInt8) : Except Error RegisterFile := read.value bytes

end PicCascade.RegisterFile
