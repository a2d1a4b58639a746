import PicCascade.Chip.Registers
import PicCascade.Snapshot.Item
import PicCascade.Text.Structure

/-!
# Written forms of the registers

A register file is written as a record of sixteen bytes, in one fixed order: a bitmap, a line and
the stage are one byte each, and a mode is the byte 0 or 1. Reading accepts exactly such records.
-/

namespace PicCascade.Registers

open Snapshot

/-- The registers in the order of the record (the calls in `encode_chip`). -/
def toItems (r : Registers) : List Item :=
  [.u8 r.lastHigh.toByte, .u8 r.irr.toByte, .u8 r.imr.toByte, .u8 r.isr.toByte,
    .u8 (Line.toByte r.top), .u8 r.base, .bool r.readIsr, .bool r.poll, .bool r.specialMask,
    .u8 r.stage.toByte, .bool r.autoEoi, .bool r.rotateOnAutoEoi, .bool r.specialFullyNested,
    .bool r.expectIcw4, .bool r.single, .u8 r.elcr.toByte]

/-- The record of sixteen bytes (`encode_chip`). -/
def toBytes (r : Registers) : List UInt8 := Item.encode r.toItems

/-- Reads a record and nothing after it (`decode_chip`). A priority above 7 is reported before a
stage above 3, and either only if the record is otherwise complete. -/
def read : Reader Registers := do
  let lastHigh ← Reader.u8
  let irr ← Reader.u8
  let imr ← Reader.u8
  let isr ← Reader.u8
  let top ← Reader.u8
  let base ← Reader.u8
  let readIsr ← Reader.bool
  let poll ← Reader.bool
  let specialMask ← Reader.bool
  let stage ← Reader.u8
  let autoEoi ← Reader.bool
  let rotateOnAutoEoi ← Reader.bool
  let specialFullyNested ← Reader.bool
  let expectIcw4 ← Reader.bool
  let single ← Reader.bool
  let elcr ← Reader.u8
  Reader.finish
  let some top := Line.ofByte? top | throw (.invalidEncoding .highestPriority)
  let some stage := InitStage.ofByte? stage | throw (.invalidEncoding .initStage)
  return {
    lastHigh := .ofByte lastHigh, irr := .ofByte irr, imr := .ofByte imr, isr := .ofByte isr
    top, base, readIsr, poll, specialMask, stage, autoEoi
    rotateOnAutoEoi, specialFullyNested, expectIcw4, single, elcr := .ofByte elcr }

/-- The registers a record stands for (`decode_chip`). -/
def ofBytes (bytes : List UInt8) : Except Error Registers := read.value bytes

/-- The structure of the registers, spelled out (`Debug` of `ChipState`). -/
def describe (r : Registers) : String :=
  Text.record "ChipState" [
    ("last_irr", r.lastHigh.toNat.repr),
    ("irr", r.irr.toNat.repr),
    ("imr", r.imr.toNat.repr),
    ("isr", r.isr.toNat.repr),
    ("priority_add", r.top.val.repr),
    ("irq_base", r.base.toNat.repr),
    ("read_reg_select", Text.flag r.readIsr),
    ("poll", Text.flag r.poll),
    ("special_mask", Text.flag r.specialMask),
    ("init_state", r.stage.toByte.toNat.repr),
    ("auto_eoi", Text.flag r.autoEoi),
    ("rotate_on_auto_eoi", Text.flag r.rotateOnAutoEoi),
    ("special_fully_nested_mode", Text.flag r.specialFullyNested),
    ("init4", Text.flag r.expectIcw4),
    ("single_mode", Text.flag r.single),
    ("elcr", r.elcr.toNat.repr)]

end PicCascade.Registers
