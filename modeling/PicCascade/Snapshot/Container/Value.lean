import PicCascade.Snapshot.Container

/-!
# Typed values of snapshot fields

A field holds a byte string. Each function below reads the field with a given tag as a value of one
type: `none` means that there is no such field, and a value of another length is refused rather
than cut or extended. These are the accessors of `SnapshotReader`.
-/

namespace PicCascade.Snapshot.Container

/-- The field with the given tag as a little-endian number of `width` bytes (`fixed`, with
`from_le_bytes`). -/
def number? (c : Container) (width : Nat) (encoding : Encoding) (tag : UInt16) :
    Except Error (Option Nat) :=
  match c.value? tag with
  | none => .ok none
  | some bs =>
    if bs.length = width then .ok (some (LittleEndian.toNat bs))
    else .error (.invalidEncoding encoding)

/-- The field as one byte. -/
def u8? (c : Container) (tag : UInt16) : Except Error (Option UInt8) :=
  return (← c.number? 1 .u8 tag).map UInt8.ofNat

/-- The field as a number of two bytes. -/
def u16? (c : Container) (tag : UInt16) : Except Error (Option UInt16) :=
  return (← c.number? 2 .u16 tag).map UInt16.ofNat

/-- The field as a number of four bytes. -/
def u32? (c : Container) (tag : UInt16) : Except Error (Option UInt32) :=
  return (← c.number? 4 .u32 tag).map UInt32.ofNat

/-- The field as a number of eight bytes. -/
def u64? (c : Container) (tag : UInt16) : Except Error (Option UInt64) :=
  return (← c.number? 8 .u64 tag).map UInt64.ofNat

/-- The field as a truth value, one byte that is 0 or 1. -/
def bool? (c : Container) (tag : UInt16) : Except Error (Option Bool) := do
  match ← c.u8? tag with
  | none => return none
  | some b => if b ≤ 1 then return some (b = 1) else throw (.invalidEncoding .bool)

/-- Refuses a container whose device version has another major number (`ensure_device_major`). -/
def requireMajor (c : Container) (supported : UInt16) : Except Error Unit :=
  if c.header.version.major = supported then .ok ()
  else .error (.unsupportedDeviceMajor c.header.version.major supported)

end PicCascade.Snapshot.Container
