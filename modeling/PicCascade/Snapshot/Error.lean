import PicCascade.Snapshot.Header

/-!
# Snapshot errors

Everything that can be wrong with snapshot data, and the text that reports it.
-/

namespace PicCascade.Snapshot

/-- What a badly encoded value was read as (the argument of `InvalidFieldEncoding`). -/
inductive Encoding where
  | u8
  | u16
  | u32
  | u64
  | bool
  | trailingBytes
  | highestPriority
  | initStage
deriving DecidableEq

/-- The name an error text gives to the value. -/
def Encoding.name : Encoding → String
  | .u8 => "u8"
  | .u16 => "u16"
  | .u32 => "u32"
  | .u64 => "u64"
  | .bool => "bool"
  | .trailingBytes => "trailing bytes"
  | .highestPriority => "priority_add"
  | .initStage => "init_state"

/-- The reasons for which snapshot data is refused (`SnapshotError`). -/
inductive Error where
  /-- The data do not begin with the magic word (`InvalidMagic`). -/
  | invalidMagic
  /-- The format has another major version (`UnsupportedFormatVersion`). -/
  | unsupportedFormat (found : Version)
  /-- The snapshot is of another device (`DeviceIdMismatch`). -/
  | deviceMismatch (expected found : DeviceId)
  /-- The field layout has another major version (`UnsupportedDeviceMajorVersion`). -/
  | unsupportedDeviceMajor (found supported : UInt16)
  /-- The data ends too early (`UnexpectedEof`). -/
  | unexpectedEnd
  /-- Two fields have the same tag (`DuplicateFieldTag`). -/
  | duplicateTag (tag : UInt16)
  /-- A value is badly encoded (`InvalidFieldEncoding`). -/
  | invalidEncoding (what : Encoding)
deriving DecidableEq

/-- The text that reports an error (`Display` of `SnapshotError`). -/
def Error.message : Error → String
  | .invalidMagic => "invalid snapshot magic"
  | .unsupportedFormat found => "unsupported snapshot format version " ++ found.text
  | .deviceMismatch expected found =>
    "snapshot is for device " ++ found.text ++ ", expected " ++ expected.text
  | .unsupportedDeviceMajor found supported =>
    "unsupported device major version " ++ found.toNat.repr
      ++ " (supported: " ++ supported.toNat.repr ++ ")"
  | .unexpectedEnd => "unexpected end of snapshot data"
  | .duplicateTag tag => "duplicate snapshot field tag " ++ tag.toNat.repr
  | .invalidEncoding what => "invalid encoding for snapshot field `" ++ what.name ++ "`"

end PicCascade.Snapshot
