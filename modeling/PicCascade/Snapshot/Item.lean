import PicCascade.Snapshot.Reader

/-!
# Typed items

The content of a snapshot field is a sequence of typed items. An item is written without any mark
of its type, so a reader has to know which shapes to expect. A `Read` is one step of such a reader:
it asks for an item of some shape, or whether the input is used up.
-/

namespace PicCascade.Snapshot

/-- A typed value in a byte string. The constructors are the methods of `Encoder` that take a
value. -/
inductive Item where
  | u8 (v : UInt8)
  | u16 (v : UInt16)
  | u32 (v : UInt32)
  | u64 (v : UInt64)
  | bool (v : Bool)
  | bytes (v : List UInt8)
deriving DecidableEq

/-- The type of an item, with the length of a byte string. The constructors are the methods of
`Decoder` that return a value. -/
inductive Shape where
  | u8
  | u16
  | u32
  | u64
  | bool
  | bytes (length : Nat)
deriving DecidableEq

namespace Item

/-- The type of a value. -/
def shape : Item → Shape
  | .u8 _ => .u8
  | .u16 _ => .u16
  | .u32 _ => .u32
  | .u64 _ => .u64
  | .bool _ => .bool
  | .bytes v => .bytes v.length

/-- Numbers are little-endian, truth values are the bytes 0 and 1, bytes stand for themselves. -/
def toBytes : Item → List UInt8
  | .u8 v => LittleEndian.ofNat 1 v.toNat
  | .u16 v => LittleEndian.ofNat 2 v.toNat
  | .u32 v => LittleEndian.ofNat 4 v.toNat
  | .u64 v => LittleEndian.ofNat 8 v.toNat
  | .bool v => LittleEndian.ofNat 1 v.toNat
  | .bytes v => v

/-- Items one after the other (what `Encoder` builds). -/
def encode (items : List Item) : List UInt8 := items.flatMap toBytes

end Item

/-- Reads an item of a known shape. -/
def Shape.read : Shape → Reader Item
  | .u8 => return .u8 (← Reader.u8)
  | .u16 => return .u16 (← Reader.u16)
  | .u32 => return .u32 (← Reader.u32)
  | .u64 => return .u64 (← Reader.u64)
  | .bool => return .bool (← Reader.bool)
  | .bytes length => return .bytes (← Reader.take length)

/-- One step of a script of reads, a call of `Decoder`. -/
inductive Read where
  | item (shape : Shape)
  | atEnd
  | finish
deriving DecidableEq

namespace Read

/-- What a step found. -/
inductive Answer where
  | item (value : Item)
  | atEnd (yes : Bool)
  | finished
  | failed (error : Error)
deriving DecidableEq

/-- The reader of one step. -/
def reader : Read → Reader Answer
  | .item shape => return .item (← shape.read)
  | .atEnd => return .atEnd (← Reader.atEnd)
  | .finish => do Reader.finish; return .finished

/-- The answer of one step and the input it leaves. A failure is an answer too. -/
def perform (step : Read) (input : List UInt8) : Answer × List UInt8 :=
  match step.reader.run input with
  | .ok answer rest => (answer, rest)
  | .error e rest => (.failed e, rest)

/-- The answers of a script, each step reading on where the one before it stopped. -/
def performAll : List Read → List UInt8 → List Answer
  | [], _ => []
  | step :: script, input =>
    let (answer, rest) := step.perform input
    answer :: performAll script rest

end Read

end PicCascade.Snapshot
