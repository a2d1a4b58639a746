import PicCascade.Snapshot.Item

/-!
# Reading at a position

The readers of `PicCascade.Snapshot.Reader` hand on what is left of their input. Here the input stays
whole, and a word of 64 bits says how much of it has been consumed. Where a read ends is the sum of
that position and a length. A sum that exceeds a word, or that lies behind the end of the buffer, is
refused and leaves the position as it was.

A cursor performs the same scripts as `Read.performAll`.
-/

namespace PicCascade.Snapshot

/-- The number of bytes of an item. -/
def Shape.width : Shape → Nat
  | .u8 => 1
  | .u16 => 2
  | .u32 => 4
  | .u64 => 8
  | .bool => 1
  | .bytes length => length

/-- A buffer and the number of its bytes that have been consumed (`Decoder`, with `buf` and
`pos`). -/
structure Cursor where
  buffer : List UInt8
  position : UInt64 := 0
deriving DecidableEq

namespace Cursor

/-- The sum of two words, unless it exceeds a word (`checked_add`). -/
def add? (a b : UInt64) : Option UInt64 :=
  if a.toNat + b.toNat < UInt64.size then some (a + b) else none

/-- Where a read of some length ends, if there are that many bytes (`end` in `bytes`). -/
def stop? (c : Cursor) (length : UInt64) : Option UInt64 :=
  (add? c.position length).filter (·.toNat ≤ c.buffer.length)

/-- Consumes the next bytes (`bytes`). -/
def take (length : UInt64) : EStateM Error Cursor (List UInt8) := fun c =>
  match c.stop? length with
  | none => .error .unexpectedEnd c
  | some stop => .ok (c.buffer.extract c.position.toNat stop.toNat) { c with position := stop }

/-- Reads an item of a known shape (`u8` to `bool`, and `bytes`). Its bytes are consumed even if
they stand for no item. -/
def read (shape : Shape) : EStateM Error Cursor Item := do
  let bytes ← take (UInt64.ofNat shape.width)
  match shape.read.value bytes with
  | .ok item => return item
  | .error e => throw e

/-- Whether all of the buffer has been consumed (`is_empty`). -/
def atEnd (c : Cursor) : Bool := c.buffer.length ≤ c.position.toNat

/-- The reader of one step of a script. -/
def reader : Read → EStateM Error Cursor Read.Answer
  | .item shape => return .item (← read shape)
  | .atEnd => return .atEnd (← get).atEnd
  | .finish => do
    if (← get).atEnd then return .finished else throw (.invalidEncoding .trailingBytes)

/-- The answer of one step and the cursor that it leaves. -/
def perform (c : Cursor) (step : Read) : Read.Answer × Cursor :=
  match (reader step).run c with
  | .ok answer c => (answer, c)
  | .error e c => (.failed e, c)

/-- The answers of a script and the cursor at its end. -/
def performAll (c : Cursor) : List Read → List Read.Answer × Cursor
  | [] => ([], c)
  | step :: script =>
    let (answer, next) := c.perform step
    let (answers, last) := next.performAll script
    (answer :: answers, last)

end Cursor

end PicCascade.Snapshot
