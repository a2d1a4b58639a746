/-!
# Hexadecimal text

Bytes are written as two lower-case hexadecimal digits each, and read back in the same form.
-/

namespace PicCascade.Hex

/-- The lower-case digit of a value below 16. -/
def digit (d : Nat) : Char :=
  if d < 10 then Char.ofNat ('0'.toNat + d) else Char.ofNat ('a'.toNat + (d - 10))

/-- The value of a lower-case hexadecimal digit. -/
def value? (c : Char) : Option Nat :=
  if '0' ≤ c ∧ c ≤ '9' then some (c.toNat - '0'.toNat)
  else if 'a' ≤ c ∧ c ≤ 'f' then some (c.toNat - 'a'.toNat + 10)
  else none

/-- The two digits of a byte, the high one first. -/
def digits (b : UInt8) : List Char :=
  [digit (b.toNat / 16), digit (b.toNat % 16)]

/-- The byte two digits stand for. -/
def byte? (high low : Char) : Option UInt8 := do
  return UInt8.ofNat (16 * (← value? high) + (← value? low))

/-- A byte as two digits. -/
def ofByte (b : UInt8) : String := String.ofList (digits b)

/-- A byte string, two digits per byte. -/
def ofBytes (bs : List UInt8) : String := String.ofList (bs.flatMap digits)

/-- Reads pairs of digits; fails on another character and on a digit left over. -/
def readPairs? : List Char → Option (List UInt8)
  | [] => some []
  | high :: low :: rest => do return (← byte? high low) :: (← readPairs? rest)
  | [_] => none

/-- The byte string written by a text of digit pairs. -/
def toBytes? (text : String) : Option (List UInt8) := readPairs? text.toList

end PicCascade.Hex
