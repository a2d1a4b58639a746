/-!
# Scratch device

A device with one 32-bit cell behind all of its ports. It keeps a record of the accesses that reach
it and of how often it was reset.
-/

namespace PicCascade

/-- An access that reached a scratch device. -/
inductive Access where
  | read (port : UInt16) (size : UInt8)
  | write (port : UInt16) (size : UInt8) (value : UInt32)
deriving DecidableEq

/-- The cell and the record. -/
structure Scratch where
  value : UInt32 := 0
  resets : Nat := 0
  /-- The accesses since the record was last emptied, oldest first. -/
  accesses : List Access := []
deriving DecidableEq

namespace Scratch

/-- Reads the whole cell, whatever the width of the access. -/
def read (s : Scratch) (port : UInt16) (size : UInt8) : UInt32 × Scratch :=
  (s.value, { s with accesses := s.accesses ++ [.read port size] })

/-- Stores the whole value, whatever the width of the access. -/
def write (s : Scratch) (port : UInt16) (size : UInt8) (value : UInt32) : Scratch :=
  { s with value, accesses := s.accesses ++ [.write port size value] }

/-- Clears the cell. -/
def reset (s : Scratch) : Scratch := { s with value := 0, resets := s.resets + 1 }

end Scratch

end PicCascade
