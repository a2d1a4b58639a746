import Mathlib.Logic.Function.Basic
import PicCascade.Platform.Handler

/-!
# Assemblies

A platform has more devices on its bus than those of a board. They can be of any kind and in any
number. What an assembly knows of such a device is that it acts on its own state only.
-/

namespace PicCascade

/-- Devices that act on nothing but their own state. Each handler of a device is the device. -/
class OwnState (Device : Type) (State : outParam (Device → Type)) where
  /-- Answers a read of a width in bytes. -/
  read : (d : Device) → UInt16 → UInt8 → State d → UInt32 × State d
  /-- Takes a write of a width in bytes. -/
  write : (d : Device) → UInt16 → UInt8 → UInt32 → State d → State d
  /-- Returns the device to its power-on state. -/
  reset : (d : Device) → State d → State d := fun _ s => s

/-- A board and the states of further devices. -/
structure Assembly (Device : Type) (State : Device → Type) where
  board : Board
  states : (d : Device) → State d

namespace Assembly

variable {Device : Type} {State : Device → Type} [DecidableEq Device]

/-- Replaces the state of one device. -/
def setState (a : Assembly Device State) (d : Device) (s : State d) : Assembly Device State :=
  { a with states := Function.update a.states d s }

/-- On the bus of an assembly, the handlers of the board stand next to further devices. -/
instance [OwnState Device State] : PortDevice (Handler ⊕ Device) (Assembly Device State) where
  read
    | .inl handler, port, size, a =>
      let (value, board) := a.board.readPort port size handler
      (value, { a with board })
    | .inr d, port, size, a =>
      let (value, s) := OwnState.read d port size (a.states d)
      (value, a.setState d s)
  write
    | .inl handler, port, size, value, a =>
      { a with board := a.board.writePort port size value handler }
    | .inr d, port, size, value, a => a.setState d (OwnState.write d port size value (a.states d))
  reset
    | .inl handler, a => { a with board := a.board.resetPort handler }
    | .inr d, a => a.setState d (OwnState.reset d (a.states d))

end Assembly

end PicCascade
