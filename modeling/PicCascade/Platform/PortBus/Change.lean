import PicCascade.Platform.PortBus

/-!
# Changes of a port bus

Every way to change who answers at the ports, as data, so that the history of a bus is a list of
changes. The handlers of a range are made one by one, by something that can keep a state from one to
the next, and from one range to the next.
-/

namespace PicCascade.PortBus

/-- A change of the handlers on a bus. What makes handlers has a state of type `σ`. -/
inductive Change (σ Handler : Type) where
  | register (port : UInt16) (handler : Handler)
  | unregister (port : UInt16)
  | registerRange (start length : UInt16) (make : UInt16 → StateM σ Handler)
  | unregisterRange (start length : UInt16)

variable {σ Handler : Type}

/-- Makes a change. -/
def perform (bus : PortBus Handler) : Change σ Handler → StateM σ (PortBus Handler)
  | .register port handler => return bus.register port handler
  | .unregister port => return (bus.unregister port).2
  | .registerRange start length make => bus.registerRange start length make
  | .unregisterRange start length => return bus.unregisterRange start length

/-- Makes all changes of a history. -/
def performAll (bus : PortBus Handler) (history : List (Change σ Handler)) :
    StateM σ (PortBus Handler) :=
  history.foldlM perform bus

end PicCascade.PortBus
