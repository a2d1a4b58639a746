import PicCascade.Platform.Handler

/-!
# Machine

A board and the bus through which the guest reaches it.
-/

namespace PicCascade

/-- A board and its bus. -/
structure Machine where
  board : Board
  bus : PortBus Handler := {}

namespace Machine

/-! ## Power-on -/

/-- A machine with one pair, whose output goes to the recorder. All ports of the pair are
registered, with faults passed on by the given route (`register_pic8259_with_fault_sink`). -/
def single (config : Config) (route : Option FaultRoute) : Machine :=
  { board := ({ first := Pair.new config } : Board).renew .first
    bus := ({} : PortBus Handler).registerAll config.ports (.first route) }

/-- Adds a second pair, whose output drives line `n` of the first. All of its ports are registered,
with faults passed on to the latch (`register_pic8259_with_fault_sink`). -/
def withSecond (m : Machine) (config : Config) (n : UInt8) : Machine :=
  let board := { m.board with second := some (Pair.new config) }
  { board := (board.onSecond (·.connect (some (.request n)))).2
    bus := m.bus.registerAll config.ports (.second true) }

/-! ## The guest -/

/-- Reads a port with a width in bytes. -/
def read (m : Machine) (port : UInt16) (size : UInt8) : UInt32 × Machine :=
  let (value, board) := m.bus.read port size m.board
  (value, { m with board })

/-- Writes a port with a width in bytes. -/
def write (m : Machine) (port : UInt16) (size : UInt8) (value : UInt32) : Machine :=
  { m with board := m.bus.write port size value m.board }

/-- Reads one byte (`read_u8`). -/
def readByte (m : Machine) (port : UInt16) : UInt8 × Machine :=
  let (value, m) := m.read port 1
  (value.toUInt8, m)

/-- Writes one byte (`write_u8`). -/
def writeByte (m : Machine) (port : UInt16) (value : UInt8) : Machine :=
  m.write port 1 value.toUInt32

/-! ## The platform -/

/-- Resets everything that answers at a port. -/
def reset (m : Machine) : Machine := { m with board := m.bus.reset m.board }

/-- Makes one of the pairs answer at a port, without passing on faults. -/
def mapPair (m : Machine) (slot : Slot) (port : UInt16) : Machine :=
  let handler : Handler :=
    match slot with
    | .first => .first none
    | .second => .second false
  { m with bus := m.bus.register port handler }

/-- Makes a scratch device answer at a port. -/
def mapScratch (m : Machine) (port : UInt16) (id : Nat) (resettable : Bool) : Machine :=
  { m with bus := m.bus.register port (.scratch id resettable) }

/-- Makes a scratch device answer at a range of ports, and lists the ports in the order in which
their handlers were made. -/
def mapScratchRange (m : Machine) (start length : UInt16) (id : Nat) : List UInt16 × Machine :=
  let make (port : UInt16) : StateM (List UInt16) Handler := do
    modify (port :: ·)
    return .scratch id true
  let (bus, made) := (m.bus.registerRange start length make).run []
  (made.reverse, { m with bus })

/-- Leaves a port without handler, and tells whether it had one. -/
def unmap (m : Machine) (port : UInt16) : Bool × Machine :=
  let (handler, bus) := m.bus.unregister port
  (handler.isSome, { m with bus })

/-- Leaves a range of ports without handlers. -/
def unmapRange (m : Machine) (start length : UInt16) : Machine :=
  { m with bus := m.bus.unregisterRange start length }

end Machine

end PicCascade
