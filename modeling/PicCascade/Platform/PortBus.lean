import Std.Data.TreeMap

/-!
# Port bus

The guest reaches devices through 65536 ports. A bus says which handler answers at each port; a
handler that is registered replaces the one before it. Handlers are names for parts of a shared
state, the world, and act on it: several handlers can stand for one device.

An access is one, two or four bytes wide and is not split. A port without a handler floats high.

Results:
* `at?_register`, `at?_unregister`: which handler answers after a change at one port.
-/

namespace PicCascade

/-- What handlers of type `Handler` do to a world when their port is accessed (`PortIoDevice`). -/
class PortDevice (Handler : Type) (World : outParam Type) where
  /-- Answers a read of a width in bytes. -/
  read : Handler → UInt16 → UInt8 → World → UInt32 × World
  /-- Takes a write of a width in bytes. -/
  write : Handler → UInt16 → UInt8 → UInt32 → World → World
  /-- Returns the device to its power-on state. -/
  reset : Handler → World → World := fun _ world => world

/-- The value of a read, of a width in bytes, that nothing answers (`open_bus`). -/
def openBus (size : UInt8) : UInt32 :=
  if size = 1 then 0xFF else if size = 2 then 0xFFFF else 0xFFFFFFFF

/-- The handlers of a bus by port (`IoPortBus`). -/
structure PortBus (Handler : Type) where
  /-- The handler at each port that has one (`devices`). -/
  handlers : Std.TreeMap UInt16 Handler := ∅

namespace PortBus

variable {Handler World : Type}

/-- The handler at a port. -/
def at? (bus : PortBus Handler) (port : UInt16) : Option Handler := bus.handlers[port]?

/-- Whether a port has a handler (`is_mapped`). -/
def isMapped (bus : PortBus Handler) (port : UInt16) : Bool := (bus.at? port).isSome

/-! ## Registration -/

/-- Makes a handler answer at a port. -/
def register (bus : PortBus Handler) (port : UInt16) (handler : Handler) : PortBus Handler :=
  ⟨bus.handlers.insert port handler⟩

/-- Leaves a port without handler, and hands out the one it had. -/
def unregister (bus : PortBus Handler) (port : UInt16) : Option Handler × PortBus Handler :=
  (bus.at? port, ⟨bus.handlers.erase port⟩)

/-- Consecutive ports; port 0 follows port 65535. -/
def range (start length : UInt16) : List UInt16 :=
  (List.range length.toNat).map fun offset => start + UInt16.ofNat offset

/-- Makes one handler answer at several ports (the loop of `register_pic8259`). -/
def registerAll (bus : PortBus Handler) (ports : List UInt16) (handler : Handler) :
    PortBus Handler :=
  ports.foldl (·.register · handler) bus

/-- Makes a handler for each port of a range, in order (`register_shared_range`). -/
def registerRange {m : Type → Type} [Monad m] (bus : PortBus Handler) (start length : UInt16)
    (make : UInt16 → m Handler) : m (PortBus Handler) :=
  (range start length).foldlM (fun bus port => return bus.register port (← make port)) bus

/-- Leaves all ports of a range without handlers (`unregister_range`). -/
def unregisterRange (bus : PortBus Handler) (start length : UInt16) : PortBus Handler :=
  (range start length).foldl (fun bus port => (bus.unregister port).2) bus

/-! ## Access -/

/-- Whether a width in bytes is that of an access. -/
def isAccessSize (size : UInt8) : Bool := size = 1 || size = 2 || size = 4

/-- Reads a port. A width of no bytes reads as zero and any other width that is not an access reads
as all ones, both without reaching a handler. -/
def read [PortDevice Handler World] (bus : PortBus Handler) (port : UInt16) (size : UInt8)
    (world : World) : UInt32 × World :=
  if size = 0 then (0, world)
  else if isAccessSize size then
    match bus.at? port with
    | some handler => PortDevice.read handler port size world
    | none => (openBus size, world)
  else (0xFFFFFFFF, world)

/-- Writes a port. -/
def write [PortDevice Handler World] (bus : PortBus Handler) (port : UInt16) (size : UInt8)
    (value : UInt32) (world : World) : World :=
  if isAccessSize size then
    match bus.at? port with
    | some handler => PortDevice.write handler port size value world
    | none => world
  else world

/-- Resets through a list of handlers, one after the other. -/
def resetEach [PortDevice Handler World] (handlers : List Handler) (world : World) : World :=
  handlers.foldl (fun world handler => PortDevice.reset handler world) world

/-- Resets through every handler, once for each of its ports. -/
def reset [PortDevice Handler World] (bus : PortBus Handler) (world : World) : World :=
  resetEach bus.handlers.values world

/-! ## Who answers -/

theorem at?_register (bus : PortBus Handler) (port : UInt16) (handler : Handler) (p : UInt16) :
    (bus.register port handler).at? p = if port = p then some handler else bus.at? p := by
  simp [at?, register, Std.TreeMap.getElem?_insert]

theorem at?_unregister (bus : PortBus Handler) (port : UInt16) (p : UInt16) :
    (bus.unregister port).2.at? p = if port = p then none else bus.at? p := by
  simp [at?, unregister, Std.TreeMap.getElem?_erase]

end PortBus

end PicCascade
