import PicCascade.Pair.Basic

/-!
# Latches

A device that is being accessed cannot stop the machine or reset another device. It leaves a note
in a latch, and the platform acts on the note between accesses. The fault latch keeps the first
fault; the reset latch keeps the most thorough reset.
-/

namespace PicCascade

/-- Holds the first fault reported since it was last emptied. -/
structure FaultLatch where
  /-- The fault, if there is one (`first`). -/
  fault : Option Fault := none
deriving DecidableEq

namespace FaultLatch

/-- Notes a fault, unless there is one already (`report_fault`). -/
def report (latch : FaultLatch) (fault : Fault) : FaultLatch :=
  ⟨latch.fault <|> some fault⟩

/-- Whether there is a fault (`is_faulted`). -/
def isFaulted (latch : FaultLatch) : Bool := latch.fault.isSome

/-- Hands out the fault and empties the latch. -/
def take (latch : FaultLatch) : Option Fault × FaultLatch := (latch.fault, {})

end FaultLatch

/-- What accepts requests for resets (`PlatformResetSink`). -/
class ResetSink (Sink : Type) where
  /-- Takes a request (`request_reset`). -/
  request : Sink → Pair.ResetKind → Sink

/-- A list of requests keeps all of them in order. -/
instance : ResetSink (List Pair.ResetKind) where
  request seen kind := seen ++ [kind]

/-- Holds a request for a reset. -/
structure ResetLatch where
  /-- The request, if there is one (`pending`). -/
  kind : Option Pair.ResetKind := none
deriving DecidableEq

namespace ResetLatch

/-- Notes a request (`request_reset`). A cold reset stays noted whatever follows. -/
def request (latch : ResetLatch) (kind : Pair.ResetKind) : ResetLatch :=
  if latch.kind = some .cold then latch else ⟨some kind⟩

instance : ResetSink ResetLatch := ⟨request⟩

/-- Hands out the request and empties the latch. -/
def take (latch : ResetLatch) : Option Pair.ResetKind × ResetLatch := (latch.kind, {})

end ResetLatch

/-- Passes requests on to a sink, one after the other. -/
def requestAll {Sink : Type} [ResetSink Sink] (sink : Sink) (kinds : List Pair.ResetKind) : Sink :=
  kinds.foldl ResetSink.request sink

end PicCascade
