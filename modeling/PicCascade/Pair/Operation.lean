import PicCascade.Pair.Ports
import PicCascade.Pair.Saved

/-!
# Operations on a pair

Every way to change a pair, as data, so that a history is a list of operations. A pair is reachable
if some history leads to it from power-on.
-/

namespace PicCascade.Pair

/-- An operation that can change a pair. -/
inductive Operation (Wire : Type) where
  | setLine (n : UInt8) (level : Bool)
  | readPort (port : UInt16)
  | writePort (port : UInt16) (value : UInt8)
  | acknowledge
  | acknowledgeIfAsserted
  | readIntack
  | reset (kind : ResetKind)
  | restore (bytes : List UInt8)
  | connect (wire : Option Wire)
  | setCounting (on : Bool)
  | clearCounts

/-- What an operation answers. -/
inductive Answer where
  | nothing
  | byte (value : UInt8)
  | vector (value : Option UInt8)
  | written (fault : Option Fault)
  | restored (result : Except Snapshot.Error Unit)

/-- The same operation with other names for the wires. -/
def Operation.mapWire {Wire Wire' : Type} (f : Wire → Wire') : Operation Wire → Operation Wire'
  | .setLine n level => .setLine n level
  | .readPort port => .readPort port
  | .writePort port value => .writePort port value
  | .acknowledge => .acknowledge
  | .acknowledgeIfAsserted => .acknowledgeIfAsserted
  | .readIntack => .readIntack
  | .reset kind => .reset kind
  | .restore bytes => .restore bytes
  | .connect wire => .connect (wire.map f)
  | .setCounting on => .setCounting on
  | .clearCounts => .clearCounts

variable {Wire : Type}

/-- Performs an operation. -/
def perform (p : Pair Wire) : Operation Wire → Outcome Wire Answer
  | .setLine n level => (p.setLine n level).map fun _ => .nothing
  | .readPort port => (p.readPort port).map .byte
  | .writePort port value => (p.writePort port value).map .written
  | .acknowledge => p.acknowledge.map .byte
  | .acknowledgeIfAsserted => p.acknowledgeIfAsserted.map .vector
  | .readIntack => p.readIntack.map .byte
  | .reset kind => (p.reset kind).map fun _ => .nothing
  | .restore bytes => (p.restore bytes).map .restored
  | .connect wire => (p.connect wire).map fun _ => .nothing
  | .setCounting on => ⟨.nothing, p.setCounting on, []⟩
  | .clearCounts => ⟨.nothing, p.clearCounts, []⟩

/-- Performs a history: all answers, the pair at the end, and all levels driven. -/
def performAll (p : Pair Wire) : List (Operation Wire) → Outcome Wire (List Answer)
  | [] => ⟨[], p, []⟩
  | op :: history =>
    let first := p.perform op
    let others := first.pair.performAll history
    ⟨first.answer :: others.answer, others.pair, first.driven ++ others.driven⟩

/-- A pair that some history leads to from power-on. -/
def Reachable (config : Config) (p : Pair Wire) : Prop :=
  ∃ history : List (Operation Wire), ((new config).performAll history).pair = p

end Pair

end PicCascade
