import PicCascade.Platform.Machine
import PicCascade.Proofs.Layout

/-!
# The ports of a pair on a bus

The ports that its configuration lists are those at which a pair has a register, and those at which it
is registered on a bus.

Results:
* `readPort_of_unlisted`, `writePort_of_unlisted`: what the pair does with an access to another port.
* `at?_registerAll`: registering one handler at several ports.
* `at?_single`: who answers on the bus of a machine with one pair.
-/

namespace PicCascade

namespace Pair

variable {Wire : Type} {p : Pair Wire} {port : UInt16}

theorem readPort_of_unlisted (unlisted : port ∉ p.config.ports) :
    p.readPort port = ⟨0xFF, p, []⟩ := by
  rw [readPort, Config.decode?_eq_none_iff.mpr unlisted]

theorem writePort_of_unlisted {value : UInt8} (unlisted : port ∉ p.config.ports) :
    p.writePort port value = ⟨none, p, []⟩ := by
  rw [writePort, Config.decode?_eq_none_iff.mpr unlisted]

end Pair

namespace PortBus

variable {Handler : Type}

theorem at?_empty (port : UInt16) : ({} : PortBus Handler).at? port = none := by
  simp [at?]

theorem at?_registerAll (bus : PortBus Handler) (ports : List UInt16) (handler : Handler)
    (port : UInt16) :
    (bus.registerAll ports handler).at? port =
      if port ∈ ports then some handler else bus.at? port := by
  induction ports generalizing bus with
  | nil => simp [registerAll]
  | cons first rest ih =>
    have step : (bus.registerAll (first :: rest) handler).at? port =
        ((bus.register first handler).registerAll rest handler).at? port := rfl
    rw [step, ih, at?_register]
    by_cases later : port ∈ rest
    · simp [later]
    · simp [later, eq_comm]

end PortBus

/-- On the bus of a machine with one pair, the pair answers at its ports, and nothing at others. -/
theorem Machine.at?_single (config : Config) (route : Option FaultRoute) (port : UInt16) :
    (single config route).bus.at? port =
      if port ∈ config.ports then some (.first route) else none := by
  rw [single, PortBus.at?_registerAll, PortBus.at?_empty]

end PicCascade
