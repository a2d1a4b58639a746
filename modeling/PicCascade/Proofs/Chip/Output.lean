import PicCascade.Chip.Command

/-!
# When a chip recomputes its output

The output of a chip is a latch: it shows what the chip offered when the output was last
recomputed. An operation of the chip is *announced* if it ends in such a recomputation or leaves
the offered line as it was. All operations are, except the two that switch a mode of arbitration:
OCW3 with the special mask bits and, on the primary, ICW4.

Results:
* `announced_setLine`, `announced_acknowledge`, `announced_endService`, `announced_reset`,
  `announced_coldReset`, `announced_writeElcr`: the operations that are announced in every state.
* `announced_writeCommand`, `announced_writeData`: port writes are announced unless they switch a
  mode of arbitration.
* `recomputed_execute`, `recomputed_writeData`, `unforwarded_execute`, `unforwarded_writeData`: which
  port writes recompute the output.
-/

namespace PicCascade

/-- The command switches special mask mode. -/
def Command.SetsSpecialMask : Command → Prop
  | .ocw3 _ _ (some _) => True
  | _ => False

instance (command : Command) : Decidable command.SetsSpecialMask :=
  match command with
  | .ocw3 _ _ (some _) => isTrue trivial
  | .ocw3 _ _ none | .icw1 .. | .autoRotation _ | .endHighest _ | .endLine .. | .setLowest _
  | .noOperation => isFalse id

namespace Chip

variable {position : Position}

/-! ## Registers, output and mark after each building block -/

@[simp]
theorem regs_modify (c : Chip position) (f : Registers → Registers) :
    (c.modify f).regs = f c.regs := rfl

@[simp]
theorem output_modify (c : Chip position) (f : Registers → Registers) :
    (c.modify f).output = c.output := rfl

@[simp]
theorem unforwarded_modify (c : Chip position) (f : Registers → Registers) :
    (c.modify f).unforwarded = c.unforwarded := rfl

@[simp]
theorem regs_refresh (c : Chip position) : c.refresh.regs = c.regs := rfl

@[simp]
theorem output_refresh (c : Chip position) : c.refresh.output = c.pending?.isSome := rfl

@[simp]
theorem unforwarded_refresh (c : Chip position) : c.refresh.unforwarded = true := rfl

@[simp]
theorem pending?_refresh (c : Chip position) : c.refresh.pending? = c.pending? := rfl

@[simp]
theorem regs_forwarded (c : Chip position) : c.forwarded.regs = c.regs := rfl

@[simp]
theorem output_forwarded (c : Chip position) : c.forwarded.output = c.output := rfl

@[simp]
theorem unforwarded_forwarded (c : Chip position) : c.forwarded.unforwarded = false := rfl

@[simp]
theorem pending?_forwarded (c : Chip position) : c.forwarded.pending? = c.pending? := rfl

theorem forwarded_of_idle {c : Chip position} (idle : c.unforwarded = false) :
    c.forwarded = c := by
  cases c
  cases idle
  rfl

/-! ## Announced changes -/

/-- The change from `c` to `d` reaches whatever the chip drives: the output of `d` has been
recomputed, unless `d` offers the same line as `c`. -/
inductive Announced (c : Chip position) : Chip position → Prop
  | recomputed {d : Chip position} (marked : d.unforwarded = true)
      (current : d.output = d.pending?.isSome) : Announced c d
  | unchanged {d : Chip position} (mark : d.unforwarded = c.unforwarded)
      (latch : d.output = c.output) (offered : d.pending? = c.pending?) : Announced c d

theorem announced_refl (c : Chip position) : Announced c c := .unchanged rfl rfl rfl

theorem announced_refresh (c d : Chip position) : Announced c d.refresh := .recomputed rfl rfl

/-- A later change of registers that arbitration does not read keeps a change announced. -/
theorem Announced.modify {c d : Chip position} (h : Announced c d) {f : Registers → Registers}
    (same : ∀ r, (f r).pending? position = r.pending? position) : Announced c (d.modify f) := by
  have offered : (d.modify f).pending? = d.pending? := same d.regs
  cases h with
  | recomputed marked current => exact .recomputed marked (by rw [offered]; exact current)
  | unchanged mark latch kept => exact .unchanged mark latch (offered.trans kept)

theorem announced_setLine (c : Chip position) (i : Line) (level : Bool) :
    Announced c (c.setLine i level) := announced_refresh ..

theorem announced_acknowledge (c : Chip position) (i : Line) : Announced c (c.acknowledge i) :=
  announced_refresh ..

theorem announced_endService (c : Chip position) (i : Line) (rotate : Bool) :
    Announced c (c.endService i rotate) := announced_refresh ..

theorem announced_reset (c : Chip position) : Announced c c.reset := announced_refresh ..

theorem announced_coldReset (c : Chip position) : Announced c c.coldReset := announced_refresh ..

theorem announced_writeElcr (c : Chip position) (writable : LineSet 8) (value : UInt8) :
    Announced c (c.writeElcr writable value) :=
  (announced_refl c).modify fun _ => rfl

theorem announced_execute (c : Chip position) {command : Command}
    (h : ¬ command.SetsSpecialMask) : Announced c (c.execute command) := by
  cases command with
  | icw1 levelTriggered single expectIcw4 =>
    rw [execute]
    exact (announced_reset c).modify fun _ => rfl
  | ocw3 poll readIsr specialMask =>
    cases specialMask with
    | none =>
      rw [execute]
      exact (announced_refl c).modify fun _ => rfl
    | some on => exact absurd trivial h
  | autoRotation on =>
    rw [execute]
    exact (announced_refl c).modify fun _ => rfl
  | endHighest rotate =>
    rw [execute]
    split
    · exact announced_endService ..
    · exact announced_refl c
  | endLine i rotate => exact announced_endService ..
  | setLowest i => exact announced_refresh ..
  | noOperation => exact announced_refl c

theorem announced_writeCommand (c : Chip position) {value : UInt8}
    (h : ¬ (Command.decode value).SetsSpecialMask) : Announced c (c.writeCommand value) :=
  announced_execute c h

/-- Special fully nested mode, which ICW4 switches, is read on the primary only. -/
theorem announced_writeData (c : Chip position) (value : UInt8)
    (h : position = .secondary ∨ c.regs.stage ≠ .awaitingIcw4) :
    Announced c (c.writeData value) := by
  unfold writeData
  cases hstage : c.regs.stage with
  | ready => exact announced_refresh ..
  | awaitingIcw2 => exact (announced_refl c).modify fun _ => rfl
  | awaitingIcw3 => exact (announced_refl c).modify fun _ => rfl
  | awaitingIcw4 =>
    rcases h with rfl | h
    · refine (announced_refl c).modify fun r => ?_
      simp [Registers.pending?, Registers.blocking, Registers.candidates]
    · exact absurd hstage h

/-! ## Recomputation -/

/-- The output has been recomputed from the present registers and waits to be forwarded. -/
structure Recomputed (c : Chip position) : Prop where
  marked : c.unforwarded = true
  current : c.output = c.pending?.isSome

theorem recomputed_refresh (c : Chip position) : c.refresh.Recomputed := ⟨rfl, rfl⟩

theorem recomputed_acknowledge (c : Chip position) (i : Line) : (c.acknowledge i).Recomputed :=
  recomputed_refresh _

theorem recomputed_endService (c : Chip position) (i : Line) (rotate : Bool) :
    (c.endService i rotate).Recomputed := recomputed_refresh _

/-- A later change of registers that arbitration does not read leaves the output current. -/
theorem Recomputed.modify {c : Chip position} (h : c.Recomputed) {f : Registers → Registers}
    (same : ∀ r, (f r).pending? position = r.pending? position) : (c.modify f).Recomputed :=
  ⟨h.marked, h.current.trans (congrArg Option.isSome (same c.regs)).symm⟩

/-- The chip recomputes its output when it carries out the command. -/
def recomputes (c : Chip position) : Command → Bool
  | .icw1 .. | .endLine .. | .setLowest _ => true
  | .endHighest _ => c.regs.isr ≠ ∅
  | .ocw3 .. | .autoRotation _ | .noOperation => false

theorem recomputed_execute {c : Chip position} {command : Command}
    (h : c.recomputes command = true) : (c.execute command).Recomputed := by
  cases command with
  | icw1 levelTriggered single expectIcw4 =>
    rw [execute]
    exact (recomputed_refresh _).modify fun _ => rfl
  | endHighest rotate =>
    have inService : c.regs.isr ≠ ∅ := of_decide_eq_true h
    rw [execute]
    cases found : c.regs.isr.highest? c.regs.top with
    | none => exact absurd (LineSet.highest?_eq_none_iff.mp found) inService
    | some i => exact recomputed_refresh _
  | endLine i rotate | setLowest i => exact recomputed_refresh _
  | ocw3 | autoRotation | noOperation => exact absurd h Bool.false_ne_true

theorem unforwarded_execute {c : Chip position} {command : Command}
    (h : c.recomputes command = false) : (c.execute command).unforwarded = c.unforwarded := by
  cases command with
  | endHighest rotate =>
    have idle : c.regs.isr = ∅ := by simpa [recomputes] using h
    rw [execute, LineSet.highest?_eq_none_iff.mpr idle]
  | ocw3 | autoRotation | noOperation => rfl
  | icw1 | endLine | setLowest => exact absurd h.symm Bool.false_ne_true

/-- Switching special mask mode does not recompute the output. -/
theorem unforwarded_writeCommand {c : Chip position} {value : UInt8}
    (sets : (Command.decode value).SetsSpecialMask) :
    (c.writeCommand value).unforwarded = c.unforwarded := by
  apply unforwarded_execute
  cases decoded : Command.decode value with
  | ocw3 poll readIsr specialMask => rfl
  | _ =>
    rw [decoded] at sets
    exact sets.elim

/-- The mask register is arbitrated, the words of an initialisation are not. -/
theorem recomputed_writeData {c : Chip position} (value : UInt8) (ready : c.regs.stage = .ready) :
    (c.writeData value).Recomputed := by
  rw [writeData, ready]
  exact recomputed_refresh _

theorem unforwarded_writeData {c : Chip position} (value : UInt8) (busy : c.regs.stage ≠ .ready) :
    (c.writeData value).unforwarded = c.unforwarded := by
  unfold writeData
  cases stage : c.regs.stage with
  | ready => exact absurd stage busy
  | awaitingIcw2 | awaitingIcw3 | awaitingIcw4 => rfl

end Chip

end PicCascade
