import PicCascade.Pair.Operation
import PicCascade.Proofs.Chip.Output

/-!
# Pairs that behave alike

Two pairs agree if they have the same wiring and the same registers, if edges are counted on both
or on neither, and if the same outputs wait to be forwarded, at the same levels. They need not have
counted the same edges, nor show the same levels of outputs that have been forwarded. No operation
brings such a difference to light. Nor does it make a difference to the level of the wire, once
that is the same on both.

Results:
* `Agree.perform`: every operation answers the same on both pairs and leaves them in agreement.
* `Agree.performAll`: so does every history.
-/

namespace PicCascade

/-- Chips with the same registers. The outputs may differ unless they wait to be forwarded. -/
structure Chip.Agree {position : Position} (c d : Chip position) : Prop where
  regs : c.regs = d.regs
  unforwarded : c.unforwarded = d.unforwarded
  output : c.unforwarded = true → c.output = d.output

/-! ## Chips -/

namespace Chip.Agree

variable {position : Position} {c d : Chip position}

/-- An output that has been forwarded is not looked at. -/
theorem of_forwarded (regs : c.regs = d.regs) (first : c.unforwarded = false)
    (second : d.unforwarded = false) : c.Agree d where
  regs := regs
  unforwarded := first.trans second.symm
  output waiting := nomatch first.symm.trans waiting

theorem pending?_eq (h : c.Agree d) : c.pending? = d.pending? := by
  rw [pending?, pending?, h.regs]

theorem vector_eq (h : c.Agree d) (i : Line) : c.vector i = d.vector i := by
  rw [vector, vector, h.regs]

theorem status_eq (h : c.Agree d) : c.status = d.status := by
  rw [status, status, h.regs]

theorem modify (h : c.Agree d) (f : Registers → Registers) : (c.modify f).Agree (d.modify f) where
  regs := congrArg f h.regs
  unforwarded := h.unforwarded
  output := h.output

theorem refresh (h : c.Agree d) : c.refresh.Agree d.refresh where
  regs := h.regs
  unforwarded := rfl
  output _ := congrArg Option.isSome h.pending?_eq

theorem forwarded (h : c.Agree d) : c.forwarded.Agree d.forwarded where
  regs := h.regs
  unforwarded := rfl
  output waiting := nomatch waiting

theorem setLine (h : c.Agree d) (i : Line) (level : Bool) :
    (c.setLine i level).Agree (d.setLine i level) := (h.modify _).refresh

theorem acknowledge (h : c.Agree d) (i : Line) : (c.acknowledge i).Agree (d.acknowledge i) :=
  (h.modify _).refresh

theorem retire (h : c.Agree d) (i : Line) : (c.retire i).Agree (d.retire i) := h.modify _

theorem endService (h : c.Agree d) (i : Line) (rotate : Bool) :
    (c.endService i rotate).Agree (d.endService i rotate) := (h.modify _).refresh

theorem reset (h : c.Agree d) : c.reset.Agree d.reset := (h.modify _).refresh

theorem coldReset (h : c.Agree d) : c.coldReset.Agree d.coldReset := (h.modify _).refresh

theorem writeElcr (h : c.Agree d) (writable : LineSet 8) (value : UInt8) :
    (c.writeElcr writable value).Agree (d.writeElcr writable value) := h.modify _

theorem writeCommand (h : c.Agree d) (value : UInt8) :
    (c.writeCommand value).Agree (d.writeCommand value) := by
  unfold Chip.writeCommand
  cases Command.decode value with
  | icw1 levelTriggered single expectIcw4 =>
    rw [execute, execute]
    exact h.reset.modify _
  | ocw3 poll readIsr specialMask =>
    rw [execute, execute]
    exact h.modify _
  | autoRotation on =>
    rw [execute, execute]
    exact h.modify _
  | endHighest rotate =>
    rw [execute, execute, ← h.regs]
    split
    · exact h.endService _ rotate
    · exact h
  | endLine i rotate => exact h.endService i rotate
  | setLowest i => exact (h.modify _).refresh
  | noOperation => exact h

theorem writeData (h : c.Agree d) (value : UInt8) :
    (c.writeData value).Agree (d.writeData value) := by
  unfold Chip.writeData
  rw [← h.regs]
  cases c.regs.stage with
  | ready => exact (h.modify _).refresh
  | awaitingIcw2 => exact h.modify _
  | awaitingIcw3 => exact h.modify _
  | awaitingIcw4 => exact h.modify _

end Chip.Agree

/-- Pairs that cannot be told apart by operations. If `levels` holds, their wires have the same
level, too. -/
structure Pair.Agree {Wire : Type} (levels : Prop) (p q : Pair Wire) : Prop where
  config : p.config = q.config
  primary : p.primary.Agree q.primary
  secondary : p.secondary.Agree q.secondary
  counting : p.counters.enabled = q.counters.enabled
  level : levels → p.level = q.level

/-- The same answer on pairs that agree. -/
structure Outcome.Agree {Wire α : Type} (levels : Prop) (o o' : Outcome Wire α) : Prop where
  answer : o.answer = o'.answer
  pair : o.pair.Agree levels o'.pair

variable {Wire α β : Type} {levels : Prop}

theorem Outcome.Agree.map {o o' : Outcome Wire α} (h : o.Agree levels o') (f : α → β) :
    (o.map f).Agree levels (o'.map f) :=
  ⟨congrArg f h.answer, h.pair⟩

namespace Pair.Agree

variable {p q : Pair Wire}

/-! ## Changing the chips and settling -/

theorem withPrimary (h : p.Agree levels q) {c d : Chip .primary} (kept : c.Agree d) :
    Agree levels { p with primary := c } { q with primary := d } :=
  ⟨h.config, kept, h.secondary, h.counting, h.level⟩

theorem withSecondary (h : p.Agree levels q) {c d : Chip .secondary} (kept : c.Agree d) :
    Agree levels { p with secondary := c } { q with secondary := d } :=
  ⟨h.config, h.primary, kept, h.counting, h.level⟩

theorem chip (h : p.Agree levels q) (position : Position) :
    (p.chip position).Agree (q.chip position) := by
  cases position with
  | primary => exact h.primary
  | secondary => exact h.secondary

theorem modifyChip (h : p.Agree levels q) {position : Position}
    {f : Chip position → Chip position} (kept : ∀ {c d}, c.Agree d → (f c).Agree (f d)) :
    (p.modifyChip position f).Agree levels (q.modifyChip position f) := by
  cases position with
  | primary => exact h.withPrimary (kept h.primary)
  | secondary => exact h.withSecondary (kept h.secondary)

theorem relay (h : p.Agree levels q) : p.relay.Agree levels q.relay := by
  unfold Pair.relay
  rw [← h.secondary.unforwarded]
  split
  · rename_i waiting
    rw [← h.secondary.output waiting]
    exact (h.withSecondary h.secondary.forwarded).withPrimary (h.primary.setLine _ _)
  · exact h

theorem drive (h : p.Agree levels q) : p.drive.Agree levels q.drive := by
  unfold Pair.drive
  rw [← h.primary.unforwarded]
  split
  · rename_i waiting
    have output := h.primary.output waiting
    exact ⟨h.config, h.primary.forwarded, h.secondary, h.counting, fun _ => output⟩
  · exact h

theorem settle (h : p.Agree levels q) {a b : α} (same : a = b) :
    (p.settle a).Agree levels (q.settle b) :=
  ⟨same, h.relay.drive⟩

/-! ## Acknowledging and polling -/

theorem output_eq (h : p.Agree levels q) : p.output = q.output :=
  congrArg Option.isSome h.primary.pending?_eq

theorem acknowledge (h : p.Agree levels q) : p.acknowledge.Agree levels q.acknowledge := by
  unfold Pair.acknowledge
  rw [← h.primary.pending?_eq, ← h.secondary.pending?_eq]
  cases p.primary.pending? with
  | none => exact h.settle (h.primary.vector_eq _)
  | some i =>
    dsimp only
    split
    · have cascaded := h.withPrimary (h.primary.acknowledge Line.cascade)
      cases p.secondary.pending? with
      | none => exact cascaded.settle (h.secondary.vector_eq _)
      | some j =>
        exact (cascaded.withSecondary (h.secondary.acknowledge j)).settle (h.secondary.vector_eq j)
    · exact (h.withPrimary (h.primary.acknowledge i)).settle (h.primary.vector_eq i)

theorem acknowledgeIfAsserted (h : p.Agree levels q) :
    p.acknowledgeIfAsserted.Agree levels q.acknowledgeIfAsserted := by
  unfold Pair.acknowledgeIfAsserted
  rw [← h.output_eq]
  split
  · exact h.acknowledge.map some
  · exact ⟨rfl, h⟩

theorem pollPrimary (h : p.Agree levels q) :
    p.pollPrimary.1 = q.pollPrimary.1 ∧ p.pollPrimary.2.Agree levels q.pollPrimary.2 := by
  unfold Pair.pollPrimary
  rw [← h.primary.pending?_eq]
  cases p.primary.pending? with
  | none => exact ⟨rfl, h⟩
  | some i =>
    refine ⟨rfl, h.withPrimary ?_⟩
    split
    · exact h.primary.retire i
    · exact (h.primary.retire i).refresh

theorem pollSecondary (h : p.Agree levels q) :
    p.pollSecondary.1 = q.pollSecondary.1 ∧ p.pollSecondary.2.Agree levels q.pollSecondary.2 := by
  unfold Pair.pollSecondary
  rw [← h.secondary.pending?_eq]
  cases p.secondary.pending? with
  | none => exact ⟨rfl, h⟩
  | some i =>
    have polled := h.withSecondary (h.secondary.retire i).refresh
    exact ⟨rfl, polled.withPrimary (h.primary.retire Line.cascade)⟩

theorem poll (h : p.Agree levels q) (position : Position) :
    (p.poll position).1 = (q.poll position).1 ∧
      (p.poll position).2.Agree levels (q.poll position).2 := by
  cases position with
  | primary => exact h.pollPrimary
  | secondary => exact h.pollSecondary

theorem readIntack (h : p.Agree levels q) : p.readIntack.Agree levels q.readIntack := by
  obtain ⟨line, polled⟩ := h.pollPrimary
  unfold Pair.readIntack
  dsimp only
  rw [← line]
  split
  · obtain ⟨line', polled'⟩ := polled.pollSecondary
    rw [← line']
    exact (polled'.modifyChip fun same => same.modify _).settle rfl
  · exact (polled.modifyChip fun same => same.modify _).settle rfl

/-! ## Ports -/

theorem readRegister (h : p.Agree levels q) (register : Register) :
    (p.readRegister register).Agree levels (q.readRegister register) := by
  cases register with
  | command position =>
    rw [Pair.readRegister, Pair.readRegister, readCommand, readCommand, ← (h.chip position).regs]
    split
    · obtain ⟨line, polled⟩ := h.poll position
      dsimp only
      rw [← line]
      exact (polled.modifyChip fun same => same.modify _).settle rfl
    · exact ⟨(h.chip position).status_eq, h⟩
  | data position => exact ⟨by simp only [Pair.readRegister, (h.chip position).regs], h⟩
  | elcr position => exact ⟨by simp only [Pair.readRegister, (h.chip position).regs], h⟩

theorem readPort (h : p.Agree levels q) (port : UInt16) :
    (p.readPort port).Agree levels (q.readPort port) := by
  unfold Pair.readPort
  rw [← h.config]
  split
  · exact ⟨rfl, h⟩
  · exact h.readRegister _

theorem writePort (h : p.Agree levels q) (port : UInt16) (value : UInt8) :
    (p.writePort port value).Agree levels (q.writePort port value) := by
  unfold Pair.writePort
  rw [← h.config]
  split
  · exact ⟨rfl, h⟩
  · rename_i register _
    cases register with
    | command position => exact (h.modifyChip fun same => same.writeCommand value).settle rfl
    | data position => exact (h.modifyChip fun same => same.writeData value).settle rfl
    | elcr position =>
      rw [writeRegister, writeRegister, ← h.config]
      exact (h.modifyChip fun same => same.writeElcr _ value).settle rfl

/-! ## The other operations -/

theorem setLine (h : p.Agree levels q) (n : UInt8) (level : Bool) :
    (p.setLine n level).Agree levels (q.setLine n level) := by
  unfold Pair.setLine
  split
  · rename_i line
    have counted : Agree levels
        { p with counters := p.counters.record ⟨n.toNat, line⟩ level }
        { q with counters := q.counters.record ⟨n.toNat, line⟩ level } :=
      ⟨h.config, h.primary, h.secondary, h.counting, h.level⟩
    exact (counted.modifyChip fun same => same.setLine _ level).settle rfl
  · exact ⟨rfl, h⟩

theorem reset (h : p.Agree levels q) (kind : ResetKind) :
    (p.reset kind).Agree levels (q.reset kind) := by
  cases kind with
  | device =>
    exact ((h.withPrimary h.primary.reset).withSecondary h.secondary.reset).settle rfl
  | cold =>
    exact ((h.withPrimary h.primary.coldReset).withSecondary h.secondary.coldReset).settle rfl

theorem setCounting (h : p.Agree levels q) (on : Bool) :
    (p.setCounting on).Agree levels (q.setCounting on) :=
  ⟨h.config, h.primary, h.secondary, rfl, h.level⟩

theorem withSaved (h : p.Agree levels q) (position : Position) (saved : Registers) :
    (p.withSaved position saved).Agree levels (q.withSaved position saved) := by
  unfold Pair.withSaved
  rw [← h.config]
  exact h.modifyChip fun same => same.modify _

theorem load (h : p.Agree levels q) (saved : Saved) :
    (p.load saved).Agree levels (q.load saved) := by
  have loaded := (h.withSaved .secondary saved.secondary).withSaved .primary saved.primary
  have counted := loaded.setCounting
    (saved.counting.getD ((p.withSaved .secondary saved.secondary).withSaved .primary
      saved.primary).counters.enabled)
  have refreshed := (counted.withSecondary counted.secondary.refresh.forwarded).withPrimary
    counted.primary.refresh
  rw [Pair.load, Pair.load, ← loaded.counting]
  exact refreshed.settle rfl

theorem restore (h : p.Agree levels q) (bytes : List UInt8) :
    (p.restore bytes).Agree levels (q.restore bytes) := by
  unfold Pair.restore
  cases Saved.ofBytes bytes with
  | error e => exact ⟨rfl, h⟩
  | ok saved => exact (h.load saved).map _

/-- Every operation answers the same on pairs that agree and leaves them in agreement. -/
theorem perform (h : p.Agree levels q) (op : Operation Wire) :
    (p.perform op).Agree levels (q.perform op) := by
  cases op with
  | setLine n level => exact (h.setLine n level).map fun _ => Answer.nothing
  | readPort port => exact (h.readPort port).map _
  | writePort port value => exact (h.writePort port value).map _
  | acknowledge => exact h.acknowledge.map _
  | acknowledgeIfAsserted => exact h.acknowledgeIfAsserted.map _
  | readIntack => exact h.readIntack.map _
  | reset kind => exact (h.reset kind).map fun _ => Answer.nothing
  | restore bytes => exact (h.restore bytes).map _
  | connect wire =>
    exact ⟨rfl, h.config, h.primary, h.secondary, h.counting, h.level⟩
  | setCounting on => exact ⟨rfl, h.setCounting on⟩
  | clearCounts => exact ⟨rfl, h.config, h.primary, h.secondary, h.counting, h.level⟩

theorem performAll (h : p.Agree levels q) (history : List (Operation Wire)) :
    (p.performAll history).Agree levels (q.performAll history) := by
  induction history generalizing p q with
  | nil => exact ⟨rfl, h⟩
  | cons op history ih =>
    obtain ⟨answer, pair⟩ := h.perform op
    obtain ⟨answers, rest⟩ := ih pair
    refine ⟨?_, rest⟩
    rw [Pair.performAll, Pair.performAll, answer, answers]

end Pair.Agree

end PicCascade
