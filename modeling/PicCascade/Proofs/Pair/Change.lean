import PicCascade.Pair.Operation
import PicCascade.Proofs.Pair.Settle

/-!
# What one operation changes

An operation changes the chips of a pair and then settles it. `p.Change op q` lists the changes:
`q` is the pair that `op` makes of `p` and leaves to be settled. Each constructor is one path
through an operation and carries the conditions under which the operation takes it.

Results:
* `perform_eq_settle`: an operation on a settled pair is one of these changes, settled.
* `config_perform`, `settled_perform`: no operation touches the wiring, and each leaves a settled
  pair.
-/

namespace PicCascade

/-- The registers with the trigger modes limited to the lines that can be level-triggered. -/
def Registers.limited (r : Registers) (writable : LineSet 8) : Registers :=
  { r with elcr := r.elcr ∩ writable }

/-- The registers once a poll has been answered: the next status read is an ordinary one. -/
def Registers.polled (r : Registers) : Registers := { r with poll := false }

/-- The registers with the lines in service selected for status reads. -/
def Registers.showingIsr (r : Registers) : Registers := { r with readIsr := true }

namespace Pair

variable {Wire : Type}

/-- A read of the port polls a chip. -/
def Polls (p : Pair Wire) (port : UInt16) : Prop :=
  ∃ position, p.config.decode? port = some (.command position) ∧
    (p.chip position).regs.poll = true

instance (p : Pair Wire) (port : UInt16) : Decidable (p.Polls port) :=
  match decoded : p.config.decode? port with
  | some (.command position) =>
    decidable_of_iff ((p.chip position).regs.poll = true)
      ⟨fun asked => ⟨position, decoded, asked⟩, fun ⟨_, decoded', asked⟩ => by
        cases decoded.symm.trans decoded'
        exact asked⟩
  | none | some (.data _) | some (.elcr _) =>
    isFalse fun ⟨_, decoded', _⟩ => nomatch decoded.symm.trans decoded'

/-- A pair that does not ask for service has nothing to offer. -/
theorem pending?_of_output {p : Pair Wire} (asks : p.output = false) :
    p.primary.pending? = none := by
  simpa [output] using asks

/-- The changes of an acknowledge cycle. -/
inductive AcknowledgeChange (p : Pair Wire) : Pair Wire → Prop
  | idle (offered : p.primary.pending? = none) : AcknowledgeChange p p
  | own {i : Line} (offered : p.primary.pending? = some i) (notCascade : i ≠ Line.cascade) :
      AcknowledgeChange p { p with primary := p.primary.acknowledge i }
  | spurious (offered : p.primary.pending? = some Line.cascade)
      (behind : p.secondary.pending? = none) :
      AcknowledgeChange p { p with primary := p.primary.acknowledge Line.cascade }
  | cascaded {j : Line} (offered : p.primary.pending? = some Line.cascade)
      (behind : p.secondary.pending? = some j) :
      AcknowledgeChange p { p with
        primary := p.primary.acknowledge Line.cascade
        secondary := p.secondary.acknowledge j }

/-- The changes of a poll of the primary that does not find the cascade line. -/
inductive PrimaryPoll (p : Pair Wire) : Pair Wire → Prop
  | idle (offered : p.primary.pending? = none) : PrimaryPoll p p
  | own {i : Line} (offered : p.primary.pending? = some i) (notCascade : i ≠ Line.cascade) :
      PrimaryPoll p { p with primary := (p.primary.retire i).refresh }

/-- The changes of a poll of the secondary. -/
inductive SecondaryPoll (p : Pair Wire) : Pair Wire → Prop
  | idle (offered : p.secondary.pending? = none) : SecondaryPoll p p
  | own {j : Line} (offered : p.secondary.pending? = some j) :
      SecondaryPoll p { p with
        primary := p.primary.retire Line.cascade
        secondary := (p.secondary.retire j).refresh }

/-- `p.Change op q`: before it settles, the operation `op` turns `p` into `q`. -/
inductive Change (p : Pair Wire) : Operation Wire → Pair Wire → Prop
  | line {n : UInt8} {level : Bool} (h : n.toNat < 16) :
      Change p (.setLine n level)
        (modifyChip { p with counters := p.counters.record ⟨n.toNat, h⟩ level }
          (Line.ofGlobal n).1 (·.setLine (Line.ofGlobal n).2 level))
  | noLine {n : UInt8} {level : Bool} (h : ¬ n.toNat < 16) : Change p (.setLine n level) p
  | read {port : UInt16} (quiet : ¬ p.Polls port) : Change p (.readPort port) p
  | pollPrimary {port : UInt16} {q : Pair Wire}
      (decoded : p.config.decode? port = some (.command .primary))
      (asked : p.primary.regs.poll = true) (poll : p.PrimaryPoll q) :
      Change p (.readPort port) { q with primary := q.primary.modify Registers.polled }
  | pollCascade {port : UInt16}
      (decoded : p.config.decode? port = some (.command .primary))
      (asked : p.primary.regs.poll = true) (offered : p.primary.pending? = some Line.cascade) :
      Change p (.readPort port)
        { p with primary := (p.primary.retire Line.cascade).modify Registers.polled }
  | pollSecondary {port : UInt16} {q : Pair Wire}
      (decoded : p.config.decode? port = some (.command .secondary))
      (asked : p.secondary.regs.poll = true) (poll : p.SecondaryPoll q) :
      Change p (.readPort port) { q with secondary := q.secondary.modify Registers.polled }
  | noWrite {port : UInt16} {value : UInt8} (decoded : p.config.decode? port = none) :
      Change p (.writePort port value) p
  | writeCommand {port : UInt16} {value : UInt8} {position : Position}
      (decoded : p.config.decode? port = some (.command position)) :
      Change p (.writePort port value) (p.modifyChip position (·.writeCommand value))
  | writeData {port : UInt16} {value : UInt8} {position : Position}
      (decoded : p.config.decode? port = some (.data position)) :
      Change p (.writePort port value) (p.modifyChip position (·.writeData value))
  | writeElcr {port : UInt16} {value : UInt8} {position : Position}
      (decoded : p.config.decode? port = some (.elcr position)) :
      Change p (.writePort port value)
        (p.modifyChip position (·.writeElcr (p.config.chip position).elcrMask value))
  | acknowledge {q : Pair Wire} (cycle : p.AcknowledgeChange q) : Change p .acknowledge q
  | asserted {q : Pair Wire} (asks : p.output = true) (cycle : p.AcknowledgeChange q) :
      Change p .acknowledgeIfAsserted q
  | notAsserted (asks : p.output = false) : Change p .acknowledgeIfAsserted p
  | intackPrimary {q : Pair Wire} (poll : p.PrimaryPoll q) :
      Change p .readIntack { q with primary := q.primary.modify Registers.showingIsr }
  | intackSecondary {q : Pair Wire} (offered : p.primary.pending? = some Line.cascade)
      (poll : SecondaryPoll { p with primary := p.primary.retire Line.cascade } q) :
      Change p .readIntack { q with primary := q.primary.modify Registers.showingIsr }
  | deviceReset :
      Change p (.reset .device)
        { p with primary := p.primary.reset, secondary := p.secondary.reset }
  | coldReset :
      Change p (.reset .cold)
        { p with primary := p.primary.coldReset, secondary := p.secondary.coldReset }
  | refused {bytes : List UInt8} {e : Snapshot.Error} (decoded : Saved.ofBytes bytes = .error e) :
      Change p (.restore bytes) p
  | restored {bytes : List UInt8} {saved : Saved} (decoded : Saved.ofBytes bytes = .ok saved) :
      Change p (.restore bytes) { p with
        primary :=
          (p.primary.modify fun _ => saved.primary.limited p.config.primary.elcrMask).refresh
        secondary := Chip.forwarded <| Chip.refresh <|
          p.secondary.modify fun _ => saved.secondary.limited p.config.secondary.elcrMask
        counters := { p.counters with enabled := saved.counting.getD p.counters.enabled } }
  | connect {wire : Option Wire} : Change p (.connect wire) { p with wire }
  | setCounting {on : Bool} : Change p (.setCounting on) (p.setCounting on)
  | clearCounts : Change p .clearCounts p.clearCounts

/-! ## The ways through an acknowledge cycle -/

variable {p : Pair Wire} {i j : Line}

theorem acknowledge_of_none (offered : p.primary.pending? = none) :
    p.acknowledge = p.settle (p.primary.vector Line.spurious) := by
  rw [acknowledge, offered]

/-- When nothing is offered, nothing happens. -/
theorem acknowledge_of_idle (settled : p.Settled) (offered : p.primary.pending? = none) :
    p.acknowledge = ⟨p.primary.vector Line.spurious, p, []⟩ := by
  rw [acknowledge_of_none offered]
  exact settle_of_settled settled _

theorem acknowledge_of_own (offered : p.primary.pending? = some i) (notCascade : i ≠ Line.cascade) :
    p.acknowledge =
      settle { p with primary := p.primary.acknowledge i } (p.primary.vector i) := by
  simp only [acknowledge, offered, if_neg notCascade]

theorem acknowledge_of_spurious (offered : p.primary.pending? = some Line.cascade)
    (behind : p.secondary.pending? = none) :
    p.acknowledge =
      settle { p with primary := p.primary.acknowledge Line.cascade }
        (p.secondary.vector Line.spurious) := by
  simp only [acknowledge, offered, behind, if_true]

theorem acknowledge_of_cascaded (offered : p.primary.pending? = some Line.cascade)
    (behind : p.secondary.pending? = some j) :
    p.acknowledge =
      settle
        { p with
          primary := p.primary.acknowledge Line.cascade
          secondary := p.secondary.acknowledge j }
        (p.secondary.vector j) := by
  simp only [acknowledge, offered, behind, if_true]

/-! ## Every operation is one of these changes, settled -/

theorem acknowledge_eq_settle :
    ∃ q, p.AcknowledgeChange q ∧ p.acknowledge.pair = (q.settle ()).pair := by
  cases offered : p.primary.pending? with
  | none => exact ⟨_, .idle offered, congrArg Outcome.pair (acknowledge_of_none offered)⟩
  | some i =>
    by_cases cascade : i = Line.cascade
    · subst cascade
      cases behind : p.secondary.pending? with
      | none =>
        exact ⟨_, .spurious offered behind,
          congrArg Outcome.pair (acknowledge_of_spurious offered behind)⟩
      | some j =>
        exact ⟨_, .cascaded offered behind,
          congrArg Outcome.pair (acknowledge_of_cascaded offered behind)⟩
    · exact ⟨_, .own offered cascade, congrArg Outcome.pair (acknowledge_of_own offered cascade)⟩

theorem pollSecondary_change : p.SecondaryPoll p.pollSecondary.2 := by
  unfold pollSecondary
  cases offered : p.secondary.pending? with
  | none => exact .idle offered
  | some j => exact .own offered

/-- A poll of the primary finds the cascade line or is one of the changes above. -/
theorem pollPrimary_cases :
    (p.primary.pending? = some Line.cascade ∧
      p.pollPrimary = (Line.cascade, { p with primary := p.primary.retire Line.cascade })) ∨
    (p.pollPrimary.1 ≠ Line.cascade ∧ p.PrimaryPoll p.pollPrimary.2) := by
  unfold pollPrimary
  cases offered : p.primary.pending? with
  | none =>
    have distinct : Line.spurious ≠ Line.cascade := by decide
    exact .inr ⟨distinct, .idle offered⟩
  | some i =>
    by_cases hi : i = Line.cascade
    · subst hi
      exact .inl ⟨rfl, by simp⟩
    · refine .inr ⟨hi, ?_⟩
      simp only [hi, if_false]
      exact .own offered hi

theorem readPort_of_polls {port : UInt16} {position : Position}
    (decoded : p.config.decode? port = some (.command position))
    (asked : (p.chip position).regs.poll = true) :
    (p.readPort port).pair =
      (settle ((p.poll position).2.modifyChip position (·.modify Registers.polled)) ()).pair := by
  simp only [readPort, decoded, readRegister, readCommand, asked, if_true]
  rfl

theorem readPort_of_not_polls {port : UInt16} (quiet : ¬ p.Polls port) :
    (p.readPort port).pair = p := by
  unfold readPort
  cases decoded : p.config.decode? port with
  | none => rfl
  | some register =>
    cases register with
    | command position =>
      have asked : ¬ (p.chip position).regs.poll = true := fun h => quiet ⟨position, decoded, h⟩
      simp only [readRegister, readCommand, asked]
      rfl
    | data position => rfl
    | elcr position => rfl

theorem writePort_of_command {port : UInt16} {value : UInt8} {position : Position}
    (decoded : p.config.decode? port = some (.command position)) :
    p.writePort port value =
      (p.modifyChip position (·.writeCommand value)).settle (Command.fault? position value) := by
  simp only [writePort, decoded, writeRegister]

/-- An operation on a settled pair is one of the listed changes, settled. -/
theorem perform_eq_settle (settled : p.Settled) (op : Operation Wire) :
    ∃ q, p.Change op q ∧ (p.perform op).pair = (q.settle ()).pair := by
  -- an operation that leaves nothing to settle may as well be settled
  have same : p = (p.settle ()).pair := by rw [settle_of_settled settled]
  cases op with
  | setLine n level =>
    by_cases h : n.toNat < 16
    · exact ⟨_, .line h, by simp [perform, Pair.setLine, h, Outcome.map, settle]⟩
    · exact ⟨p, .noLine h, by simpa [perform, Pair.setLine, h, Outcome.map] using same⟩
  | readPort port =>
    by_cases quiet : p.Polls port
    · obtain ⟨position, decoded, asked⟩ := quiet
      have polled := readPort_of_polls decoded asked
      cases position with
      | primary =>
        rcases p.pollPrimary_cases with ⟨offered, eq⟩ | ⟨-, poll⟩
        · refine ⟨_, .pollCascade decoded asked offered, polled.trans ?_⟩
          rw [poll, eq]
          rfl
        · exact ⟨_, .pollPrimary decoded asked poll, polled⟩
      | secondary => exact ⟨_, .pollSecondary decoded asked pollSecondary_change, polled⟩
    · exact ⟨p, .read quiet, (readPort_of_not_polls quiet).trans same⟩
  | writePort port value =>
    cases decoded : p.config.decode? port with
    | none =>
      refine ⟨p, .noWrite decoded, ?_⟩
      simpa only [perform, writePort, decoded, Outcome.map] using same
    | some register =>
      cases register with
      | command position =>
        refine ⟨_, .writeCommand decoded, ?_⟩
        rw [perform, writePort_of_command decoded]
        rfl
      | data position =>
        refine ⟨_, .writeData decoded, ?_⟩
        simp only [perform, writePort, decoded, writeRegister, Outcome.map, settle]
      | elcr position =>
        refine ⟨_, .writeElcr decoded, ?_⟩
        simp only [perform, writePort, decoded, writeRegister, Outcome.map, settle]
  | acknowledge =>
    obtain ⟨q, cycle, eq⟩ := acknowledge_eq_settle (p := p)
    exact ⟨q, .acknowledge cycle, eq⟩
  | acknowledgeIfAsserted =>
    cases asks : p.output with
    | false =>
      refine ⟨p, .notAsserted asks, ?_⟩
      simpa [perform, Pair.acknowledgeIfAsserted, asks, Outcome.map] using same
    | true =>
      obtain ⟨q, cycle, eq⟩ := acknowledge_eq_settle (p := p)
      refine ⟨q, .asserted asks cycle, ?_⟩
      simpa [perform, Pair.acknowledgeIfAsserted, asks, Outcome.map] using eq
  | readIntack =>
    rcases p.pollPrimary_cases with ⟨offered, eq⟩ | ⟨notCascade, poll⟩
    · refine ⟨_, .intackSecondary offered pollSecondary_change, ?_⟩
      simp only [perform, Pair.readIntack, eq, Outcome.map, if_true]
      rfl
    · refine ⟨_, .intackPrimary poll, ?_⟩
      simp only [perform, Pair.readIntack, notCascade, Outcome.map, if_false]
      rfl
  | reset kind =>
    cases kind with
    | device => exact ⟨_, .deviceReset, rfl⟩
    | cold => exact ⟨_, .coldReset, rfl⟩
  | restore bytes =>
    cases decoded : Saved.ofBytes bytes with
    | error e =>
      refine ⟨p, .refused decoded, ?_⟩
      simpa only [perform, Pair.restore, decoded, Outcome.map] using same
    | ok saved =>
      refine ⟨_, .restored decoded, ?_⟩
      simp only [perform, Pair.restore, decoded, Outcome.map, load, settle]
      rfl
  | connect wire =>
    have idle : Settled { p with wire } := ⟨settled.primary, settled.secondary⟩
    exact ⟨_, .connect, by rw [settle_of_settled idle]; rfl⟩
  | setCounting on =>
    have idle : (p.setCounting on).Settled := ⟨settled.primary, settled.secondary⟩
    exact ⟨_, .setCounting, by rw [settle_of_settled idle]; rfl⟩
  | clearCounts =>
    have idle : p.clearCounts.Settled := ⟨settled.primary, settled.secondary⟩
    exact ⟨_, .clearCounts, by rw [settle_of_settled idle]; rfl⟩

/-! ## What no operation changes -/

@[simp]
theorem config_modifyChip (p : Pair Wire) (position : Position)
    (f : Chip position → Chip position) : (p.modifyChip position f).config = p.config := by
  cases position <;> rfl

@[simp]
theorem chip_modifyChip_self (p : Pair Wire) (position : Position)
    (f : Chip position → Chip position) :
    (p.modifyChip position f).chip position = f (p.chip position) := by
  cases position <;> rfl

theorem chip_modifyChip_of_ne (p : Pair Wire) {position other : Position} (ne : position ≠ other)
    (f : Chip other → Chip other) : (p.modifyChip other f).chip position = p.chip position := by
  cases position <;> cases other <;> first | rfl | exact absurd rfl ne

/-- A property of the registers of one chip survives a change of a chip that keeps it there. -/
theorem of_modifyChip {P : Registers → Prop} {position other : Position}
    {f : Chip other → Chip other} (before : P (p.chip position).regs)
    (kept : position = other → P (p.chip other).regs → P (f (p.chip other)).regs) :
    P ((p.modifyChip other f).chip position).regs := by
  by_cases same : position = other
  · subst same
    rw [chip_modifyChip_self]
    exact kept rfl before
  · rw [chip_modifyChip_of_ne p same]
    exact before

theorem iff_modifyChip {P : Registers → Prop} {position other : Position}
    {f : Chip other → Chip other}
    (kept : position = other → (P (f (p.chip other)).regs ↔ P (p.chip other).regs)) :
    P ((p.modifyChip other f).chip position).regs ↔ P (p.chip position).regs :=
  of_modifyChip (P := fun r => P r ↔ P (p.chip position).regs) Iff.rfl
    fun same before => (kept same).trans before

theorem AcknowledgeChange.config_eq {q : Pair Wire} (h : p.AcknowledgeChange q) :
    q.config = p.config := by
  cases h <;> rfl

theorem PrimaryPoll.config_eq {q : Pair Wire} (h : p.PrimaryPoll q) : q.config = p.config := by
  cases h <;> rfl

theorem SecondaryPoll.config_eq {q : Pair Wire} (h : p.SecondaryPoll q) :
    q.config = p.config := by
  cases h <;> rfl

/-- Of the registers of a chip, an acknowledge cycle touches only those that arbitrate. -/
theorem AcknowledgeChange.regs_chip {q : Pair Wire} (h : p.AcknowledgeChange q)
    (position : Position) :
    ∃ irr isr top, (q.chip position).regs = { (p.chip position).regs with irr, isr, top } := by
  cases h <;> cases position <;> exact ⟨_, _, _, rfl⟩

/-- A poll touches only requests and services. -/
theorem PrimaryPoll.regs_chip {q : Pair Wire} (h : p.PrimaryPoll q) (position : Position) :
    ∃ irr isr, (q.chip position).regs = { (p.chip position).regs with irr, isr } := by
  cases h <;> cases position <;> exact ⟨_, _, rfl⟩

theorem SecondaryPoll.regs_chip {q : Pair Wire} (h : p.SecondaryPoll q) (position : Position) :
    ∃ irr isr, (q.chip position).regs = { (p.chip position).regs with irr, isr } := by
  cases h <;> cases position <;> exact ⟨_, _, rfl⟩

theorem Change.config_eq {op : Operation Wire} {q : Pair Wire} (h : p.Change op q) :
    q.config = p.config := by
  cases h with
  | line | writeCommand | writeData | writeElcr => exact config_modifyChip ..
  | acknowledge cycle | asserted _ cycle => exact cycle.config_eq
  | pollPrimary _ _ poll | intackPrimary poll => exact poll.config_eq
  | pollSecondary _ _ poll | intackSecondary _ poll => exact poll.config_eq
  | _ => rfl

@[simp]
theorem level_modifyChip (p : Pair Wire) (position : Position)
    (f : Chip position → Chip position) : (p.modifyChip position f).level = p.level := by
  cases position <;> rfl

/-- Only settling drives the wire. -/
theorem Change.level_eq {op : Operation Wire} {q : Pair Wire} (h : p.Change op q) :
    q.level = p.level := by
  cases h with
  | line | writeCommand | writeData | writeElcr => exact level_modifyChip ..
  | acknowledge cycle | asserted _ cycle => cases cycle <;> rfl
  | pollPrimary _ _ poll | intackPrimary poll => cases poll <;> rfl
  | pollSecondary _ _ poll | intackSecondary _ poll => cases poll <;> rfl
  | _ => rfl

theorem config_perform (settled : p.Settled) (op : Operation Wire) :
    (p.perform op).pair.config = p.config := by
  obtain ⟨q, change, eq⟩ := perform_eq_settle settled op
  rw [eq, config_settle, change.config_eq]

theorem settled_perform (settled : p.Settled) (op : Operation Wire) :
    (p.perform op).pair.Settled := by
  obtain ⟨q, -, eq⟩ := perform_eq_settle settled op
  rw [eq]
  exact settled_settle q ()

end Pair

end PicCascade
