import PicCascade.Proofs.Pair.Poll

/-!
# Faults are carried out

The one fault is an ICW1 that asks for level-triggered operation. It is reported, but not refused:
the chip begins its initialisation, and what that does to its output reaches the other chip and the
wire all the same. A platform that carries on after the fault finds the pair as if the guest had
cleared the bit.

Results:
* `Command.fault?_eq_some_iff`, `answer_writePort_eq_some_iff`: which writes are faults.
* `Chip.writeCommand_clearLevel`: the bit makes no difference to the chip.
* `writePort_clearLevel`: nor to the pair.
* `initialized_writePort`: what ICW1 does to a settled pair.
* `fault_carried_out`: faults are told exactly, and carried out, in every reachable pair.
-/

namespace PicCascade

/-! ## ICW1 with and without the bit -/

namespace Command

variable {value : UInt8}

/-- The byte with bit 3 cleared. In ICW1 the bit asks for level-triggered operation. -/
def clearLevel (value : UInt8) : UInt8 := value &&& 0xF7

theorem bit_clearLevel (value : UInt8) (i : Nat) :
    bit (clearLevel value) i = (bit value i && bit 0xF7 i) := by
  simp [bit, clearLevel]

theorem decode_clearLevel (icw1 : bit value 4 = true) :
    decode (clearLevel value) = .icw1 false (bit value 1) (bit value 0) := by
  have icw1' : bit (clearLevel value) 4 = true := by
    rw [bit_clearLevel, icw1]
    rfl
  have level : bit 0xF7 3 = false := rfl
  have single : bit 0xF7 1 = true := rfl
  have expectIcw4 : bit 0xF7 0 = true := rfl
  rw [decode_icw1 icw1']
  simp only [bit_clearLevel, level, single, expectIcw4, Bool.and_false, Bool.and_true]

theorem fault?_eq_some_iff {position : Position} {fault : Fault} :
    fault? position value = some fault ↔
      bit value 4 = true ∧ bit value 3 = true ∧ fault = .levelTriggeredInit position value := by
  by_cases icw1 : bit value 4 = true
  · rw [fault?, decode_icw1 icw1]
    cases bit value 3 with
    | true => simp [icw1, eq_comm]
    | false => simp
  · have harmless : fault? position value = none := by
      have other : ¬ (decode value).Initializes := fun h => icw1 (initializes_decode_iff.mp h)
      rw [fault?]
      cases decoded : decode value with
      | icw1 => exact absurd (decoded ▸ trivial) other
      | _ => rfl
    rw [harmless]
    exact iff_of_false (Option.some_ne_none fault).symm fun faulty => icw1 faulty.1

theorem fault?_clearLevel (icw1 : bit value 4 = true) (position : Position) :
    fault? position (clearLevel value) = none := by
  rw [fault?, decode_clearLevel icw1]

end Command

namespace Chip

variable {position : Position} {value : UInt8}

theorem writeCommand_clearLevel (c : Chip position) (icw1 : Command.bit value 4 = true) :
    c.writeCommand (Command.clearLevel value) = c.writeCommand value := by
  rw [writeCommand, writeCommand, Command.decode_clearLevel icw1, Command.decode_icw1 icw1]
  rfl

theorem recomputed_writeCommand_of_icw1 (c : Chip position) (icw1 : Command.bit value 4 = true) :
    (c.writeCommand value).Recomputed := by
  apply recomputed_execute
  rw [Command.decode_icw1 icw1]
  rfl

/-- An initialisation lowers the output. -/
theorem output_writeCommand_of_icw1 (c : Chip position) (icw1 : Command.bit value 4 = true) :
    (c.writeCommand value).output = false := by
  have quiet : (c.writeCommand value).pending? = none := by
    rw [pending?, regs_writeCommand_of_icw1 c icw1]
    exact Registers.pending?_eq_none_of_irr rfl
  rw [(c.recomputed_writeCommand_of_icw1 icw1).current, quiet]
  rfl

end Chip

namespace Pair

variable {Wire : Type} {p : Pair Wire} {port : UInt16} {value : UInt8} {position : Position}

/-! ## Writes that are faults -/

theorem answer_writePort_eq_some_iff {fault : Fault} :
    (p.writePort port value).answer = some fault ↔
      ∃ position, p.config.decode? port = some (.command position) ∧
        Command.fault? position value = some fault := by
  cases decoded : p.config.decode? port with
  | none => simp [writePort, decoded]
  | some register =>
    cases register with
    | command position =>
      rw [writePort_of_command decoded]
      simp [settle]
    | data position | elcr position => simp [writePort, decoded, writeRegister, settle]

/-- Without the bit the write does the same and is no fault. -/
theorem writePort_clearLevel (decoded : p.config.decode? port = some (.command position))
    (icw1 : Command.bit value 4 = true) :
    p.writePort port (Command.clearLevel value) = { p.writePort port value with answer := none } := by
  rw [writePort_of_command decoded, writePort_of_command decoded, Command.fault?_clearLevel icw1]
  simp only [Chip.writeCommand_clearLevel _ icw1]
  rfl

/-! ## What an initialisation does -/

/-- The pair `q` is what ICW1 to one of the chips makes of `p`. -/
structure Initialized (position : Position) (value : UInt8) (p q : Pair Wire) : Prop where
  /-- The chip keeps its trigger modes only and awaits ICW2. -/
  regs : (q.chip position).regs =
    { elcr := (p.chip position).regs.elcr
      stage := .awaitingIcw2
      single := Command.bit value 1
      expectIcw4 := Command.bit value 0 }
  output : (q.chip position).output = false
  /-- The secondary does not notice an initialisation of the primary. -/
  secondary : position = .primary → q.secondary = p.secondary
  /-- The primary sees the cascade line fall when the secondary is initialised. -/
  primary : position = .secondary → q.primary.regs = (p.primary.setLine Line.cascade false).regs
  settled : q.Settled
  level : q.level = q.output

theorem initialized_writePort (settled : p.Settled)
    (decoded : p.config.decode? port = some (.command position))
    (icw1 : Command.bit value 4 = true) :
    p.Initialized position value (p.writePort port value).pair := by
  rw [writePort_of_command decoded]
  cases position with
  | primary =>
    have recomputed := p.primary.recomputed_writeCommand_of_icw1 icw1
    have quiet : (p.primary.writeCommand value).pending?.isSome = false :=
      recomputed.current.symm.trans (p.primary.output_writeCommand_of_icw1 icw1)
    rw [modifyChip, pair_settle_primary _ settled recomputed]
    exact {
      regs := p.primary.regs_writeCommand_of_icw1 icw1
      output := quiet
      secondary := fun _ => rfl
      primary := fun other => absurd other (by decide)
      settled := ⟨rfl, settled.secondary⟩
      level := rfl }
  | secondary =>
    let q : Pair Wire := { p with secondary := p.secondary.writeCommand value }
    have recomputed : q.secondary.Recomputed := p.secondary.recomputed_writeCommand_of_icw1 icw1
    have output : q.secondary.output = false := p.secondary.output_writeCommand_of_icw1 icw1
    show p.Initialized .secondary value (q.settle (Command.fault? .secondary value)).pair
    exact {
      regs := (regs_secondary_settle ..).trans (p.secondary.regs_writeCommand_of_icw1 icw1)
      output := by rw [chip, secondary_settle, Chip.output_forwarded, output]
      secondary := fun other => absurd other (by decide)
      primary := fun _ => by rw [regs_primary_settle, if_pos recomputed.marked, output]
      settled := settled_settle ..
      level := level_settle_of_relayed _ recomputed.marked }

/-- In every reachable pair, a write is a fault iff it is to a command port and has bits 4 and 3 set,
and the fault names the chip and the byte. It leaves the same pair and drives the same levels as the
same write with bit 3 cleared, which is no fault: the chip has been initialised and the pair has
settled. -/
theorem fault_carried_out {config : Config} (reachable : Reachable config p) (port : UInt16)
    (value : UInt8) :
    let o := p.writePort port value
    let o' := p.writePort port (Command.clearLevel value)
    (∀ fault, o.answer = some fault ↔
      ∃ position, config.decode? port = some (.command position) ∧ Command.bit value 4 = true ∧
        Command.bit value 3 = true ∧ fault = .levelTriggeredInit position value) ∧
    (o.answer ≠ none →
      o'.answer = none ∧ o.pair = o'.pair ∧ o.driven = o'.driven ∧
        ∃ position, config.decode? port = some (.command position) ∧
          p.Initialized position value o.pair) := by
  intro o o'
  have settled : p.Settled := reachable.sound.settled
  have wiring : p.config = config := reachable.sound.config_eq
  have faults (fault : Fault) : o.answer = some fault ↔
      ∃ position, config.decode? port = some (.command position) ∧ Command.bit value 4 = true ∧
        Command.bit value 3 = true ∧ fault = .levelTriggeredInit position value := by
    simp only [o, answer_writePort_eq_some_iff, Command.fault?_eq_some_iff, wiring]
  refine ⟨faults, fun faulty => ?_⟩
  obtain ⟨fault, answer⟩ := Option.ne_none_iff_exists'.mp faulty
  obtain ⟨position, decoded, icw1, -, -⟩ := (faults fault).mp answer
  have decoded' : p.config.decode? port = some (.command position) := wiring ▸ decoded
  have cleared : o' = { o with answer := none } := writePort_clearLevel decoded' icw1
  rw [cleared]
  exact ⟨rfl, rfl, rfl, position, decoded, initialized_writePort settled decoded' icw1⟩

/-- Line 1 requests service on a connected wire. -/
def connectedRequest : Pair Unit :=
  ((new {}).performAll [.connect (some ()), .setLine 1 true]).pair

/-- The guest asks the primary for level-triggered operation. The fault is reported and the wire
falls, as without the bit. -/
theorem fault_carried_out_connectedRequest :
    Reachable {} connectedRequest ∧ connectedRequest.level = true ∧
      (connectedRequest.writePort 0x20 0x19).answer = some (.levelTriggeredInit .primary 0x19) ∧
      (connectedRequest.writePort 0x20 0x19).driven = [((), false)] ∧
      (connectedRequest.writePort 0x20 0x11).answer = none ∧
      (connectedRequest.writePort 0x20 0x19).pair = (connectedRequest.writePort 0x20 0x11).pair ∧
      (connectedRequest.writePort 0x20 0x11).driven = [((), false)] := by
  have reachable : Reachable {} connectedRequest := ⟨_, rfl⟩
  obtain ⟨faults, carried⟩ := fault_carried_out reachable 0x20 0x19
  have fault := (faults (.levelTriggeredInit .primary 0x19)).mpr ⟨.primary, rfl, rfl, rfl, rfl⟩
  obtain ⟨accepted, same, driven, -⟩ := carried (by rw [fault]; exact Option.some_ne_none _)
  have falls : (connectedRequest.writePort 0x20 0x19).driven = [((), false)] := by decide +kernel
  exact ⟨reachable, by decide +kernel, fault, falls, accepted, same, driven.symm.trans falls⟩

end Pair

end PicCascade
