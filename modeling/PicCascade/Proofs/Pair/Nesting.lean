import PicCascade.Proofs.Chip.Nesting
import PicCascade.Proofs.Pair.History

/-!
# Nested service on a pair

What the operations on a pair do to the stack of the lines that one of the chips has in service. A
chip of the pair takes a line into service when the processor acknowledges it; the secondary only if
the primary offers the cascade line at that moment. Whatever is written to the other chip makes no
difference.

Results:
* `Change.nested`: what one operation does to the stack.
* `isr_is_stack`: in fully nested mode the lines in service are a stack, and the end of a service
  takes off the line that was acknowledged last.
-/

namespace PicCascade.Pair

variable {Wire : Type} {p q : Pair Wire} {op : Operation Wire} {position : Position}
  {stack : List Line}

/-! ## Pushing and popping -/

/-- The line of a chip that an operation acknowledges. -/
def acknowledged? (position : Position) (p : Pair Wire) : Operation Wire → Option Line
  | .acknowledge | .acknowledgeIfAsserted =>
    match position with
    | .primary => p.primary.pending?
    | .secondary => if p.primary.pending? = some Line.cascade then p.secondary.pending? else none
  | _ => none

/-- The operation tells a chip to end the service with the highest priority, without rotation. -/
def EndsService (position : Position) (p : Pair Wire) : Operation Wire → Prop
  | .writePort port value =>
    p.config.decode? port = some (.command position) ∧ Command.decode value = .endHighest false
  | _ => False

instance (position : Position) (p : Pair Wire) (op : Operation Wire) :
    Decidable (EndsService position p op) :=
  match op with
  | .writePort .. => inferInstanceAs (Decidable (_ ∧ _))
  | .setLine .. | .readPort _ | .acknowledge | .acknowledgeIfAsserted | .readIntack | .reset _
  | .restore _ | .connect _ | .setCounting _ | .clearCounts => isFalse id

/-- The acknowledged line is pushed onto the stack, and the end of a service takes the top off. -/
def stackStep (position : Position) (p : Pair Wire) (stack : List Line) (op : Operation Wire) :
    List Line :=
  if EndsService position p op then stack.tail
  else (acknowledged? position p op).toList ++ stack

/-- The stack after a history. -/
def stackAlong (position : Position) (p : Pair Wire) (stack : List Line) :
    List (Operation Wire) → List Line
  | [] => stack
  | op :: history =>
    stackAlong position (p.perform op).pair (stackStep position p stack op) history

/-- The operation does not disturb the nesting on a chip: it neither polls nor resets, and the only
command that it gives to the chip is to end the service with the highest priority. The masks, the
trigger modes and the other chip may be written at will. -/
def NestingStep (position : Position) (p : Pair Wire) : Operation Wire → Prop
  | .writePort port value =>
    p.config.decode? port = some (.command position) → Command.decode value = .endHighest false
  | .readPort port => ¬ p.Polls port
  | .readIntack | .reset _ | .restore _ => False
  | .setLine .. | .acknowledge | .acknowledgeIfAsserted | .connect _ | .setCounting _
  | .clearCounts => True

instance (position : Position) (p : Pair Wire) (op : Operation Wire) :
    Decidable (NestingStep position p op) :=
  match op with
  | .writePort .. => inferInstanceAs (Decidable (_ → _))
  | .readPort port => inferInstanceAs (Decidable (¬ p.Polls port))
  | .readIntack | .reset _ | .restore _ => isFalse id
  | .setLine .. | .acknowledge | .acknowledgeIfAsserted | .connect _ | .setCounting _
  | .clearCounts => isTrue trivial

/-! ## One operation -/

/-- A write that is not a command to the chip neither pushes nor pops. -/
theorem stackStep_writePort {port : UInt16} {value : UInt8}
    (other : p.config.decode? port ≠ some (.command position)) :
    stackStep position p stack (.writePort port value) = stack :=
  if_neg fun ends => other ends.1

/-- An acknowledge cycle pushes the line that it acknowledges. -/
theorem AcknowledgeChange.nested (h : p.AcknowledgeChange q)
    (nested : (p.chip position).regs.Nested stack) :
    (q.chip position).regs.Nested
      ((acknowledged? position p (.acknowledge : Operation Wire)).toList ++ stack) := by
  cases position with
  | primary =>
    unfold acknowledged?
    cases h with
    | idle offered =>
      rw [offered]
      exact nested
    | own offered =>
      rw [offered]
      exact Chip.nested_acknowledge nested offered
    | spurious offered | cascaded offered =>
      rw [offered]
      exact Chip.nested_acknowledge nested offered
  | secondary =>
    unfold acknowledged?
    cases h with
    | idle offered =>
      simp only [offered]
      exact nested
    | own offered notCascade =>
      simp only [offered, Option.some.injEq, notCascade, if_false]
      exact nested
    | spurious offered behind =>
      simp only [offered, behind, if_true]
      exact nested
    | cascaded offered behind =>
      simp only [offered, behind, if_true]
      exact Chip.nested_acknowledge nested behind

/-- Before it settles, an operation that does not disturb the nesting has pushed and popped what it
should. -/
theorem Change.nested (h : p.Change op q) (allowed : NestingStep position p op)
    (nested : (p.chip position).regs.Nested stack) :
    (q.chip position).regs.Nested (stackStep position p stack op) := by
  cases h with
  | line => exact of_modifyChip (P := (·.Nested stack)) nested fun _ h => Chip.nested_setLine h ..
  | noWrite decoded =>
    rw [stackStep_writePort (by simp [decoded])]
    exact nested
  | @writeCommand port value other decoded =>
    by_cases same : other = position
    · subst same
      have ends := allowed decoded
      have popped : stackStep other p stack (.writePort port value) = stack.tail :=
        if_pos ⟨decoded, ends⟩
      rw [popped, chip_modifyChip_self, Chip.writeCommand, ends]
      exact Chip.nested_endHighest nested
    · rw [stackStep_writePort (by simp [decoded, same]), chip_modifyChip_of_ne p (Ne.symm same)]
      exact nested
  | writeData decoded =>
    rw [stackStep_writePort (by simp [decoded])]
    exact of_modifyChip (P := (·.Nested stack)) nested fun _ h => Chip.nested_writeData h _
  | writeElcr decoded =>
    rw [stackStep_writePort (by simp [decoded])]
    exact of_modifyChip (P := (·.Nested stack)) nested fun _ h => Chip.nested_writeElcr h _ _
  | acknowledge cycle | asserted _ cycle => exact cycle.nested nested
  | notAsserted asks =>
    have offered := pending?_of_output asks
    cases position with
    | primary => simpa [stackStep, EndsService, acknowledged?, offered] using nested
    | secondary => simpa [stackStep, EndsService, acknowledged?, offered] using nested
  | pollPrimary decoded asked | pollCascade decoded asked | pollSecondary decoded asked =>
    exact absurd ⟨_, decoded, asked⟩ allowed
  | intackPrimary | intackSecondary | deviceReset | coldReset | refused | restored =>
    exact allowed.elim
  | noLine | read => exact nested
  | connect | setCounting | clearCounts =>
    cases position with
    | primary => exact nested
    | secondary => exact nested

theorem nested_perform (settled : p.Settled) (allowed : NestingStep position p op)
    (nested : (p.chip position).regs.Nested stack) :
    ((p.perform op).pair.chip position).regs.Nested (stackStep position p stack op) := by
  obtain ⟨q, change, eq⟩ := perform_eq_settle settled op
  obtain ⟨irr, lastHigh, regs⟩ := regs_chip_settle q () position
  rw [eq, regs]
  exact (change.nested allowed nested).withInputs

/-- The end of a service takes the top of the stack out of service. -/
theorem isr_endService (settled : p.Settled) (nested : (p.chip position).regs.Nested stack)
    {port : UInt16} {value : UInt8} (ends : EndsService position p (.writePort port value)) :
    ((p.perform (.writePort port value)).pair.chip position).regs.isr =
      stack.head?.elim (p.chip position).regs.isr ((p.chip position).regs.isr.erase ·) := by
  obtain ⟨q, change, eq⟩ := perform_eq_settle settled (.writePort port value)
  obtain ⟨irr, lastHigh, regs⟩ := regs_chip_settle q () position
  obtain ⟨decoded, command⟩ := ends
  rw [eq, regs]
  cases change with
  | writeCommand decoded' =>
    cases decoded.symm.trans decoded'
    rw [chip_modifyChip_self, Chip.writeCommand, command, Chip.regs_endHighest nested]
    cases stack with
    | nil => rfl
    | cons i rest => rfl
  | noWrite decoded' | writeData decoded' | writeElcr decoded' =>
    cases decoded.symm.trans decoded'

/-! ## Whole histories -/

theorem nested_performAll (settled : p.Settled) (nested : (p.chip position).regs.Nested stack)
    {history : List (Operation Wire)} (along : p.Along (NestingStep position) history) :
    ((p.performAll history).pair.chip position).regs.Nested
      (stackAlong position p stack history) := by
  induction history generalizing p stack with
  | nil => exact nested
  | cons op history ih =>
    obtain ⟨allowed, others⟩ := along
    exact ih (settled_perform settled op) (nested_perform settled allowed nested) others

/-- In fully nested mode the lines that a chip has in service form a stack. Start from a reachable
pair in which the chip is initialised, has nothing in service, and uses neither special mask mode nor
special fully nested mode nor automatic end of interrupt; any line may have the highest priority.
Push each line that is acknowledged on the chip, and pop at each end of service. Then after every
step the stack has no duplicates, its members are the lines in service, and their ranks rise from
the top. So the next end of service retires the line on top, which was acknowledged last. -/
theorem isr_is_stack {config : Config} (reachable : Reachable config p)
    (idle : (p.chip position).regs.isr = ∅) (ready : (p.chip position).regs.stage = .ready)
    (ordinaryMask : (p.chip position).regs.specialMask = false)
    (ordinaryNesting : (p.chip position).regs.specialFullyNested = false)
    (manual : (p.chip position).regs.autoEoi = false) {history : List (Operation Wire)}
    (along : p.Along (NestingStep position) history) :
    ∀ steps, steps <+: history →
      let now := (p.performAll steps).pair
      let regs := (now.chip position).regs
      let stack := stackAlong position p [] steps
      stack.Nodup ∧ (∀ i, i ∈ stack ↔ i ∈ regs.isr) ∧
        (stack.Pairwise fun i j => (Line.rank regs.top i).val < (Line.rank regs.top j).val) ∧
        ∀ port value, EndsService position now (.writePort port value) →
          ((now.perform (.writePort port value)).pair.chip position).regs.isr =
            stack.head?.elim regs.isr (regs.isr.erase ·) := by
  intro steps within now regs stack
  have settled := reachable.sound.settled
  have start := Registers.nested_nil ready ordinaryMask ordinaryNesting manual idle
  have nested : regs.Nested stack := nested_performAll settled start (along.of_prefix within)
  refine ⟨nested.nodup, nested.mem_iff, nested.sorted, ?_⟩
  intro port value ends
  exact isr_endService (settled_performAll settled steps) nested ends

/-- With line 2 first, line 4 interrupts line 6 and is interrupted by line 11 of the secondary. Once
that service has ended, line 3 interrupts line 4. -/
def threeLevels : List (Operation Unit) :=
  [.setLine 6 true, .acknowledge, .setLine 4 true, .writePort 0x21 0x20, .acknowledge,
    .setLine 5 true, .setLine 11 true, .acknowledge, .writePort 0x20 0x20, .writePort 0xA0 0x20,
    .setLine 3 true, .acknowledge]

theorem isr_is_stack_threeLevels :
    let p : Pair Unit := ((new {}).performAll [.writePort 0x20 0xC1]).pair
    let now := (p.performAll threeLevels).pair
    p.Along (NestingStep .primary) threeLevels ∧
      stackAlong .primary p [] threeLevels = [3, 4, 6] ∧
      (∀ i, i ∈ stackAlong .primary p [] threeLevels ↔ i ∈ now.primary.regs.isr) ∧
      (now.perform (.writePort 0x20 0x20)).pair.primary.regs.isr = now.primary.regs.isr.erase 3 := by
  intro p now
  have along : p.Along (NestingStep .primary) threeLevels := by decide +kernel
  have stack : stackAlong .primary p [] threeLevels = [3, 4, 6] := by decide +kernel
  have reachable : Reachable {} p := ⟨[.writePort 0x20 0xC1], rfl⟩
  have idle : (p.chip .primary).regs.isr = ∅ := rfl
  obtain ⟨-, mem_iff, -, ends⟩ :=
    isr_is_stack reachable idle rfl rfl rfl rfl along threeLevels (List.prefix_refl _)
  have retired := ends 0x20 0x20 (by decide +kernel)
  rw [stack] at retired
  exact ⟨along, stack, mem_iff, retired⟩

end PicCascade.Pair
