import PicCascade.Proofs.Pair.History

/-!
# The level of the wire

The wire is meant to be high exactly while the primary offers a line. It is driven when the output
of the primary is recomputed, and two writes to the primary change what it offers without
recomputing its output: OCW3 with the special mask bits, and ICW4. If such a write makes the primary
start or stop offering a line, the wire keeps its level until some later operation recomputes the
output.

Results:
* `level_eq_output_iff`: in a run without polls, the wire has the right level after every step iff
  no such write changes whether the primary offers a line.
* `level_ne_output`: a run in which the wire stays low although the primary offers a line.
-/

namespace PicCascade.Pair

variable {Wire : Type} {p : Pair Wire}

/-- The operation does not poll. -/
def WithoutPoll (p : Pair Wire) : Operation Wire → Prop
  | .readPort port => ¬ p.Polls port
  | .readIntack => False
  | _ => True

instance (p : Pair Wire) (op : Operation Wire) : Decidable (p.WithoutPoll op) :=
  match op with
  | .readPort port => inferInstanceAs (Decidable (¬ p.Polls port))
  | .readIntack => isFalse id
  | .setLine .. | .writePort .. | .acknowledge | .acknowledgeIfAsserted | .reset _ | .restore _
  | .connect _ | .setCounting _ | .clearCounts => isTrue trivial

/-- The operation writes OCW3 with the special mask bits, or ICW4, to the primary. -/
def SwitchesMode (p : Pair Wire) : Operation Wire → Prop
  | .writePort port value =>
    (p.config.decode? port = some (.command .primary) ∧
      (Command.decode value).SetsSpecialMask) ∨
    (p.config.decode? port = some (.data .primary) ∧ p.primary.regs.stage = .awaitingIcw4)
  | _ => False

instance (p : Pair Wire) (op : Operation Wire) : Decidable (p.SwitchesMode op) :=
  match op with
  | .writePort .. => inferInstanceAs (Decidable ((_ ∧ _) ∨ (_ ∧ _)))
  | .setLine .. | .readPort _ | .acknowledge | .acknowledgeIfAsserted | .readIntack | .reset _
  | .restore _ | .connect _ | .setCounting _ | .clearCounts => isFalse id

/-! ## One step -/

theorem announced_primary_modifyChip {q : Pair Wire} {position : Position}
    {f : Chip position → Chip position} (same : p.primary = q.primary)
    (announced : ∀ c : Chip position, c.Announced (f c)) :
    p.primary.Announced (q.modifyChip position f).primary := by
  rw [same]
  cases position with
  | primary => exact announced _
  | secondary => exact Chip.announced_refl _

theorem AcknowledgeChange.announced_primary {q : Pair Wire} (h : p.AcknowledgeChange q) :
    p.primary.Announced q.primary := by
  cases h with
  | idle => exact Chip.announced_refl _
  | own | spurious | cascaded => exact Chip.announced_acknowledge ..

/-- Without polls and mode switches, every change of the primary is announced. -/
theorem Change.announced_primary {op : Operation Wire} {q : Pair Wire} (h : p.Change op q)
    (quiet : p.WithoutPoll op) (same : ¬ p.SwitchesMode op) :
    p.primary.Announced q.primary := by
  cases h with
  | line h => exact announced_primary_modifyChip rfl fun c => c.announced_setLine _ _
  | @writeCommand port value position decoded =>
    cases position with
    | primary =>
      exact Chip.announced_writeCommand _ fun sets => same (.inl ⟨decoded, sets⟩)
    | secondary => exact Chip.announced_refl _
  | @writeData port value position decoded =>
    cases position with
    | primary =>
      exact Chip.announced_writeData _ _ (.inr fun stage => same (.inr ⟨decoded, stage⟩))
    | secondary => exact Chip.announced_refl _
  | writeElcr => exact announced_primary_modifyChip rfl fun c => c.announced_writeElcr _ _
  | acknowledge cycle | asserted _ cycle => exact cycle.announced_primary
  | deviceReset => exact Chip.announced_reset _
  | coldReset => exact Chip.announced_coldReset _
  | restored => exact Chip.announced_refresh ..
  | pollPrimary decoded asked | pollCascade decoded asked | pollSecondary decoded asked =>
    exact absurd ⟨_, decoded, asked⟩ quiet
  | intackPrimary | intackSecondary => exact quiet.elim
  | _ => exact Chip.announced_refl _

/-- A mode switch leaves nothing to settle, so the wire keeps its level. -/
theorem Change.settled_of_switchesMode {op : Operation Wire} {q : Pair Wire}
    (h : p.Change op q) (settled : p.Settled) (switches : p.SwitchesMode op) : q.Settled := by
  cases h with
  | @writeCommand port value position decoded =>
    rcases switches with ⟨decoded', sets⟩ | ⟨decoded', -⟩
    · cases decoded.symm.trans decoded'
      exact ⟨(Chip.unforwarded_writeCommand sets).trans settled.primary, settled.secondary⟩
    · cases decoded.symm.trans decoded'
  | @writeData port value position decoded =>
    rcases switches with ⟨decoded', -⟩ | ⟨decoded', stage⟩
    · cases decoded.symm.trans decoded'
    · cases decoded.symm.trans decoded'
      have busy : p.primary.regs.stage ≠ .ready := by simp [stage]
      exact ⟨(Chip.unforwarded_writeData value busy).trans settled.primary, settled.secondary⟩
  | writeElcr decoded =>
    rcases switches with ⟨decoded', -⟩ | ⟨decoded', -⟩
    · cases decoded.symm.trans decoded'
    · cases decoded.symm.trans decoded'
  | noWrite decoded => exact settled
  | _ => exact switches.elim

/-- If the wire has the right level, one operation other than a poll leaves it with the right level
unless it is a mode switch that changes whether the primary offers a line. -/
theorem level_perform_iff (settled : p.Settled) (level : p.level = p.output)
    {op : Operation Wire} (quiet : p.WithoutPoll op) :
    (p.perform op).pair.level = (p.perform op).pair.output ↔
      (p.SwitchesMode op → (p.perform op).pair.output = p.output) := by
  obtain ⟨q, change, eq⟩ := perform_eq_settle settled op
  rw [eq]
  by_cases switches : p.SwitchesMode op
  · have kept : (q.settle ()).pair.level = p.output := by
      rw [settle_of_settled (change.settled_of_switchesMode settled switches)]
      exact change.level_eq.trans level
    simp only [kept, switches, true_implies]
    exact eq_comm
  · have follows := level_settle () settled level change.level_eq
      (change.announced_primary quiet switches)
    simp only [follows, switches, false_implies]

/-! ## Whole runs -/

/-- The wire has the right level after every step of a run iff no mode switch in the run changes
whether the primary offers a line. -/
theorem level_performAll_iff {history : List (Operation Wire)} (settled : p.Settled)
    (level : p.level = p.output) (quiet : p.Along WithoutPoll history) :
    (∀ steps, steps <+: history → (p.performAll steps).pair.level = (p.performAll steps).pair.output)
      ↔ p.Along (fun p op => p.SwitchesMode op → (p.perform op).pair.output = p.output) history := by
  induction history generalizing p with
  | nil =>
    refine ⟨fun _ => trivial, fun _ steps h => ?_⟩
    rw [List.prefix_nil.mp h]
    exact level
  | cons op history ih =>
    obtain ⟨first, others⟩ := quiet
    have step := level_perform_iff settled level first
    constructor
    · intro follows
      have now : (p.perform op).pair.level = (p.perform op).pair.output := by
        simpa [performAll] using follows [op] (by simp)
      refine ⟨step.mp now, (ih (settled_perform settled op) now others).mp fun steps h => ?_⟩
      exact follows (op :: steps) (List.cons_prefix_cons.mpr ⟨rfl, h⟩)
    · rintro ⟨same, rest⟩ steps h
      cases steps with
      | nil => exact level
      | cons op' steps =>
        obtain ⟨rfl, within⟩ := List.cons_prefix_cons.mp h
        exact (ih (settled_perform settled op') (step.mpr same) others).mpr rest steps within

/-- In a run from power-on without polls, the wire has the level that arbitration asks for after
every step iff no write of OCW3 with the special mask bits and no ICW4 to the primary changes
whether the primary offers a line. -/
theorem level_eq_output_iff (config : Config) {history : List (Operation Wire)}
    (quiet : (new config).Along WithoutPoll history) :
    (∀ steps, steps <+: history →
        ((new config).performAll steps).pair.level = ((new config).performAll steps).pair.output) ↔
      (new config).Along
        (fun p op => p.SwitchesMode op → (p.perform op).pair.output = p.output) history :=
  level_performAll_iff sound_new.settled output_new.symm quiet

/-- Line 1 is in service and masked while line 4 requests service. -/
def maskedService : List (Operation Unit) :=
  [.connect (some ()), .setLine 1 true, .acknowledge, .writePort 0x21 0x02, .setLine 4 true]

/-- Special mask mode is switched off, which it was already, so nothing changes. -/
theorem level_eq_output_maskedService :
    (new {}).Along WithoutPoll (maskedService ++ [.writePort 0x20 0x48]) ∧
      ∀ steps, steps <+: maskedService ++ [.writePort 0x20 0x48] →
        ((new {}).performAll steps).pair.level = ((new {}).performAll steps).pair.output :=
  ⟨by decide, (level_eq_output_iff {} (by decide)).mpr (by decide)⟩

/-- Once special mask mode is on, the masked line 1 no longer blocks line 4: the primary offers
line 4, and the wire stays low. -/
theorem level_ne_output :
    (new {}).Along WithoutPoll (maskedService ++ [.writePort 0x20 0x68]) ∧
      ((new {}).performAll (maskedService ++ [.writePort 0x20 0x68])).pair.output = true ∧
      ((new {}).performAll (maskedService ++ [.writePort 0x20 0x68])).pair.level = false := by
  decide

end PicCascade.Pair
