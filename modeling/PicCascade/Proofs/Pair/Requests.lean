import PicCascade.Proofs.Pair.History

/-!
# Taking requests

The processor takes a request by an acknowledge cycle, by a poll of one chip or by a poll of the
pair. Nothing else takes away a request, short of a reset of the chip. A poll withdraws the request
that it takes. An acknowledge cycle withdraws that of an edge-triggered line, and leaves that of a
level-triggered line for as long as the line is high.

This holds of every line but the cascade line, whose request the pair itself raises and takes back
along with those of the secondary.

Results:
* `answer_acknowledge`, `answer_readIntack`, `poll_fst`: how the processor learns which line it took.
* `Change.mem_irr_iff`: an operation that does not drive a line keeps its request iff it does not
  withdraw it.
* `Change.mem_lastHigh_iff`: nor does it touch the edge detector of the line.
-/

namespace PicCascade

namespace Chip

variable {position : Position} {c : Chip position} {i j : Line}

theorem mem_irr_retire : i ∈ (c.retire j).regs.irr ↔ i ≠ j ∧ i ∈ c.regs.irr :=
  LineSet.mem_erase

/-- A line that is offered requests service. -/
theorem mem_irr_of_pending? (offered : c.pending? = some i) : i ∈ c.regs.irr :=
  (LineSet.mem_sdiff.mp (Registers.pending?_eq_some_iff.mp offered).1.1).1

end Chip

namespace Pair

variable {Wire : Type} {p q : Pair Wire} {op : Operation Wire} {position : Position} {i : Line}

/-! ## The line that is taken -/

/-- The chip and the line that the pair as a whole offers for service. -/
def offered? (p : Pair Wire) : Option (Position × Line) :=
  match p.primary.pending? with
  | none => none
  | some i =>
    if i = Line.cascade then p.secondary.pending?.map (.secondary, ·) else some (.primary, i)

/-- The chip and the line whose request an operation takes. An acknowledge cycle and a poll of the
pair take what the pair offers, a poll of a chip what the chip offers. -/
def taken? (p : Pair Wire) : Operation Wire → Option (Position × Line)
  | .acknowledge | .acknowledgeIfAsserted | .readIntack => p.offered?
  | .readPort port =>
    match p.config.decode? port with
    | some (.command position) =>
      if (p.chip position).regs.poll then (p.chip position).pending?.map (position, ·) else none
    | _ => none
  | _ => none

theorem offered?_eq_primary :
    p.offered? = some (.primary, i) ↔ p.primary.pending? = some i ∧ i ≠ Line.cascade := by
  unfold offered?
  cases p.primary.pending? with
  | none => simp
  | some j =>
    by_cases cascade : j = Line.cascade
    · simp only [cascade, if_true, Option.some.injEq]
      refine iff_of_false (by simp) fun ⟨eq, other⟩ => other eq.symm
    · simp only [cascade, if_false, Option.some.injEq, Prod.mk.injEq, true_and]
      exact ⟨fun eq => ⟨eq, eq ▸ cascade⟩, fun ⟨eq, _⟩ => eq⟩

theorem offered?_eq_secondary :
    p.offered? = some (.secondary, i) ↔
      p.primary.pending? = some Line.cascade ∧ p.secondary.pending? = some i := by
  unfold offered?
  cases p.primary.pending? with
  | none => simp
  | some j =>
    by_cases cascade : j = Line.cascade
    · simp [cascade]
    · simp [cascade]

theorem taken?_readPort {port : UInt16} (decoded : p.config.decode? port = some (.command position))
    (asked : (p.chip position).regs.poll = true) :
    p.taken? (.readPort port) = (p.chip position).pending?.map (position, ·) := by
  simp [taken?, decoded, asked]

theorem taken?_readPort_of_not_polls {port : UInt16} (quiet : ¬ p.Polls port) :
    p.taken? (.readPort port) = none := by
  cases decoded : p.config.decode? port with
  | none => simp [taken?, decoded]
  | some register =>
    cases register with
    | command position =>
      have asked : ¬ (p.chip position).regs.poll = true := fun h => quiet ⟨position, decoded, h⟩
      simp [taken?, decoded, asked]
    | data position => simp [taken?, decoded]
    | elcr position => simp [taken?, decoded]

/-- A read that takes a request is a poll of a chip that offers the line. -/
theorem taken?_readPort_eq_some {port : UInt16}
    (taken : p.taken? (.readPort port) = some (position, i)) :
    p.config.decode? port = some (.command position) ∧ (p.chip position).regs.poll = true ∧
      (p.chip position).pending? = some i := by
  by_cases polls : p.Polls port
  · obtain ⟨other, decoded, asked⟩ := polls
    rw [taken?_readPort decoded asked] at taken
    obtain ⟨j, offered, eq⟩ := Option.map_eq_some_iff.mp taken
    cases eq
    exact ⟨decoded, asked, offered⟩
  · rw [taken?_readPort_of_not_polls polls] at taken
    cases taken

/-! ## What the processor is told -/

theorem answer_acknowledge (offered : p.offered? = some (position, i)) :
    p.acknowledge.answer = (p.chip position).vector i := by
  cases position with
  | primary =>
    obtain ⟨own, notCascade⟩ := offered?_eq_primary.mp offered
    rw [acknowledge_of_own own notCascade]
    rfl
  | secondary =>
    obtain ⟨cascade, behind⟩ := offered?_eq_secondary.mp offered
    rw [acknowledge_of_cascaded cascade behind]
    rfl

theorem answer_readIntack (offered : p.offered? = some (position, i)) :
    p.readIntack.answer = Line.global position i := by
  cases position with
  | primary =>
    obtain ⟨own, notCascade⟩ := offered?_eq_primary.mp offered
    simp [Pair.readIntack, Pair.pollPrimary, own, notCascade, settle]
  | secondary =>
    obtain ⟨cascade, behind⟩ := offered?_eq_secondary.mp offered
    simp [Pair.readIntack, Pair.pollPrimary, Pair.pollSecondary, cascade, behind, settle]

theorem poll_fst (offered : (p.chip position).pending? = some i) : (p.poll position).1 = i := by
  cases position with
  | primary =>
    rw [chip] at offered
    simp [Pair.poll, Pair.pollPrimary, offered]
  | secondary =>
    rw [chip] at offered
    simp [Pair.poll, Pair.pollSecondary, offered]

theorem output_of_offered? (offered : p.offered? = some (position, i)) : p.output = true := by
  cases position with
  | primary => simp [output, (offered?_eq_primary.mp offered).1]
  | secondary => simp [output, (offered?_eq_secondary.mp offered).1]

/-! ## What settling leaves alone -/

theorem mem_irr_settle {α : Type} (a : α) (own : (position, i) ≠ (.primary, Line.cascade)) :
    i ∈ ((q.settle a).pair.chip position).regs.irr ↔ i ∈ (q.chip position).regs.irr := by
  cases position with
  | primary =>
    have other : i ≠ Line.cascade := fun eq => own (eq ▸ rfl)
    simp only [chip, regs_primary_settle]
    split
    · simp [Chip.mem_irr_setLine, other]
    · exact Iff.rfl
  | secondary => simp [chip]

theorem mem_lastHigh_settle {α : Type} (a : α) (own : (position, i) ≠ (.primary, Line.cascade)) :
    i ∈ ((q.settle a).pair.chip position).regs.lastHigh ↔ i ∈ (q.chip position).regs.lastHigh := by
  cases position with
  | primary =>
    have other : i ≠ Line.cascade := fun eq => own (eq ▸ rfl)
    simp only [chip, regs_primary_settle]
    split
    · simp [Chip.mem_lastHigh_setLine, other]
    · exact Iff.rfl
  | secondary => simp [chip]

/-! ## What one operation takes -/

/-- The operation neither resets the chip, by ICW1 or otherwise, nor replaces its registers. -/
def KeepsChip (position : Position) (p : Pair Wire) : Operation Wire → Prop
  | .writePort port value =>
    p.config.decode? port = some (.command position) → ¬ (Command.decode value).Initializes
  | .reset _ | .restore _ => False
  | _ => True

instance (position : Position) (p : Pair Wire) (op : Operation Wire) :
    Decidable (KeepsChip position p op) :=
  match op with
  | .writePort .. => inferInstanceAs (Decidable (_ → ¬ _))
  | .reset _ | .restore _ => isFalse id
  | .setLine .. | .readPort _ | .acknowledge | .acknowledgeIfAsserted | .readIntack | .connect _
  | .setCounting _ | .clearCounts => isTrue trivial

/-- The operation does not drive a line of a chip. -/
def LeavesLine (position : Position) (i : Line) : Operation Wire → Prop
  | .setLine m _ => m.toNat < 16 → Line.ofGlobal m ≠ (position, i)
  | _ => True

/-- The operation is one of the reads that can poll. -/
def IsPoll : Operation Wire → Prop
  | .readPort _ | .readIntack => True
  | _ => False

instance (op : Operation Wire) : Decidable (IsPoll op) :=
  match op with
  | .readPort _ | .readIntack => isTrue trivial
  | .setLine .. | .writePort .. | .acknowledge | .acknowledgeIfAsserted | .reset _ | .restore _
  | .connect _ | .setCounting _ | .clearCounts => isFalse id

/-- The operation takes the line, and its request with it: the line is edge-triggered, or the
operation polls. -/
structure Withdraws (position : Position) (i : Line) (p : Pair Wire) (op : Operation Wire) :
    Prop where
  taken : p.taken? op = some (position, i)
  gone : i ∈ (p.chip position).regs.elcr → IsPoll op

/-- Of an edge-triggered line, the request goes whenever the line is taken. -/
theorem withdraws_iff_of_edge (edge : i ∉ (p.chip position).regs.elcr) :
    Withdraws position i p op ↔ p.taken? op = some (position, i) :=
  ⟨Withdraws.taken, fun taken => ⟨taken, fun level => absurd level edge⟩⟩

/-- A poll withdraws what it takes. -/
theorem withdraws_iff_of_isPoll (op : Operation Wire) (poll : IsPoll op) :
    Withdraws position i p op ↔ p.taken? op = some (position, i) :=
  ⟨Withdraws.taken, fun taken => ⟨taken, fun _ => poll⟩⟩

/-- An acknowledge cycle does not withdraw the request of a level-triggered line. -/
theorem not_withdraws_iff_of_not_isPoll (cycle : ¬ IsPoll op) :
    ¬ Withdraws position i p op ↔
      (p.taken? op = some (position, i) → i ∈ (p.chip position).regs.elcr) := by
  constructor
  · intro keeps taken
    by_cases level : i ∈ (p.chip position).regs.elcr
    · exact level
    · exact absurd ((withdraws_iff_of_edge level).mpr taken) keeps
  · exact fun level withdraws => cycle (withdraws.gone (level withdraws.taken))

/-- An operation that takes nothing only has to keep the request. -/
theorem iff_of_not_taken {before after : Prop} (none : p.taken? op = none)
    (kept : after ↔ before) : after ↔ before ∧ ¬ Withdraws position i p op := by
  have keeps : ¬ Withdraws position i p op := fun withdraws => by
    cases none.symm.trans withdraws.taken
  rw [kept, and_iff_left keeps]

/-- An acknowledge cycle takes the line that the pair offers, and no other. -/
theorem AcknowledgeChange.mem_irr_iff (h : p.AcknowledgeChange q)
    (own : (position, i) ≠ (.primary, Line.cascade)) :
    i ∈ (q.chip position).regs.irr ↔
      i ∈ (p.chip position).regs.irr ∧
        (p.offered? = some (position, i) → i ∈ (p.chip position).regs.elcr) := by
  cases position with
  | primary =>
    have other : i ≠ Line.cascade := fun eq => own (eq ▸ rfl)
    cases h with
    | idle none => simp [offered?, none]
    | @own j offered notCascade =>
      simp only [offered?, offered, notCascade, chip, Chip.mem_irr_acknowledge, if_false,
        Option.some.injEq, Prod.mk.injEq, true_and]
      exact and_congr_right fun _ => ⟨fun h eq => eq ▸ h eq.symm, fun h eq => eq ▸ h eq.symm⟩
    | spurious offered behind =>
      simp [offered?, offered, behind, chip, Chip.mem_irr_acknowledge, other]
    | cascaded offered behind =>
      simp [offered?, offered, behind, chip, Chip.mem_irr_acknowledge, other]
  | secondary =>
    cases h with
    | idle none => simp [offered?, none]
    | own offered notCascade => simp [offered?, offered, notCascade, chip]
    | spurious offered behind => simp [offered?, offered, behind, chip]
    | cascaded offered behind =>
      simp only [offered?, offered, behind, chip, Chip.mem_irr_acknowledge, if_true,
        Option.map_some, Option.some.injEq, Prod.mk.injEq, true_and]
      exact and_congr_right fun _ => ⟨fun h eq => eq ▸ h eq.symm, fun h eq => eq ▸ h eq.symm⟩

/-- A poll of the primary takes the request that the primary offers, and no other. -/
theorem PrimaryPoll.mem_irr_iff (h : p.PrimaryPoll q) :
    i ∈ q.primary.regs.irr ↔ i ∈ p.primary.regs.irr ∧ p.primary.pending? ≠ some i := by
  cases h with
  | idle none => simp [none]
  | own offered => simp [Chip.mem_irr_retire, offered, eq_comm, and_comm]

theorem PrimaryPoll.secondary_eq (h : p.PrimaryPoll q) : q.secondary = p.secondary := by
  cases h <;> rfl

/-- It does not find the cascade line, so it takes what the pair offers. -/
theorem PrimaryPoll.offered?_eq (h : p.PrimaryPoll q) :
    p.offered? = p.primary.pending?.map (.primary, ·) := by
  cases h with
  | idle none => simp [offered?, none]
  | own offered notCascade => simp [offered?, offered, notCascade]

/-- A poll of the secondary takes the request that the secondary offers, and no other but that of
the cascade line. -/
theorem SecondaryPoll.mem_irr_iff (h : p.SecondaryPoll q)
    (own : (position, i) ≠ (.primary, Line.cascade)) :
    i ∈ (q.chip position).regs.irr ↔
      i ∈ (p.chip position).regs.irr ∧
        p.secondary.pending?.map (Position.secondary, ·) ≠ some (position, i) := by
  cases h with
  | idle none => simp [none]
  | own offered =>
    cases position with
    | primary =>
      have other : i ≠ Line.cascade := fun eq => own (eq ▸ rfl)
      simp [chip, Chip.mem_irr_retire, other, offered]
    | secondary => simp [chip, Chip.mem_irr_retire, offered, eq_comm, and_comm]

/-- Short of a reset, an operation that does not drive a line keeps its request iff it does not
withdraw it. -/
theorem Change.mem_irr_iff (h : p.Change op q) (own : (position, i) ≠ (.primary, Line.cascade))
    (keeps : KeepsChip position p op) (leaves : LeavesLine position i op) :
    i ∈ (q.chip position).regs.irr ↔
      i ∈ (p.chip position).regs.irr ∧ ¬ Withdraws position i p op := by
  cases h with
  | @line m level line =>
    refine iff_of_not_taken rfl (iff_modifyChip (P := fun r => i ∈ r.irr) fun same => ?_)
    have other : i ≠ (Line.ofGlobal m).2 := fun eq => leaves line (by rw [same, eq])
    rw [Chip.mem_irr_setLine, if_neg other]
  | read quiet => exact iff_of_not_taken (taken?_readPort_of_not_polls quiet) Iff.rfl
  | pollPrimary decoded asked poll =>
    rw [withdraws_iff_of_isPoll (.readPort _) trivial, taken?_readPort decoded asked]
    cases position with
    | primary => simp [chip, Registers.polled, poll.mem_irr_iff]
    | secondary => simp [chip, poll.secondary_eq]
  | pollCascade decoded asked offered =>
    rw [withdraws_iff_of_isPoll (.readPort _) trivial, taken?_readPort decoded asked]
    cases position with
    | primary =>
      have other : i ≠ Line.cascade := fun eq => own (eq ▸ rfl)
      simp [chip, Registers.polled, Chip.mem_irr_retire, offered, other, other.symm]
    | secondary => simp [chip, offered]
  | @pollSecondary port q decoded asked poll =>
    rw [withdraws_iff_of_isPoll (.readPort _) trivial, taken?_readPort decoded asked]
    refine Iff.trans ?_ (poll.mem_irr_iff own)
    cases position with
    | primary => exact Iff.rfl
    | secondary => exact Iff.rfl
  | writeCommand decoded =>
    refine iff_of_not_taken rfl (iff_modifyChip (P := fun r => i ∈ r.irr) fun same => ?_)
    subst same
    rw [Chip.irr_writeCommand (keeps decoded)]
  | writeData decoded =>
    refine iff_of_not_taken rfl (iff_modifyChip (P := fun r => i ∈ r.irr) fun same => ?_)
    rw [Chip.irr_writeData]
  | writeElcr decoded =>
    exact iff_of_not_taken rfl (iff_modifyChip (P := fun r => i ∈ r.irr) fun _ => Iff.rfl)
  | acknowledge cycle | asserted _ cycle =>
    rw [not_withdraws_iff_of_not_isPoll id]
    exact cycle.mem_irr_iff own
  | notAsserted asks =>
    have offered := pending?_of_output asks
    exact iff_of_not_taken (by simp [taken?, offered?, offered]) Iff.rfl
  | @intackPrimary q poll =>
    rw [withdraws_iff_of_isPoll .readIntack trivial]
    simp only [taken?, poll.offered?_eq]
    cases position with
    | primary => simp [chip, Registers.showingIsr, poll.mem_irr_iff]
    | secondary => simp [chip, poll.secondary_eq]
  | @intackSecondary q offered poll =>
    rw [withdraws_iff_of_isPoll .readIntack trivial]
    simp only [taken?, offered?, offered, if_true]
    cases position with
    | primary =>
      have other : i ≠ Line.cascade := fun eq => own (eq ▸ rfl)
      have polled := poll.mem_irr_iff own
      simpa [chip, Registers.showingIsr, Chip.mem_irr_retire, other] using polled
    | secondary => exact poll.mem_irr_iff own
  | deviceReset | coldReset | refused | restored => exact keeps.elim
  | noLine | noWrite => exact iff_of_not_taken rfl Iff.rfl
  | connect | setCounting | clearCounts =>
    refine iff_of_not_taken rfl ?_
    cases position with
    | primary => exact Iff.rfl
    | secondary => exact Iff.rfl

/-- Short of a reset, an operation that does not drive a line does not touch its edge detector. -/
theorem Change.mem_lastHigh_iff (h : p.Change op q) (keeps : KeepsChip position p op)
    (leaves : LeavesLine position i op) :
    i ∈ (q.chip position).regs.lastHigh ↔ i ∈ (p.chip position).regs.lastHigh := by
  cases h with
  | line line =>
    refine iff_modifyChip (P := fun r => i ∈ r.lastHigh) fun same => ?_
    have other : i ≠ _ := fun eq => leaves line (by rw [same, eq])
    rw [Chip.mem_lastHigh_setLine, if_neg other]
  | pollPrimary decoded asked poll | intackPrimary poll | pollSecondary decoded asked poll
  | intackSecondary offered poll =>
    obtain ⟨_, _, regs⟩ := poll.regs_chip position
    have polled := congrArg Registers.lastHigh regs
    cases position with
    | primary => exact Iff.of_eq (congrArg (i ∈ ·) polled)
    | secondary => exact Iff.of_eq (congrArg (i ∈ ·) polled)
  | writeCommand decoded =>
    refine iff_modifyChip (P := fun r => i ∈ r.lastHigh) fun same => ?_
    subst same
    rw [Chip.lastHigh_writeCommand (keeps decoded)]
  | writeData decoded =>
    refine iff_modifyChip (P := fun r => i ∈ r.lastHigh) fun same => ?_
    rw [Chip.lastHigh_writeData]
  | writeElcr decoded => exact iff_modifyChip (P := fun r => i ∈ r.lastHigh) fun same => Iff.rfl
  | acknowledge cycle | asserted _ cycle =>
    obtain ⟨_, _, _, regs⟩ := cycle.regs_chip position
    rw [regs]
  | deviceReset | coldReset | refused | restored => exact keeps.elim
  | _ => cases position <;> exact Iff.rfl

end Pair

end PicCascade
