import PicCascade.Proofs.Pair.Requests

/-!
# Isolation of the chips

Port accesses and changes of lines are addressed to one of the chips. What is addressed to the
primary does not reach the secondary. What is addressed to the secondary reaches the primary
through the cascade line only. So nobody who looks at the secondary, through its ports or at its
registers, can tell what has been addressed to the primary.

Results:
* `secondary_perform`: what is addressed to the primary leaves the secondary alone.
* `offCascade_perform`, `isr_perform`: what is addressed to the secondary leaves the primary alone,
  but for the cascade line, whose service at most ends.
* `perform_congr`: what is not addressed to the primary sees nothing of it.
* `chips_isolated`: both directions of the isolation, and the same for two runs, one with and one
  without what is addressed to the primary.
-/

namespace PicCascade

/-- The registers without the request, the edge detector and the service of the cascade line. -/
def Registers.offCascade (r : Registers) : Registers :=
  { r with
    irr := r.irr.erase Line.cascade
    lastHigh := r.lastHigh.erase Line.cascade
    isr := r.isr.erase Line.cascade }

namespace Chip

variable {position : Position}

theorem offCascade_setLine (c : Chip position) (level : Bool) :
    (c.setLine Line.cascade level).regs.offCascade = c.regs.offCascade := by
  have irr : (c.setLine Line.cascade level).regs.irr.erase Line.cascade =
      c.regs.irr.erase Line.cascade := by
    ext i
    by_cases own : i = Line.cascade <;> simp [mem_irr_setLine, own]
  have lastHigh : (c.setLine Line.cascade level).regs.lastHigh.erase Line.cascade =
      c.regs.lastHigh.erase Line.cascade := by
    ext i
    by_cases own : i = Line.cascade <;> simp [mem_lastHigh_setLine, own]
  unfold Registers.offCascade
  rw [irr, lastHigh]
  rfl

theorem offCascade_retire (c : Chip position) :
    (c.retire Line.cascade).regs.offCascade = c.regs.offCascade := by
  have twice (s : LineSet 8) :
      (s.erase Line.cascade).erase Line.cascade = s.erase Line.cascade := by
    ext i
    simp
  have irr := twice c.regs.irr
  have isr := twice c.regs.isr
  unfold Registers.offCascade retire
  rw [regs_modify, irr, isr]

end Chip

namespace Pair

variable {Wire : Type} {p p' q : Pair Wire} {op : Operation Wire} {config : Config}

/-! ## Whom an operation is addressed to -/

/-- The operation is a port access or drives a line. -/
def IsAccess : Operation Wire → Prop
  | .setLine .. | .readPort _ | .writePort .. => True
  | _ => False

instance (op : Operation Wire) : Decidable (IsAccess op) :=
  match op with
  | .setLine .. | .readPort _ | .writePort .. => isTrue trivial
  | .acknowledge | .acknowledgeIfAsserted | .readIntack | .reset _ | .restore _ | .connect _
  | .setCounting _ | .clearCounts => isFalse id

/-- The chip that an access is addressed to, if there is something at its port or number. -/
def addressee? (config : Config) : Operation Wire → Option Position
  | .setLine n _ => if n.toNat < 16 then some (Line.ofGlobal n).1 else none
  | .readPort port | .writePort port _ => (config.decode? port).map Register.chip
  | _ => none

/-! ## What reaches the other chip -/

/-- What is addressed to the primary does not change the secondary. -/
theorem Change.secondary_eq (h : p.Change op q)
    (addressed : addressee? p.config op = some .primary) : q.secondary = p.secondary := by
  cases h with
  | line line =>
    rw [addressee?, if_pos line] at addressed
    rw [Option.some.inj addressed]
    rfl
  | writeCommand decoded | writeData decoded | writeElcr decoded =>
    rw [addressee?, decoded] at addressed
    cases addressed
    rfl
  | pollPrimary decoded asked poll => exact poll.secondary_eq
  | pollSecondary decoded asked poll =>
    rw [addressee?, decoded] at addressed
    cases addressed
  | noLine | read | pollCascade | noWrite => rfl
  | _ => cases addressed

/-- What is addressed to the secondary does not change the primary, except that a poll that takes a
request of the secondary retires the cascade line with it. -/
theorem Change.primary_eq (h : p.Change op q)
    (addressed : addressee? p.config op = some .secondary) :
    q.primary = p.primary ∨
      (∃ port j, op = .readPort port ∧ p.taken? op = some (.secondary, j)) ∧
        q.primary = p.primary.retire Line.cascade := by
  cases h with
  | line line =>
    rw [addressee?, if_pos line] at addressed
    rw [Option.some.inj addressed]
    exact .inl rfl
  | writeCommand decoded | writeData decoded | writeElcr decoded =>
    rw [addressee?, decoded] at addressed
    cases addressed
    exact .inl rfl
  | @pollSecondary port q decoded asked poll =>
    cases poll with
    | idle offered => exact .inl rfl
    | @own j offered =>
      have taken : p.taken? (.readPort port) = some (.secondary, j) := by
        rw [taken?_readPort decoded asked, chip, offered]
        rfl
      exact .inr ⟨⟨port, j, rfl, taken⟩, rfl⟩
  | pollPrimary decoded | pollCascade decoded =>
    rw [addressee?, decoded] at addressed
    cases addressed
  | noLine | read | noWrite => exact .inl rfl
  | _ => cases addressed

/-- Of what is addressed to the primary, nothing reaches the secondary. -/
theorem secondary_perform (settled : p.Settled)
    (addressed : addressee? p.config op = some .primary) :
    (p.perform op).pair.secondary = p.secondary := by
  obtain ⟨q, change, eq⟩ := perform_eq_settle settled op
  rw [eq, secondary_settle, change.secondary_eq addressed]
  exact Chip.forwarded_of_idle settled.secondary

/-- Of what is addressed to the secondary, only the cascade line reaches the primary. -/
theorem offCascade_perform (settled : p.Settled)
    (addressed : addressee? p.config op = some .secondary) :
    (p.perform op).pair.primary.regs.offCascade = p.primary.regs.offCascade := by
  obtain ⟨q, change, eq⟩ := perform_eq_settle settled op
  have before : q.primary.regs.offCascade = p.primary.regs.offCascade := by
    rcases change.primary_eq addressed with same | ⟨-, retired⟩
    · rw [same]
    · rw [retired, Chip.offCascade_retire]
  rw [eq, regs_primary_settle]
  split
  · rw [Chip.offCascade_setLine, before]
  · exact before

/-- The service of the cascade line at most ends, and only by a poll that takes a request of the
secondary. -/
theorem isr_perform (settled : p.Settled)
    (addressed : addressee? p.config op = some .secondary) :
    (p.perform op).pair.primary.regs.isr = p.primary.regs.isr ∨
      (∃ port j, op = .readPort port ∧ p.taken? op = some (.secondary, j)) ∧
        (p.perform op).pair.primary.regs.isr = p.primary.regs.isr.erase Line.cascade := by
  obtain ⟨q, change, eq⟩ := perform_eq_settle settled op
  have kept : (q.settle ()).pair.primary.regs.isr = q.primary.regs.isr := isr_settle q () .primary
  rw [eq, kept]
  rcases change.primary_eq addressed with same | ⟨poll, retired⟩
  · exact .inl (by rw [same])
  · exact .inr ⟨poll, by rw [retired]; rfl⟩

/-! ## What the secondary sees -/

/-- The chips have the same wiring and the same secondary, and are not in the middle of an
operation. -/
structure SameSecondary (p p' : Pair Wire) : Prop where
  config : p.config = p'.config
  secondary : p.secondary = p'.secondary
  settled : p.Settled
  settled' : p'.Settled

theorem SameSecondary.perform_left (same : SameSecondary p p')
    (addressed : addressee? p.config op = some .primary) :
    SameSecondary (p.perform op).pair p' where
  config := (config_perform same.settled op).trans same.config
  secondary := (secondary_perform same.settled addressed).trans same.secondary
  settled := settled_perform same.settled op
  settled' := same.settled'

/-- A changed secondary has its output forwarded. -/
theorem secondary_settle_modifyChip {α : Type} (q : Pair Wire)
    (f : Chip .secondary → Chip .secondary) (a : α) :
    ((q.modifyChip .secondary f).settle a).pair.secondary = (f q.secondary).forwarded :=
  secondary_settle ..

theorem pollSecondary_congr (same : p.secondary = p'.secondary) :
    p.pollSecondary.1 = p'.pollSecondary.1 ∧
      p.pollSecondary.2.secondary = p'.pollSecondary.2.secondary := by
  unfold pollSecondary
  rw [same]
  cases p'.secondary.pending? with
  | none => exact ⟨rfl, same⟩
  | some j => exact ⟨rfl, rfl⟩

/-- A read of the secondary does not depend on the primary. -/
theorem readRegister_congr (same : p.secondary = p'.secondary) {register : Register}
    (own : register.chip = .secondary) :
    (p.readRegister register).answer = (p'.readRegister register).answer ∧
      (p.readRegister register).pair.secondary = (p'.readRegister register).pair.secondary := by
  cases register with
  | command position =>
    cases own
    have chip : p.chip .secondary = p'.chip .secondary := same
    simp only [readRegister, readCommand, chip]
    split
    · obtain ⟨line, polled⟩ := pollSecondary_congr same
      refine ⟨congrArg Line.toByte line, ?_⟩
      simp only [poll, secondary_settle_modifyChip]
      rw [polled]
    · exact ⟨rfl, same⟩
  | data position =>
    cases own
    exact ⟨congrArg (·.regs.imr.toByte) same, same⟩
  | elcr position =>
    cases own
    exact ⟨congrArg (·.regs.elcr.toByte) same, same⟩

/-- Nor does a write. -/
theorem writeRegister_congr (config : p.config = p'.config) (same : p.secondary = p'.secondary)
    {register : Register} (own : register.chip = .secondary) (value : UInt8) :
    (p.writeRegister value register).answer = (p'.writeRegister value register).answer ∧
      (p.writeRegister value register).pair.secondary =
        (p'.writeRegister value register).pair.secondary := by
  cases register with
  | command position | data position | elcr position =>
    cases own
    refine ⟨rfl, ?_⟩
    simp only [writeRegister, secondary_settle_modifyChip, config, same]

/-- What is not addressed to the primary gets the same answer and leaves the same secondary,
whatever the primary. -/
theorem perform_congr (same : SameSecondary p p') (access : IsAccess op)
    (other : addressee? p.config op ≠ some .primary) :
    (p.perform op).answer = (p'.perform op).answer ∧
      (p.perform op).pair.secondary = (p'.perform op).pair.secondary := by
  obtain ⟨config, secondary, -, -⟩ := same
  have chip_of {position : Position} (ne : some position ≠ some .primary) :
      position = .secondary := by
    cases position with
    | primary => exact absurd rfl ne
    | secondary => rfl
  cases op with
  | setLine n level =>
    simp only [Pair.perform, Pair.setLine, Outcome.map]
    by_cases line : n.toNat < 16
    · rw [addressee?, if_pos line] at other
      simp only [line, dite_true]
      refine ⟨trivial, ?_⟩
      generalize Line.ofGlobal n = target at other ⊢
      obtain ⟨position, i⟩ := target
      obtain rfl : position = .secondary := chip_of other
      simp only [secondary_settle_modifyChip, secondary]
    · simpa [line] using secondary
  | readPort port =>
    simp only [Pair.perform, Pair.readPort, Outcome.map, ← config]
    cases decoded : p.config.decode? port with
    | none => exact ⟨rfl, secondary⟩
    | some register =>
      rw [addressee?, decoded] at other
      obtain ⟨answer, after⟩ := readRegister_congr secondary (chip_of other)
      exact ⟨congrArg Answer.byte answer, after⟩
  | writePort port value =>
    simp only [Pair.perform, Pair.writePort, Outcome.map, ← config]
    cases decoded : p.config.decode? port with
    | none => exact ⟨rfl, secondary⟩
    | some register =>
      rw [addressee?, decoded] at other
      obtain ⟨answer, after⟩ := writeRegister_congr config secondary (chip_of other) value
      exact ⟨congrArg Answer.written answer, after⟩
  | _ => exact access.elim

theorem SameSecondary.perform (same : SameSecondary p p')
    (after : (p.perform op).pair.secondary = (p'.perform op).pair.secondary) :
    SameSecondary (p.perform op).pair (p'.perform op).pair where
  config := by rw [config_perform same.settled, config_perform same.settled', same.config]
  secondary := after
  settled := settled_perform same.settled op
  settled' := settled_perform same.settled' op

/-! ## Whole histories -/

/-- An operation of a history, its answer, and the registers of the secondary after it. -/
structure Observation (Wire : Type) where
  op : Operation Wire
  answer : Answer
  regs : Registers

/-- What can be observed of the secondary along a history. -/
def observe (p : Pair Wire) : List (Operation Wire) → List (Observation Wire)
  | [] => []
  | op :: history =>
    let o := p.perform op
    ⟨op, o.answer, o.pair.secondary.regs⟩ :: o.pair.observe history

/-- The operation is not addressed to the primary. -/
def bypassesPrimary (config : Config) (op : Operation Wire) : Bool :=
  addressee? config op ≠ some .primary

/-- Of two pairs with the same secondary let one get all accesses, and the other only those that are
not addressed to the primary. -/
theorem filter_observe (same : SameSecondary p p') (wiring : p.config = config)
    {history : List (Operation Wire)} (accesses : ∀ op ∈ history, IsAccess op) :
    (p.observe history).filter (fun seen => bypassesPrimary config seen.op) =
      p'.observe (history.filter (bypassesPrimary config)) := by
  induction history generalizing p p' with
  | nil => rfl
  | cons op history ih =>
    have others : ∀ op ∈ history, IsAccess op := fun op' mem => accesses op' (by simp [mem])
    have kept : (p.perform op).pair.config = config :=
      (config_perform same.settled op).trans wiring
    by_cases addressed : addressee? config op = some .primary
    · have hidden : bypassesPrimary config op = false := by simp [bypassesPrimary, addressed]
      have same' := same.perform_left (wiring ▸ addressed)
      rw [List.filter_cons_of_neg (by simp [hidden])]
      exact (List.filter_cons_of_neg (by simp [hidden])).trans (ih same' kept others)
    · have shown : bypassesPrimary config op = true := by simp [bypassesPrimary, addressed]
      obtain ⟨answer, after⟩ :=
        perform_congr same (accesses op (by simp)) (wiring ▸ addressed)
      rw [List.filter_cons_of_pos shown, observe, observe, List.filter_cons, if_pos shown,
        ih (same.perform after) kept others, answer, after]

/-- The chips are isolated from each other, from every reachable pair. What is addressed to the
primary leaves the registers of the secondary alone. What is addressed to the secondary leaves the
registers of the primary alone but for the cascade line, and ends the service of that line only if
it polls the secondary and takes a request from it. And along every history of accesses, all that
are addressed to the primary can be left out: the others get the same answers and find the same
registers of the secondary. -/
theorem chips_isolated (reachable : Reachable config p) :
    (∀ op, addressee? config op = some .primary →
      (p.perform op).pair.secondary.regs = p.secondary.regs) ∧
    (∀ op, addressee? config op = some .secondary →
      (p.perform op).pair.primary.regs.offCascade = p.primary.regs.offCascade ∧
        ((p.perform op).pair.primary.regs.isr = p.primary.regs.isr ∨
          (∃ port j, op = .readPort port ∧ p.secondary.regs.poll = true ∧
            p.taken? op = some (.secondary, j)) ∧
          (p.perform op).pair.primary.regs.isr = p.primary.regs.isr.erase Line.cascade)) ∧
    ∀ history, (∀ op ∈ history, IsAccess op) →
      (p.observe history).filter (fun seen => bypassesPrimary config seen.op) =
        p.observe (history.filter (bypassesPrimary config)) := by
  have sound := reachable.sound
  have wiring := sound.config_eq
  refine ⟨?_, ?_, ?_⟩
  · intro op addressed
    rw [secondary_perform sound.settled (wiring ▸ addressed)]
  · intro op addressed
    rw [← wiring] at addressed
    refine ⟨offCascade_perform sound.settled addressed, ?_⟩
    rcases isr_perform sound.settled addressed with same | ⟨⟨port, j, rfl, taken⟩, ended⟩
    · exact .inl same
    · exact .inr ⟨⟨port, j, rfl, (taken?_readPort_eq_some taken).2.1, taken⟩, ended⟩
  · intro history accesses
    exact filter_observe ⟨rfl, rfl, sound.settled, sound.settled⟩ wiring accesses

/-- With line 11 in service and a poll of the secondary asked for, the primary is polled,
initialised anew and masked while line 9 is raised and taken by the poll. -/
def crossTraffic : List (Operation Unit) :=
  [.writePort 0x20 0x0C, .setLine 9 true, .readPort 0x20, .writePort 0x20 0x13, .readPort 0xA0,
    .setLine 3 true, .writePort 0x21 0x40, .readPort 0xA0, .writePort 0x21 0x01, .readPort 0xA1]

theorem chips_isolated_crossTraffic :
    let p : Pair Unit :=
      ((new {}).performAll [.setLine 11 true, .acknowledge, .writePort 0xA0 0x0C]).pair
    (p.perform (.readPort 0x20)).pair.secondary.regs = p.secondary.regs ∧
      (p.perform (.readPort 0xA0)).pair.primary.regs.offCascade = p.primary.regs.offCascade ∧
      (p.observe crossTraffic).filter (fun seen => bypassesPrimary {} seen.op) =
        p.observe [.setLine 9 true, .readPort 0xA0, .readPort 0xA0, .readPort 0xA1] := by
  intro p
  have reachable : Reachable {} p := ⟨_, rfl⟩
  obtain ⟨primary, secondary, observed⟩ := chips_isolated reachable
  refine ⟨primary _ (by decide), (secondary _ (by decide)).1, ?_⟩
  exact observed crossTraffic (by decide)

end Pair

end PicCascade
