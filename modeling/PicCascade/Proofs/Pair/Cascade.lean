import PicCascade.Proofs.Pair.History

/-!
# Requests behind the cascade line

The primary latches a request of the secondary when the cascade line rises. A request stays offered
if the cascade line is high exactly while the secondary offers a line, and its rise is latched as
long as it is high (`InStep`). An acknowledge cycle without automatic end of interrupt keeps this
up: it leaves the secondary with nothing to offer, so the cascade line falls, and the next request
is a new edge. With automatic end of interrupt, and when the secondary is polled, the cascade line
can stay high while the latched request is taken away.

Results:
* `inStep_performAll`: the two stay in step along every history of ordinary operations.
* `mem_irr_cascade_perform_iff`: whether the request of an edge-triggered cascade line survives one
  acknowledge cycle or poll.
-/

namespace PicCascade

namespace Pair

variable {Wire : Type} {p q : Pair Wire}

/-- The cascade line is high exactly while the secondary offers a line, and then the primary has
latched its request. -/
structure InStep (p : Pair Wire) : Prop where
  high_iff : Line.cascade ∈ p.primary.regs.lastHigh ↔ p.secondary.pending?.isSome = true
  latched : p.secondary.pending?.isSome = true → Line.cascade ∈ p.primary.regs.irr

/-! ## Settling keeps the chips in step -/

theorem inStep_of_unrelayed (idle : q.secondary.unforwarded = false)
    (inStep : q.InStep) : (q.settle ()).pair.InStep := by
  have regs : (q.settle ()).pair.primary.regs = q.primary.regs := by
    simp [regs_primary_settle, idle]
  constructor
  · rw [regs, pending?_secondary_settle]
    exact inStep.high_iff
  · rw [regs, pending?_secondary_settle]
    exact inStep.latched

/-- A recomputed output of the secondary reaches the cascade line. It is latched if it rises there,
or was latched already. -/
theorem inStep_of_relayed (marked : q.secondary.unforwarded = true)
    (current : q.secondary.output = q.secondary.pending?.isSome)
    (latched : q.secondary.pending?.isSome = true → Line.cascade ∈ q.primary.regs.lastHigh →
      Line.cascade ∈ q.primary.regs.irr) : (q.settle ()).pair.InStep := by
  have regs : (q.settle ()).pair.primary.regs =
      (q.primary.setLine Line.cascade q.secondary.pending?.isSome).regs := by
    simp [regs_primary_settle, marked, current]
  constructor
  · rw [regs, pending?_secondary_settle, Chip.mem_lastHigh_setLine]
    simp
  · rw [regs, pending?_secondary_settle, Chip.mem_irr_setLine]
    intro offered
    simp only [offered, true_and, if_true]
    split
    · trivial
    · by_cases high : Line.cascade ∈ q.primary.regs.lastHigh
      · exact .inr (latched offered high)
      · exact .inl high

/-- If the primary's side of the cascade line is kept and the change of the secondary is announced,
the chips are in step again once the pair has settled. -/
theorem InStep.settle_of_announced (inStep : p.InStep) (settled : p.Settled)
    (high : Line.cascade ∈ q.primary.regs.lastHigh ↔ Line.cascade ∈ p.primary.regs.lastHigh)
    (requested : Line.cascade ∈ p.primary.regs.irr → Line.cascade ∈ q.primary.regs.irr)
    (announced : p.secondary.Announced q.secondary) : (q.settle ()).pair.InStep := by
  cases announced with
  | recomputed marked current =>
    refine inStep_of_relayed marked current fun _ up => requested ?_
    exact inStep.latched (inStep.high_iff.mp (high.mp up))
  | unchanged mark latch offered =>
    refine inStep_of_unrelayed (mark.trans settled.secondary) ⟨?_, ?_⟩
    · rw [high, offered]
      exact inStep.high_iff
    · rw [offered]
      exact fun some => requested (inStep.latched some)

theorem InStep.settle_of_same (inStep : p.InStep) (settled : p.Settled)
    (high : q.primary.regs.lastHigh = p.primary.regs.lastHigh)
    (requested : q.primary.regs.irr = p.primary.regs.irr)
    (announced : p.secondary.Announced q.secondary) : (q.settle ()).pair.InStep :=
  inStep.settle_of_announced settled (by rw [high]) (by rw [requested]; exact id) announced

/-- A secondary that offers nothing once its output is recomputed lets the cascade line fall. -/
theorem inStep_of_quiet (marked : q.secondary.unforwarded = true)
    (current : q.secondary.output = q.secondary.pending?.isSome)
    (quiet : q.secondary.pending? = none) : (q.settle ()).pair.InStep := by
  refine inStep_of_relayed marked current fun offered => ?_
  rw [quiet] at offered
  cases offered

/-! ## Ordinary operations -/

/-- A write that keeps the chips in step: neither ICW1 to the primary, nor OCW3 with the special
mask bits to the secondary, nor an ICW4 that switches automatic end of interrupt on in the
secondary. -/
def OrdinaryWrite (p : Pair Wire) (value : UInt8) : Option Register → Prop
  | some (.command .primary) => ¬ (Command.decode value).Initializes
  | some (.command .secondary) => ¬ (Command.decode value).SetsSpecialMask
  | some (.data .secondary) =>
    p.secondary.regs.stage = .awaitingIcw4 → Command.bit value 1 = false
  | none | some (.data .primary) | some (.elcr _) => True

instance (p : Pair Wire) (value : UInt8) (register : Option Register) :
    Decidable (p.OrdinaryWrite value register) :=
  match register with
  | some (.command .primary) => inferInstanceAs (Decidable (¬ _))
  | some (.command .secondary) => inferInstanceAs (Decidable (¬ _))
  | some (.data .secondary) => inferInstanceAs (Decidable (_ = _ → _ = _))
  | none | some (.data .primary) | some (.elcr _) => isTrue trivial

/-- The operations that keep the chips in step. A port read must not poll, and line 2 belongs to
the cascade. -/
def Ordinary (p : Pair Wire) : Operation Wire → Prop
  | .setLine n _ => n ≠ 2
  | .readPort port => ¬ p.Polls port
  | .writePort port value => p.OrdinaryWrite value (p.config.decode? port)
  | .readIntack | .restore _ => False
  | .acknowledge | .acknowledgeIfAsserted | .reset _ | .connect _ | .setCounting _
  | .clearCounts => True

instance (p : Pair Wire) (op : Operation Wire) : Decidable (p.Ordinary op) :=
  match op with
  | .setLine .. => inferInstanceAs (Decidable (_ ≠ _))
  | .readPort port => inferInstanceAs (Decidable (¬ p.Polls port))
  | .writePort port value =>
    inferInstanceAs (Decidable (p.OrdinaryWrite value (p.config.decode? port)))
  | .readIntack | .restore _ => isFalse id
  | .acknowledge | .acknowledgeIfAsserted | .reset _ | .connect _ | .setCounting _
  | .clearCounts => isTrue trivial

/-- The chips are in step and the secondary does without automatic end of interrupt. -/
structure OnOrdinaryPath (p : Pair Wire) : Prop where
  settled : p.Settled
  manual : p.secondary.regs.autoEoi = false
  inStep : p.InStep

/-- An acknowledge cycle takes the request of one line only. -/
theorem mem_irr_acknowledge_of_ne {position : Position} {c : Chip position} {i j : Line}
    (other : j ≠ i) (requested : j ∈ c.regs.irr) : j ∈ (c.acknowledge i).regs.irr :=
  Chip.mem_irr_acknowledge.mpr ⟨requested, fun own => absurd own other⟩

theorem InStep.acknowledge (inStep : p.InStep) (settled : p.Settled)
    (manual : p.secondary.regs.autoEoi = false) (cycle : p.AcknowledgeChange q) :
    (q.settle ()).pair.InStep := by
  cases cycle with
  | idle => exact inStep_of_unrelayed settled.secondary inStep
  | @own i offered notCascade =>
    refine inStep.settle_of_announced settled Iff.rfl ?_ (Chip.announced_refl _)
    exact mem_irr_acknowledge_of_ne (Ne.symm notCascade)
  | spurious offered behind =>
    refine inStep_of_unrelayed settled.secondary ⟨inStep.high_iff, ?_⟩
    intro some
    rw [behind] at some
    cases some
  | cascaded offered behind =>
    exact inStep_of_quiet rfl rfl (Chip.pending?_acknowledge behind manual)

theorem manual_acknowledge (manual : p.secondary.regs.autoEoi = false)
    (cycle : p.AcknowledgeChange q) : q.secondary.regs.autoEoi = false := by
  cases cycle <;> exact manual

/-- Before it settles, an ordinary operation has not switched automatic end of interrupt on. -/
theorem Change.manual {op : Operation Wire} (h : p.Change op q) (ordinary : p.Ordinary op)
    (manual : p.secondary.regs.autoEoi = false) : q.secondary.regs.autoEoi = false := by
  cases h with
  | @line n level h => 
    generalize Line.ofGlobal n = target
    obtain ⟨position, i⟩ := target
    cases position <;> exact manual
  | @writeCommand port value position decoded =>
    cases position with
    | primary => exact manual
    | secondary => exact Chip.autoEoi_writeCommand value manual
  | @writeData port value position decoded =>
    cases position with
    | primary => exact manual
    | secondary =>
      simp only [Ordinary, OrdinaryWrite, decoded] at ordinary
      exact Chip.autoEoi_writeData manual ordinary
  | @writeElcr port value position decoded => cases position <;> exact manual
  | acknowledge cycle | asserted _ cycle => exact manual_acknowledge manual cycle
  | pollPrimary decoded asked | pollCascade decoded asked | pollSecondary decoded asked =>
    exact absurd ⟨_, decoded, asked⟩ ordinary
  | deviceReset | coldReset => rfl
  | intackPrimary | intackSecondary | refused | restored => exact ordinary.elim
  | _ => exact manual

/-- An ordinary operation leaves the chips in step. -/
theorem Change.inStep_settle {op : Operation Wire} (h : p.Change op q) (ordinary : p.Ordinary op)
    (path : p.OnOrdinaryPath) : (q.settle ()).pair.InStep := by
  obtain ⟨settled, manual, inStep⟩ := path
  cases h with
  | @line n level h =>
    have notCascade : Line.ofGlobal n ≠ (.primary, Line.cascade) :=
      fun eq => ordinary (Line.eq_two_of_ofGlobal eq)
    generalize Line.ofGlobal n = target at notCascade
    obtain ⟨position, i⟩ := target
    cases position with
    | primary =>
      have other : Line.cascade ≠ i := fun eq => notCascade (eq ▸ rfl)
      refine inStep.settle_of_announced settled ?_ ?_ (Chip.announced_refl _)
      · exact Chip.mem_lastHigh_setLine.trans (by simp [other])
      · exact fun requested => Chip.mem_irr_setLine.mpr (by simpa [other] using requested)
    | secondary =>
      exact inStep.settle_of_same settled rfl rfl (Chip.announced_setLine ..)
  | @writeCommand port value position decoded =>
    simp only [Ordinary, OrdinaryWrite, decoded] at ordinary
    cases position with
    | primary =>
      exact inStep.settle_of_same settled (Chip.lastHigh_writeCommand ordinary)
        (Chip.irr_writeCommand ordinary) (Chip.announced_refl _)
    | secondary =>
      exact inStep.settle_of_same settled rfl rfl (Chip.announced_writeCommand _ ordinary)
  | @writeData port value position decoded =>
    cases position with
    | primary =>
      exact inStep.settle_of_same settled (Chip.lastHigh_writeData _ value)
        (Chip.irr_writeData _ value) (Chip.announced_refl _)
    | secondary =>
      exact inStep.settle_of_same settled rfl rfl
        (Chip.announced_writeData _ _ (.inl rfl))
  | @writeElcr port value position decoded =>
    cases position with
    | primary =>
      exact inStep.settle_of_same settled rfl rfl (Chip.announced_refl _)
    | secondary =>
      exact inStep.settle_of_same settled rfl rfl (Chip.announced_writeElcr ..)
  | acknowledge cycle | asserted _ cycle => exact inStep.acknowledge settled manual cycle
  | pollPrimary decoded asked | pollCascade decoded asked | pollSecondary decoded asked =>
    exact absurd ⟨_, decoded, asked⟩ ordinary
  | deviceReset | coldReset =>
    exact inStep_of_quiet rfl rfl (Registers.pending?_eq_none_of_irr rfl)
  | intackPrimary | intackSecondary | refused | restored => exact ordinary.elim
  | _ => exact inStep.settle_of_same settled rfl rfl (Chip.announced_refl _)

theorem OnOrdinaryPath.perform {op : Operation Wire} (path : p.OnOrdinaryPath)
    (ordinary : p.Ordinary op) : (p.perform op).pair.OnOrdinaryPath := by
  obtain ⟨q, change, eq⟩ := perform_eq_settle path.settled op
  rw [eq]
  refine ⟨settled_settle q (), ?_, change.inStep_settle ordinary path⟩
  rw [regs_secondary_settle]
  exact change.manual ordinary path.manual

/-- Whatever the wiring, ordinary operations lose no request of the secondary. Start with a
secondary that offers nothing and does without automatic end of interrupt, and a low cascade line.
Then after every step the cascade line is high iff the secondary offers a line, and while it does
the primary has the request latched. -/
theorem inStep_performAll {config : Config} (reachable : Reachable config p)
    (quiet : p.secondary.pending? = none) (manual : p.secondary.regs.autoEoi = false)
    (low : Line.cascade ∉ p.primary.regs.lastHigh) {history : List (Operation Wire)}
    (ordinary : p.Along Ordinary history) :
    ∀ steps, steps <+: history →
      ((p.performAll steps).pair.secondary.pending?.isSome = true →
        Line.cascade ∈ (p.performAll steps).pair.primary.regs.irr ∧
          Line.cascade ∈ (p.performAll steps).pair.primary.regs.lastHigh) ∧
      (Line.cascade ∈ (p.performAll steps).pair.primary.regs.lastHigh →
        (p.performAll steps).pair.secondary.pending?.isSome = true) := by
  intro steps h
  have start : p.OnOrdinaryPath := by
    refine ⟨reachable.sound.settled, manual, ⟨?_, ?_⟩⟩
    · simp [low, quiet]
    · simp [quiet]
  have path : (p.performAll steps).pair.OnOrdinaryPath :=
    (ordinary.of_prefix h).invariant (fun _ _ path ordinary => path.perform ordinary) start
  obtain ⟨high_iff, latched⟩ := path.inStep
  exact ⟨fun some => ⟨latched some, high_iff.mpr some⟩, high_iff.mp⟩

/-- A wiring in which the cascade line can be made level-triggered. -/
def levelCascade : Config := { primary := ⟨0x20, some 0x4D0, .ofByte 0xFF⟩ }

/-- Two requests of the secondary are served one after the other over a level-triggered cascade
line. -/
def twoServices : List (Operation Unit) :=
  [.writePort 0x4D0 0x04, .setLine 9 true, .setLine 8 true, .acknowledge, .setLine 8 false,
    .writePort 0xA0 0x20, .writePort 0x20 0x20, .acknowledge]

theorem inStep_twoServices :
    (new levelCascade).Along Ordinary twoServices ∧
      ∀ steps, steps <+: twoServices →
        (((new levelCascade).performAll steps).pair.secondary.pending?.isSome = true →
          Line.cascade ∈ ((new levelCascade).performAll steps).pair.primary.regs.irr ∧
            Line.cascade ∈ ((new levelCascade).performAll steps).pair.primary.regs.lastHigh) ∧
        (Line.cascade ∈ ((new levelCascade).performAll steps).pair.primary.regs.lastHigh →
          ((new levelCascade).performAll steps).pair.secondary.pending?.isSome = true) :=
  ⟨by decide, inStep_performAll ⟨[], rfl⟩ (by decide) rfl (by decide) (by decide)⟩

/-! ## Taking a request of the secondary -/

/-- The operations that can take a request of the secondary: an acknowledge cycle, a poll of the
whole pair, and a poll of the secondary. -/
def ServesSecondary (p : Pair Wire) : Operation Wire → Prop
  | .acknowledge | .readIntack => True
  | .readPort port =>
    p.config.decode? port = some (.command .secondary) ∧ p.secondary.regs.poll = true
  | _ => False

/-- The operation, one of those above, takes the request that the secondary offers. -/
def TakesRequest (p : Pair Wire) : Operation Wire → Prop
  | .acknowledge | .readIntack => p.primary.pending? = some Line.cascade
  | _ => True

/-- A taken request of the cascade line is raised again by the next one iff the cascade line is
level-triggered or was low. -/
theorem mem_irr_settle_of_relayed (marked : q.secondary.unforwarded = true)
    (current : q.secondary.output = q.secondary.pending?.isSome)
    (still : q.secondary.pending?.isSome = true)
    (taken : Line.cascade ∈ q.primary.regs.irr → Line.cascade ∈ q.primary.regs.elcr) :
    Line.cascade ∈ (q.settle ()).pair.primary.regs.irr ↔
      Line.cascade ∈ q.primary.regs.elcr ∨ Line.cascade ∉ q.primary.regs.lastHigh := by
  have regs : (q.settle ()).pair.primary.regs = (q.primary.setLine Line.cascade true).regs := by
    simp [regs_primary_settle, marked, current, still]
  rw [regs, Chip.mem_irr_setLine]
  simp only [if_true, true_and]
  split
  · rename_i level
    simp [level]
  · rename_i edge
    have gone : Line.cascade ∉ q.primary.regs.irr := fun requested => edge (taken requested)
    simp [edge, gone]

theorem mem_irr_settle_of_unrelayed (idle : q.secondary.unforwarded = false)
    (requested : Line.cascade ∈ q.primary.regs.irr) :
    Line.cascade ∈ (q.settle ()).pair.primary.regs.irr := by
  rw [regs_primary_settle, idle]
  exact requested

theorem not_mem_irr_retire {position : Position} (c : Chip position) (i : Line) :
    i ∉ (c.retire i).regs.irr := by
  simp [Chip.retire]

/-- An acknowledge cycle keeps the request of the cascade line if it takes a line of the primary.
If it takes the request, a further one of the secondary has to be a new edge. -/
theorem mem_irr_cascade_acknowledge_iff (settled : p.Settled) {j : Line}
    (offered : p.secondary.pending? = some j) (requested : Line.cascade ∈ p.primary.regs.irr)
    (cycle : p.AcknowledgeChange q) (still : q.secondary.pending?.isSome = true) :
    Line.cascade ∈ (q.settle ()).pair.primary.regs.irr ↔
      (p.primary.pending? = some Line.cascade →
        Line.cascade ∈ p.primary.regs.elcr ∨ Line.cascade ∉ p.primary.regs.lastHigh) := by
  cases cycle with
  | idle none =>
    have kept := mem_irr_settle_of_unrelayed settled.secondary requested
    simp [kept, none]
  | @own i own notCascade =>
    have other := mem_irr_acknowledge_of_ne (Ne.symm notCascade) requested
    have kept := mem_irr_settle_of_unrelayed
      (q := { p with primary := p.primary.acknowledge i }) settled.secondary other
    simp [kept, own, notCascade]
  | spurious _ behind => cases offered.symm.trans behind
  | cascaded taken behind =>
    simp only [taken, true_implies]
    exact mem_irr_settle_of_relayed rfl rfl still fun left =>
      (Chip.mem_irr_acknowledge.mp left).2 rfl

/-- A poll of the primary that does not find the cascade line leaves its request. -/
theorem PrimaryPoll.keeps_cascade (poll : p.PrimaryPoll q)
    (requested : Line.cascade ∈ p.primary.regs.irr) :
    Line.cascade ∈ q.primary.regs.irr ∧ p.primary.pending? ≠ some Line.cascade ∧
      q.secondary = p.secondary := by
  cases poll with
  | idle none => exact ⟨requested, by simp [none], rfl⟩
  | own own notCascade =>
    exact ⟨LineSet.mem_erase.mpr ⟨Ne.symm notCascade, requested⟩, by simp [own, notCascade], rfl⟩

/-- Suppose that the secondary offers a line and its request is latched at the primary. If the
secondary still offers a line after an acknowledge cycle or a poll, then the primary still has the
request latched, except when the operation took the request while the cascade line was high and
edge-triggered: the line stays high, so the next request is no edge. -/
theorem mem_irr_cascade_perform_iff {config : Config} (reachable : Reachable config p)
    (offered : p.secondary.pending?.isSome = true) (requested : Line.cascade ∈ p.primary.regs.irr)
    {op : Operation Wire} (serves : p.ServesSecondary op)
    (still : (p.perform op).pair.secondary.pending?.isSome = true) :
    Line.cascade ∈ (p.perform op).pair.primary.regs.irr ↔
      (p.TakesRequest op →
        Line.cascade ∈ p.primary.regs.elcr ∨ Line.cascade ∉ p.primary.regs.lastHigh) := by
  have settled := reachable.sound.settled
  obtain ⟨j, offered⟩ := Option.isSome_iff_exists.mp offered
  obtain ⟨q, change, eq⟩ := perform_eq_settle settled op
  rw [eq, pending?_secondary_settle] at still
  rw [eq]
  cases change with
  | acknowledge cycle =>
    exact mem_irr_cascade_acknowledge_iff settled offered requested cycle still
  | @intackPrimary q poll =>
    obtain ⟨kept, notCascade, same⟩ := poll.keeps_cascade requested
    have idle : q.secondary.unforwarded = false := same ▸ settled.secondary
    have left := mem_irr_settle_of_unrelayed
      (q := { q with primary := q.primary.modify Registers.showingIsr }) idle kept
    simp [left, TakesRequest, notCascade]
  | intackSecondary taken poll =>
    cases poll with
    | idle none => cases offered.symm.trans none
    | own =>
      simp only [TakesRequest, taken, true_implies]
      exact mem_irr_settle_of_relayed rfl rfl still
        fun left => absurd left (not_mem_irr_retire _ _)
  | read quiet => exact absurd ⟨_, serves⟩ quiet
  | pollPrimary decoded | pollCascade decoded => cases decoded.symm.trans serves.1
  | pollSecondary decoded asked poll =>
    cases poll with
    | idle none => cases offered.symm.trans none
    | own =>
      simp only [TakesRequest, true_implies]
      exact mem_irr_settle_of_relayed rfl rfl still
        fun left => absurd left (not_mem_irr_retire _ _)
  | _ => exact serves.elim

/-- Lines 8 and 9 request service of a secondary with automatic end of interrupt. -/
def twoRequests : List (Operation Unit) :=
  [.writePort 0xA0 0x11, .writePort 0xA1 0x70, .writePort 0xA1 0x02, .writePort 0xA1 0x03,
    .setLine 8 true, .setLine 9 true]

/-- Over a level-triggered cascade line, the second request survives an acknowledge cycle. -/
theorem mem_irr_cascade_twoRequests :
    let p := ((new levelCascade).performAll (.writePort 0x4D0 0x04 :: twoRequests)).pair
    p.secondary.pending?.isSome = true ∧ Line.cascade ∈ p.primary.regs.irr ∧
      (p.perform .acknowledge).pair.secondary.pending?.isSome = true ∧
        Line.cascade ∈ (p.perform .acknowledge).pair.primary.regs.irr := by
  have serves : ServesSecondary
      ((new levelCascade).performAll (.writePort 0x4D0 0x04 :: twoRequests)).pair .acknowledge :=
    trivial
  refine ⟨by decide, by decide, by decide, ?_⟩
  refine (mem_irr_cascade_perform_iff ⟨_, rfl⟩ ?_ ?_ serves ?_).mpr fun _ => .inl ?_
  all_goals decide

/-- Over an edge-triggered one it is lost to the primary: the secondary goes on offering line 9,
but the primary has no request of it. -/
theorem not_mem_irr_cascade_twoRequests :
    ∃ p : Pair Unit, Reachable {} p ∧ p.secondary.pending?.isSome = true ∧
      Line.cascade ∈ p.primary.regs.irr ∧
      ∀ op ∈ [Operation.acknowledge, .readIntack],
        (p.perform op).pair.secondary.pending?.isSome = true ∧
          Line.cascade ∉ (p.perform op).pair.primary.regs.irr :=
  ⟨_, ⟨twoRequests, rfl⟩, by decide⟩

end Pair

end PicCascade
