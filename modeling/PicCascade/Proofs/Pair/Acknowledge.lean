import PicCascade.Proofs.Chip.Selection
import PicCascade.Proofs.Pair.Notification

/-!
# The acknowledge cycle

What the processor gets from an acknowledge cycle and what the cycle leaves behind, in terms of the
lines that the two chips select. The primary answers for its own lines. When it selects the cascade
line, the secondary answers, with the line that it selects or, if it selects none any more, with
line 7. Whoever answers, the line that the primary selected is acknowledged. If the secondary was
acknowledged as well, its output is then put on the cascade line.

Results:
* `driven_settle`: what settling adds to a cycle of the secondary.
* `acknowledge_exact`: all of a cycle, for every reachable pair.
-/

namespace PicCascade

namespace Chip

variable {position : Position}

theorem driven_setLine (c : Chip position) (i : Line) (level : Bool) :
    c.regs.Driven i (level = true) (c.setLine i level).regs where
  lastHigh _ := mem_lastHigh_setLine
  irr j := by
    rw [mem_irr_setLine]
    simp only [or_comm]
  others := rfl

end Chip

namespace Pair

variable {Wire : Type} {p : Pair Wire} {i j : Line}

/-! ## What settling adds to a cycle -/

/-- A recomputed output of the secondary is put on the cascade line. -/
theorem driven_settle {α : Type} {q : Pair Wire} (a : α) (recomputed : q.secondary.Recomputed) :
    q.primary.regs.Driven Line.cascade (∃ k, q.secondary.regs.Selects .secondary k)
      (q.settle a).pair.primary.regs := by
  have selects : q.secondary.output = true ↔ ∃ k, q.secondary.regs.Selects .secondary k := by
    rw [recomputed.current]
    exact Registers.isSome_pending?_iff_selects
  rw [regs_primary_settle, if_pos recomputed.marked, ← propext selects]
  exact q.primary.driven_setLine Line.cascade q.secondary.output

/-! ## All of a cycle -/

/-- The outcome `o` is that of an acknowledge cycle of `p`. -/
structure Cycled (p : Pair Wire) (o : Outcome Wire UInt8) : Prop where
  /-- If the primary selects nothing, its line 7 is reported, and nothing changes. -/
  idle : (∀ i, ¬ p.primary.regs.Selects .primary i) → o = ⟨p.primary.regs.base + 7, p, []⟩
  /-- A line of its own is acknowledged by the primary. -/
  own : ∀ i, p.primary.regs.Selects .primary i → i ≠ Line.cascade →
    o.answer = p.primary.regs.base + Line.toByte i ∧
      p.primary.regs.Acknowledged i o.pair.primary.regs ∧ o.pair.secondary = p.secondary
  /-- If the secondary has nothing left behind the cascade line, its line 7 is reported, and the
  primary acknowledges the cascade line. -/
  spurious : p.primary.regs.Selects .primary Line.cascade →
    (∀ j, ¬ p.secondary.regs.Selects .secondary j) →
    o.answer = p.secondary.regs.base + 7 ∧
      p.primary.regs.Acknowledged Line.cascade o.pair.primary.regs ∧
        o.pair.secondary = p.secondary
  /-- A line of the secondary is acknowledged by both chips. Then the cascade line is driven, to
  high if the secondary selects a further line. -/
  cascaded : p.primary.regs.Selects .primary Line.cascade →
    ∀ j, p.secondary.regs.Selects .secondary j →
    o.answer = p.secondary.regs.base + Line.toByte j ∧
      p.secondary.regs.Acknowledged j o.pair.secondary.regs ∧
        ∃ r, p.primary.regs.Acknowledged Line.cascade r ∧
          r.Driven Line.cascade (∃ k, o.pair.secondary.regs.Selects .secondary k)
            o.pair.primary.regs
  /-- The wire is high afterwards iff the primary selects a further line. -/
  level : (∃ i, p.primary.regs.Selects .primary i) →
    (o.pair.level = true ↔ ∃ k, o.pair.primary.regs.Selects .primary k)
  driven : o.driven = if o.pair.level = p.level then [] else p.wire.toList.map (·, o.pair.level)
  config : o.pair.config = p.config
  wire : o.pair.wire = p.wire
  counters : o.pair.counters = p.counters

theorem acknowledge_of_selects_none (settled : p.Settled)
    (none : ∀ i, ¬ p.primary.regs.Selects .primary i) :
    p.acknowledge = ⟨p.primary.regs.base + 7, p, []⟩ := by
  have offered : p.primary.pending? = .none := Registers.pending?_eq_none_iff_selects.mpr none
  exact acknowledge_of_idle settled offered

theorem acknowledge_of_selects_own (settled : p.Settled)
    (selects : p.primary.regs.Selects .primary i) (notCascade : i ≠ Line.cascade) :
    p.acknowledge.answer = p.primary.regs.base + Line.toByte i ∧
      p.primary.regs.Acknowledged i p.acknowledge.pair.primary.regs ∧
        p.acknowledge.pair.secondary = p.secondary := by
  have offered : p.primary.pending? = some i := Registers.pending?_eq_some_iff_selects.mpr selects
  rw [acknowledge_of_own offered notCascade,
    pair_settle_primary _ settled (Chip.recomputed_acknowledge ..)]
  exact ⟨rfl, p.primary.acknowledged_acknowledge i, rfl⟩

theorem acknowledge_of_selects_cascade (settled : p.Settled)
    (selects : p.primary.regs.Selects .primary Line.cascade)
    (none : ∀ j, ¬ p.secondary.regs.Selects .secondary j) :
    p.acknowledge.answer = p.secondary.regs.base + 7 ∧
      p.primary.regs.Acknowledged Line.cascade p.acknowledge.pair.primary.regs ∧
        p.acknowledge.pair.secondary = p.secondary := by
  have offered : p.primary.pending? = some Line.cascade :=
    Registers.pending?_eq_some_iff_selects.mpr selects
  have behind : p.secondary.pending? = .none := Registers.pending?_eq_none_iff_selects.mpr none
  rw [acknowledge_of_spurious offered behind,
    pair_settle_primary _ settled (Chip.recomputed_acknowledge ..)]
  exact ⟨rfl, p.primary.acknowledged_acknowledge Line.cascade, rfl⟩

theorem acknowledge_of_selects_secondary (selects : p.primary.regs.Selects .primary Line.cascade)
    (selects' : p.secondary.regs.Selects .secondary j) :
    p.acknowledge.answer = p.secondary.regs.base + Line.toByte j ∧
      p.secondary.regs.Acknowledged j p.acknowledge.pair.secondary.regs ∧
        ∃ r, p.primary.regs.Acknowledged Line.cascade r ∧
          r.Driven Line.cascade
            (∃ k, p.acknowledge.pair.secondary.regs.Selects .secondary k)
            p.acknowledge.pair.primary.regs := by
  have offered : p.primary.pending? = some Line.cascade :=
    Registers.pending?_eq_some_iff_selects.mpr selects
  have behind : p.secondary.pending? = some j :=
    Registers.pending?_eq_some_iff_selects.mpr selects'
  rw [acknowledge_of_cascaded offered behind, regs_secondary_settle]
  refine ⟨rfl, p.secondary.acknowledged_acknowledge j, (p.primary.acknowledge Line.cascade).regs,
    p.primary.acknowledged_acknowledge Line.cascade, ?_⟩
  exact driven_settle _ (Chip.recomputed_acknowledge ..)

/-- If the primary offers a line, its output is recomputed and forwarded. -/
theorem level_acknowledge (settled : p.Settled) (asks : p.output = true) :
    p.acknowledge.pair.level = p.acknowledge.pair.output := by
  have level : p.acknowledge.pair.level =
      if p.output then p.acknowledge.pair.output else p.level := level_perform settled .acknowledge
  rw [level, if_pos asks]

theorem counters_acknowledge (p : Pair Wire) : p.acknowledge.pair.counters = p.counters := by
  obtain ⟨q, cycle, eq⟩ := acknowledge_eq_settle (p := p)
  rw [eq, counters_settle]
  cases cycle <;> rfl

/-- In every reachable pair the lines that the chips offer are those that they select, and an
acknowledge cycle does what the selected lines ask for. -/
theorem acknowledge_exact {config : Config} (reachable : Reachable config p) :
    (∀ position i, (p.chip position).pending? = some i ↔
      (p.chip position).regs.Selects position i) ∧
    p.Cycled p.acknowledge := by
  have settled := reachable.sound.settled
  refine ⟨fun position i => Registers.pending?_eq_some_iff_selects, ?_⟩
  constructor
  case idle => exact acknowledge_of_selects_none settled
  case own => exact fun i => acknowledge_of_selects_own settled
  case spurious => exact acknowledge_of_selects_cascade settled
  case cascaded => exact fun selects j => acknowledge_of_selects_secondary selects
  case level =>
    intro selects
    have asks : p.output = true := Registers.isSome_pending?_iff_selects.mpr selects
    rw [level_acknowledge settled asks]
    exact Registers.isSome_pending?_iff_selects
  case driven => exact (follows_acknowledge p).driven
  case wire => exact (follows_acknowledge p).wire
  case config => exact config_perform settled .acknowledge
  case counters => exact counters_acknowledge p

/-- The primary is in special fully nested mode, and the secondary gives line 12 the lowest priority.
Line 14 requests service while line 12 is in service. -/
def nestedSecondary : List (Operation Unit) :=
  [.writePort 0x20 0x11, .writePort 0x21 0x20, .writePort 0x21 0x04, .writePort 0x21 0x11,
    .writePort 0xA0 0x11, .writePort 0xA1 0x70, .writePort 0xA1 0x02, .writePort 0xA1 0x01,
    .writePort 0xA0 0xC4, .setLine 12 true, .acknowledge, .setLine 14 true]

/-- Line 14 interrupts the service of line 12, and the cascade line falls. -/
theorem acknowledge_exact_nestedSecondary :
    let p := ((new {}).performAll nestedSecondary).pair
    p.primary.regs.Selects .primary Line.cascade ∧
      p.secondary.regs.Selects .secondary (Line.ofByte 6) ∧
      p.acknowledge.answer = 0x76 ∧
      p.secondary.regs.Acknowledged (Line.ofByte 6) p.acknowledge.pair.secondary.regs ∧
      Line.cascade ∉ p.acknowledge.pair.primary.regs.irr ∧
      Line.cascade ∉ p.acknowledge.pair.primary.regs.lastHigh := by
  intro p
  obtain ⟨offers, cycled⟩ := acknowledge_exact (p := p) ⟨nestedSecondary, rfl⟩
  have cascade : p.primary.regs.Selects .primary Line.cascade :=
    (offers .primary _).mp (by decide +kernel)
  have behind : p.secondary.regs.Selects .secondary (Line.ofByte 6) :=
    (offers .secondary _).mp (by decide +kernel)
  have base : p.secondary.regs.base = 0x70 := by decide +kernel
  obtain ⟨answer, acknowledged, -⟩ := cycled.cascaded cascade _ behind
  rw [base] at answer
  exact ⟨cascade, behind, answer, acknowledged, by decide +kernel, by decide +kernel⟩

/-! ## Looking before the cycle -/

/-- The pair shows a vector iff it asks for service. -/
theorem isSome_pendingVector? (p : Pair Wire) : p.pendingVector?.isSome = p.output :=
  Option.isSome_map

/-- The vector that is shown is the one that a cycle answers. -/
theorem answer_acknowledge_of_pendingVector? {v : UInt8} (shown : p.pendingVector? = some v) :
    p.acknowledge.answer = v := by
  obtain ⟨i, offered, vector⟩ := Option.map_eq_some_iff.mp shown
  by_cases cascade : i = Line.cascade
  · subst cascade
    rw [if_pos rfl] at vector
    cases behind : p.secondary.pending? with
    | none =>
      rw [behind] at vector
      rw [acknowledge_of_spurious offered behind]
      exact vector
    | some j =>
      rw [behind] at vector
      rw [acknowledge_of_cascaded offered behind]
      exact vector
  · rw [if_neg cascade] at vector
    rw [acknowledge_of_own offered cascade]
    exact vector

theorem pending?_of_pendingVector? (shown : p.pendingVector? = none) :
    p.primary.pending? = none := Option.map_eq_none_iff.mp shown

/-- The conditional cycle is a cycle if a vector is shown. -/
theorem acknowledgeIfAsserted_of_some {v : UInt8} (shown : p.pendingVector? = some v) :
    p.acknowledgeIfAsserted = p.acknowledge.map some := by
  have asks : p.output = true := by rw [← isSome_pendingVector?, shown, Option.isSome_some]
  rw [acknowledgeIfAsserted, if_pos asks]

/-- It does nothing otherwise. -/
theorem acknowledgeIfAsserted_of_none (shown : p.pendingVector? = none) :
    p.acknowledgeIfAsserted = ⟨none, p, []⟩ := by
  have asks : p.output = false := by rw [← isSome_pendingVector?, shown, Option.isSome_none]
  rw [acknowledgeIfAsserted, asks]
  rfl

end Pair

end PicCascade
