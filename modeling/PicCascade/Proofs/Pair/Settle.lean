import PicCascade.Pair.Ports
import PicCascade.Pair.Saved
import PicCascade.Proofs.Chip.Output

/-!
# Settling a pair

Every operation ends by settling the pair. This puts a recomputed output of the secondary on the
cascade line, which recomputes the output of the primary, and then drives a recomputed output of
the primary onto the wire.

Results:
* `settled_settle`: afterwards no output is left unforwarded.
* `settle_of_settled`: settling once more changes nothing.
* `level_settle`: if the change of the primary was announced, or the secondary's output was
  recomputed, the wire ends up at the level that the primary's arbitration asks for.
* `pair_settle_primary`: if only the output of the primary was recomputed, the registers of the primary
  tell the settled pair.
* `follows_settle`: the wire is driven iff its level changes.
-/

namespace PicCascade

/-! ## A request line of one chip -/

namespace Chip

variable {position : Position}

theorem mem_lastHigh_setLine {c : Chip position} {i j : Line} {level : Bool} :
    j ∈ (c.setLine i level).regs.lastHigh ↔ if j = i then level = true else j ∈ c.regs.lastHigh :=
  LineSet.mem_put

theorem mem_irr_setLine {c : Chip position} {i j : Line} {level : Bool} :
    j ∈ (c.setLine i level).regs.irr ↔
      if j = i then
        if i ∈ c.regs.elcr then level = true
        else (level = true ∧ i ∉ c.regs.lastHigh) ∨ i ∈ c.regs.irr
      else j ∈ c.regs.irr := by
  simp only [setLine, regs_refresh, regs_modify]
  by_cases h : i ∈ c.regs.elcr
  · simp [h]
  · by_cases rises : level = true ∧ i ∉ c.regs.lastHigh
    · by_cases hj : j = i <;> simp [h, rises, hj]
    · by_cases hj : j = i <;> simp [h, rises, hj]

end Chip

namespace Pair

variable {Wire α β : Type}

/-- No recomputed output waits to be forwarded. -/
structure Settled (p : Pair Wire) : Prop where
  primary : p.primary.unforwarded = false
  secondary : p.secondary.unforwarded = false

/-! ## What settling keeps -/

@[simp]
theorem config_settle (p : Pair Wire) (a : α) : (p.settle a).pair.config = p.config := by
  simp only [settle, drive, relay]
  split <;> split <;> rfl

@[simp]
theorem counters_settle (p : Pair Wire) (a : α) : (p.settle a).pair.counters = p.counters := by
  simp only [settle, drive, relay]
  split <;> split <;> rfl

@[simp]
theorem wire_settle (p : Pair Wire) (a : α) : (p.settle a).pair.wire = p.wire := by
  simp only [settle, drive, relay]
  split <;> split <;> rfl

/-- Whether or not it was put on the cascade line, the output of the secondary counts as forwarded
afterwards. -/
theorem secondary_settle (p : Pair Wire) (a : α) :
    (p.settle a).pair.secondary = p.secondary.forwarded := by
  have driven : p.relay.drive.secondary = p.relay.secondary := by
    unfold drive
    split <;> rfl
  show p.relay.drive.secondary = p.secondary.forwarded
  rw [driven]
  unfold relay
  split
  · rfl
  · rename_i idle
    exact (Chip.forwarded_of_idle (by simpa using idle)).symm

@[simp]
theorem regs_secondary_settle (p : Pair Wire) (a : α) :
    (p.settle a).pair.secondary.regs = p.secondary.regs := by
  rw [secondary_settle, Chip.regs_forwarded]

theorem pending?_secondary_settle (p : Pair Wire) (a : α) :
    (p.settle a).pair.secondary.pending? = p.secondary.pending? := by
  simp only [Chip.pending?, regs_secondary_settle]

/-- The primary sees the cascade line change if the secondary's output was recomputed. -/
theorem regs_primary_settle (p : Pair Wire) (a : α) :
    (p.settle a).pair.primary.regs =
      if p.secondary.unforwarded then (p.primary.setLine Line.cascade p.secondary.output).regs
      else p.primary.regs := by
  simp only [settle, drive, relay]
  split <;> split <;> rfl

/-- Of the registers of a chip, settling touches only the requests and the edge detectors. -/
theorem regs_chip_settle (p : Pair Wire) (a : α) (position : Position) :
    ∃ irr lastHigh, ((p.settle a).pair.chip position).regs =
      { (p.chip position).regs with irr, lastHigh } := by
  cases position with
  | primary =>
    simp only [chip, regs_primary_settle]
    split
    · exact ⟨_, _, rfl⟩
    · exact ⟨_, _, rfl⟩
  | secondary => exact ⟨_, _, regs_secondary_settle p a⟩

/-- The lines in service stay the same. -/
theorem isr_settle (p : Pair Wire) (a : α) (position : Position) :
    ((p.settle a).pair.chip position).regs.isr = (p.chip position).regs.isr := by
  obtain ⟨irr, lastHigh, regs⟩ := regs_chip_settle p a position
  rw [regs]

/-- The cascade line is edge- or level-triggered as before. -/
@[simp]
theorem elcr_primary_settle (p : Pair Wire) (a : α) :
    (p.settle a).pair.primary.regs.elcr = p.primary.regs.elcr := by
  rw [regs_primary_settle]
  split <;> rfl

/-! ## What settling establishes -/

theorem settled_settle (p : Pair Wire) (a : α) : (p.settle a).pair.Settled := by
  constructor
  · simp only [settle, drive]
    split
    · rfl
    · rename_i h
      simpa using h
  · have relayed : p.relay.secondary.unforwarded = false := by
      unfold relay
      split
      · rfl
      · rename_i h
        simpa using h
    simp only [settle, drive]
    split <;> exact relayed

theorem settle_of_settled {p : Pair Wire} (h : p.Settled) (a : α) :
    p.settle a = ⟨a, p, []⟩ := by
  simp [settle, drive, relay, toDrive, h.primary, h.secondary]

theorem level_settle_of_recomputed {p : Pair Wire} (a : α) (marked : p.primary.unforwarded = true)
    (current : p.primary.output = p.output) :
    (p.settle a).pair.level = (p.settle a).pair.output := by
  unfold output at current ⊢
  simp only [settle, drive, relay]
  split
  · rfl
  · exact current

theorem level_settle_of_relayed {p : Pair Wire} (a : α) (marked : p.secondary.unforwarded = true) :
    (p.settle a).pair.level = (p.settle a).pair.output := by
  simp only [settle, drive, relay, marked]
  rfl

/-- If the wire was at the level that arbitration asks for and the change of the primary is
announced, the wire is at that level again once the pair has settled. -/
theorem level_settle {p q : Pair Wire} (a : α) (settled : p.Settled) (level : p.level = p.output)
    (kept : q.level = p.level) (announced : p.primary.Announced q.primary) :
    (q.settle a).pair.level = (q.settle a).pair.output := by
  by_cases relayed : q.secondary.unforwarded = true
  · exact level_settle_of_relayed a relayed
  · cases announced with
    | recomputed marked current => exact level_settle_of_recomputed a marked current
    | unchanged mark latch offered =>
      have idle : q.Settled := ⟨mark.trans settled.primary, by simpa using relayed⟩
      rw [settle_of_settled idle, kept, level, output, output, offered]

/-! ## When only the primary has changed -/

/-- The settled pair whose primary has the given registers and a recomputed output. -/
def withPrimary (p : Pair Wire) (r : Registers) : Pair Wire :=
  let primary : Chip .primary := { regs := r, output := (r.pending? .primary).isSome }
  { p with primary, level := primary.output }

/-- When only the output of the primary has been recomputed, settling drives it. -/
theorem pair_settle_primary {p : Pair Wire} (a : α) (settled : p.Settled) {c : Chip .primary}
    (recomputed : c.Recomputed) :
    (settle { p with primary := c } a).pair = p.withPrimary c.regs := by
  have relay : relay { p with primary := c } = { p with primary := c } := by
    simp [relay, settled.secondary]
  have forwarded : c.forwarded = { regs := c.regs, output := c.pending?.isSome } := by
    rw [← recomputed.current]
    rfl
  rw [settle, relay, drive, if_pos recomputed.marked, forwarded, recomputed.current]
  rfl

/-! ## What settling drives -/

/-- The outcome keeps the wire, and drives it iff the level differs from that of `p`. -/
structure Follows (p : Pair Wire) (o : Outcome Wire α) : Prop where
  wire : o.pair.wire = p.wire
  driven : o.driven =
    if o.pair.level = p.level then [] else p.wire.toList.map (·, o.pair.level)

variable {p q : Pair Wire}

theorem Follows.map {o : Outcome Wire α} (h : p.Follows o) (f : α → β) : p.Follows (o.map f) :=
  ⟨h.wire, h.driven⟩

/-- `q` has the wire of `p`, last driven to the same level. -/
structure SameWire (p q : Pair Wire) : Prop where
  wire : q.wire = p.wire
  level : q.level = p.level

/-- Without settling nothing is driven. -/
theorem follows_idle (h : p.SameWire q) (a : α) : p.Follows ⟨a, q, []⟩ :=
  ⟨h.wire, (if_pos h.level).symm⟩

/-- Settling drives the wire iff the level changes. -/
theorem follows_settle (h : p.SameWire q) (a : α) : p.Follows (q.settle a) := by
  have relayWire : q.relay.wire = q.wire := by
    unfold relay
    split <;> rfl
  have relayLevel : q.relay.level = q.level := by
    unfold relay
    split <;> rfl
  refine ⟨(wire_settle q a).trans h.wire, ?_⟩
  show q.relay.toDrive =
    if q.relay.drive.level = p.level then [] else p.wire.toList.map (·, q.relay.drive.level)
  rw [← h.wire, ← h.level, ← relayWire, ← relayLevel]
  cases waiting : q.relay.primary.unforwarded with
  | false =>
    have still : q.relay.drive = q.relay := by simp [drive, waiting]
    rw [still, if_pos rfl]
    simp [toDrive, waiting]
  | true =>
    have driven : q.relay.drive.level = q.relay.primary.output := by simp [drive, waiting]
    rw [driven]
    by_cases same : q.relay.primary.output = q.relay.level
    · rw [if_pos same]
      simp [toDrive, same]
    · rw [if_neg same]
      simp [toDrive, waiting, same]

end Pair

end PicCascade
