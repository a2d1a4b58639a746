import PicCascade.Proofs.Chip.Service
import PicCascade.Proofs.Pair.Requests

/-!
# No starvation under automatic rotation

With automatic end of interrupt and rotation, each acknowledged line of the primary drops to the
lowest priority. The rank of a line that waits then falls with every acknowledge cycle that serves
another line: the line served had a lower rank, and the ranks are counted from the line behind it
afterwards. Since no rank exceeds 7, the waiting line is served at the eighth cycle at the latest,
whatever other lines request meanwhile.

Results:
* `Registers.Awaits.offers`: while a line waits, the primary offers it or a line of a lower rank.
* `awaits_perform_acknowledge`, `awaits_perform`: what one operation does to the rank of the
  waiting line.
* `served_within_eight`: how soon the line is served.
-/

namespace PicCascade

/-- After another line has been served and has dropped to the lowest priority, a line that had to
wait for it has a lower rank than before. -/
theorem Line.rank_next_lt {top i m : Line} (least : (rank top i).val ≤ (rank top m).val)
    (other : i ≠ m) : (rank (next i) m).val < (rank top m).val := by
  revert top i m
  decide

/-- The chip ends services by itself and rotates, nothing is in service, and the line requests
service and is not masked. -/
structure Registers.Awaits (m : Line) (r : Registers) : Prop where
  ready : r.stage = .ready
  idle : r.isr = ∅
  autoEoi : r.autoEoi = true
  rotates : r.rotateOnAutoEoi = true
  requested : m ∈ r.irr
  unmasked : m ∉ r.imr

namespace Registers.Awaits

variable {position : Position} {r : Registers} {m : Line}

/-- Nothing blocks a waiting line, so the chip offers the line of the least rank. -/
theorem offers (h : r.Awaits m) :
    ∃ i, r.pending? position = some i ∧ (Line.rank r.top i).val ≤ (Line.rank r.top m).val := by
  have candidate : m ∈ r.candidates := LineSet.mem_sdiff.mpr ⟨h.requested, h.unmasked⟩
  cases found : r.candidates.highest? r.top with
  | none =>
    rw [LineSet.highest?_eq_none_iff.mp found] at candidate
    exact absurd candidate (LineSet.not_mem_empty m)
  | some i =>
    obtain ⟨mem, least⟩ := LineSet.highest?_eq_some_iff.mp found
    refine ⟨i, pending?_eq_some_iff.mpr ⟨⟨mem, least⟩, ?_⟩, least m candidate⟩
    intro j blocks
    have served := (mem_blocking.mp blocks).1
    rw [h.idle] at served
    exact absurd served (LineSet.not_mem_empty j)

/-- The line goes on waiting if its request is still there and nothing but the requests and the edge
detectors has changed. -/
theorem withInputs (h : r.Awaits m) {irr lastHigh : LineSet 8} (requested : m ∈ irr) :
    Awaits m { r with irr, lastHigh } :=
  ⟨h.ready, h.idle, h.autoEoi, h.rotates, requested, h.unmasked⟩

end Registers.Awaits

namespace Chip

variable {position : Position} {c : Chip position} {m i : Line}

/-- While another line is served, the line goes on waiting. -/
theorem awaits_acknowledge (h : c.regs.Awaits m) (other : i ≠ m) :
    (c.acknowledge i).regs.Awaits m := by
  have requested : m ∈ (c.acknowledge i).regs.irr :=
    mem_irr_acknowledge.mpr ⟨h.requested, fun own => absurd own.symm other⟩
  refine ⟨h.ready, ?_, h.autoEoi, h.rotates, requested, h.unmasked⟩
  simp [acknowledge, h.autoEoi, h.idle]

theorem top_acknowledge (h : c.regs.Awaits m) : (c.acknowledge i).regs.top = Line.next i := by
  simp [acknowledge, h.autoEoi, h.rotates]

/-- A data write sets the masks. -/
theorem awaits_writeData (h : c.regs.Awaits m) {value : UInt8}
    (unmasked : m ∉ LineSet.ofByte value) : (c.writeData value).regs.Awaits m := by
  have regs : (c.writeData value).regs = { c.regs with imr := .ofByte value } := by
    rw [writeData, h.ready]
    rfl
  rw [regs]
  exact { h with unmasked }

theorem top_writeData (c : Chip position) (value : UInt8) :
    (c.writeData value).regs.top = c.regs.top := by
  obtain ⟨_, _, _, _, _, regs⟩ := c.regs_writeData value
  rw [regs]

end Chip

namespace Pair

variable {Wire : Type} {p q : Pair Wire} {op : Operation Wire} {m i : Line}

/-! ## One operation -/

/-- The operation drives a line, acknowledges, or sets the masks of the primary. It does not mask
the line `m`, and does not take back its request either. For an edge-triggered line other than the
cascade line, driving lines never does. -/
def RotationStep (m : Line) (p : Pair Wire) : Operation Wire → Prop
  | .setLine n level =>
    m ∈ p.primary.regs.elcr ∨ m = Line.cascade → m ∈ p.primary.regs.irr →
      m ∈ (p.perform (.setLine n level)).pair.primary.regs.irr
  | .writePort port value =>
    p.config.decode? port = some (.data .primary) ∧ m ∉ LineSet.ofByte value
  | .acknowledge => True
  | _ => False

instance (m : Line) (p : Pair Wire) (op : Operation Wire) : Decidable (RotationStep m p op) :=
  match op with
  | .setLine .. => inferInstanceAs (Decidable (_ → _ → _))
  | .writePort .. => inferInstanceAs (Decidable (_ ∧ _))
  | .acknowledge => isTrue trivial
  | .readPort _ | .acknowledgeIfAsserted | .readIntack | .reset _ | .restore _ | .connect _
  | .setCounting _ | .clearCounts => isFalse id

/-- Settling keeps the requests of the primary, but for the cascade line if the output of the
secondary was recomputed. -/
theorem mem_irr_primary_settle {α : Type} (a : α)
    (quiet : q.secondary.unforwarded = false ∨ m ≠ Line.cascade) :
    m ∈ (q.settle a).pair.primary.regs.irr ↔ m ∈ q.primary.regs.irr := by
  rw [regs_primary_settle]
  split
  · rename_i relayed
    have other : m ≠ Line.cascade := quiet.resolve_left (by simp [relayed])
    rw [Chip.mem_irr_setLine, if_neg other]
  · exact Iff.rfl

/-- If the line waits before the pair settles, it does so afterwards. -/
theorem awaits_settle {α : Type} (a : α) (awaits : q.primary.regs.Awaits m)
    (quiet : q.secondary.unforwarded = false ∨ m ≠ Line.cascade) :
    (q.settle a).pair.primary.regs.Awaits m ∧
      (q.settle a).pair.primary.regs.top = q.primary.regs.top := by
  have requested := (mem_irr_primary_settle a quiet).mpr awaits.requested
  obtain ⟨irr, lastHigh, regs⟩ := regs_chip_settle q a .primary
  change (q.settle a).pair.primary.regs = { q.primary.regs with irr, lastHigh } at regs
  rw [regs] at requested ⊢
  exact ⟨awaits.withInputs requested, rfl⟩

/-- An acknowledge cycle serves the line that the primary offers. Only for the cascade line does it
reach the secondary. -/
theorem AcknowledgeChange.primary_eq (h : p.AcknowledgeChange q)
    (offered : p.primary.pending? = some i) :
    q.primary = p.primary.acknowledge i ∧ (q.secondary = p.secondary ∨ i = Line.cascade) := by
  cases h with
  | idle none => cases none.symm.trans offered
  | own offered' =>
    cases offered'.symm.trans offered
    exact ⟨rfl, .inl rfl⟩
  | spurious offered' | cascaded offered' =>
    cases offered'.symm.trans offered
    exact ⟨rfl, .inr rfl⟩

/-- An acknowledge cycle that serves another line lowers the rank of the waiting line. -/
theorem awaits_perform_acknowledge (settled : p.Settled) (awaits : p.primary.regs.Awaits m)
    (offered : p.primary.pending? = some i)
    (least : (Line.rank p.primary.regs.top i).val ≤ (Line.rank p.primary.regs.top m).val)
    (other : i ≠ m) :
    let after := (p.perform .acknowledge).pair.primary.regs
    after.Awaits m ∧ (Line.rank after.top m).val < (Line.rank p.primary.regs.top m).val := by
  intro after
  obtain ⟨q, change, eq⟩ := perform_eq_settle settled .acknowledge
  cases change with
  | acknowledge cycle =>
    obtain ⟨primary, reached⟩ := cycle.primary_eq offered
    have quiet : q.secondary.unforwarded = false ∨ m ≠ Line.cascade := by
      rcases reached with same | cascade
      · exact .inl (same ▸ settled.secondary)
      · exact .inr fun own => other (cascade.trans own.symm)
    have served := Chip.awaits_acknowledge awaits other
    rw [← primary] at served
    obtain ⟨kept, top⟩ := awaits_settle () served quiet
    rw [← eq] at kept top
    refine ⟨kept, ?_⟩
    rw [top, primary, Chip.top_acknowledge awaits]
    exact Line.rank_next_lt least other

/-- Driving a line changes requests and edge detectors only. -/
theorem regs_perform_setLine (settled : p.Settled) (n : UInt8) (level : Bool) :
    ∃ irr lastHigh, (p.perform (.setLine n level)).pair.primary.regs =
      { p.primary.regs with irr, lastHigh } := by
  obtain ⟨q, change, eq⟩ := perform_eq_settle settled (.setLine n level)
  obtain ⟨irr, lastHigh, regs⟩ := regs_chip_settle q () .primary
  have after : (p.perform (.setLine n level)).pair.primary.regs =
      { q.primary.regs with irr, lastHigh } := by
    rw [eq]
    exact regs
  rw [after]
  cases change with
  | line line =>
    generalize Line.ofGlobal n = target
    obtain ⟨position, i⟩ := target
    cases position with
    | primary => exact ⟨_, _, rfl⟩
    | secondary => exact ⟨_, _, rfl⟩
  | noLine => exact ⟨_, _, rfl⟩

/-- Driving a line takes back no request of an edge-triggered line other than the cascade line. -/
theorem mem_irr_perform_setLine (settled : p.Settled) (requested : m ∈ p.primary.regs.irr)
    (edge : m ∉ p.primary.regs.elcr) (other : m ≠ Line.cascade) (n : UInt8) (level : Bool) :
    m ∈ (p.perform (.setLine n level)).pair.primary.regs.irr := by
  obtain ⟨q, change, eq⟩ := perform_eq_settle settled (.setLine n level)
  rw [eq, mem_irr_primary_settle () (.inr other)]
  cases change with
  | line line =>
    generalize Line.ofGlobal n = target
    obtain ⟨position, i⟩ := target
    cases position with
    | primary =>
      refine Chip.mem_irr_setLine.mpr ?_
      by_cases own : m = i
      · subst own
        rw [if_pos rfl]
        exact (if_neg edge).mpr (.inr requested)
      · rw [if_neg own]
        exact requested
    | secondary => exact requested
  | noLine => exact requested

/-- The other operations leave it as it is. -/
theorem awaits_perform (settled : p.Settled) (awaits : p.primary.regs.Awaits m)
    (allowed : RotationStep m p op) (other : op ≠ .acknowledge) :
    let after := (p.perform op).pair.primary.regs
    after.Awaits m ∧ after.top = p.primary.regs.top := by
  intro after
  cases op with
  | setLine n level =>
    have requested : m ∈ after.irr := by
      by_cases exposed : m ∈ p.primary.regs.elcr ∨ m = Line.cascade
      · exact allowed exposed awaits.requested
      · obtain ⟨edge, notCascade⟩ := not_or.mp exposed
        exact mem_irr_perform_setLine settled awaits.requested edge notCascade n level
    obtain ⟨irr, lastHigh, regs⟩ := regs_perform_setLine settled n level
    change after = _ at regs
    rw [regs] at requested ⊢
    exact ⟨awaits.withInputs requested, rfl⟩
  | writePort port value =>
    obtain ⟨decoded, unmasked⟩ := allowed
    obtain ⟨q, change, eq⟩ := perform_eq_settle settled (.writePort port value)
    cases change with
    | writeData decoded' =>
      cases decoded.symm.trans decoded'
      have masked : (p.modifyChip .primary (·.writeData value)).primary.regs.Awaits m :=
        Chip.awaits_writeData awaits unmasked
      obtain ⟨kept, top⟩ := awaits_settle () masked (.inl settled.secondary)
      rw [← eq] at kept top
      exact ⟨kept, top.trans (Chip.top_writeData p.primary value)⟩
    | noWrite decoded' | writeCommand decoded' | writeElcr decoded' =>
      cases decoded.symm.trans decoded'
  | acknowledge => exact absurd rfl other
  | _ => exact allowed.elim

/-! ## Whole histories -/

/-- The lines that the acknowledge cycles of a history find the primary to offer, in order. -/
def served (p : Pair Wire) : List (Operation Wire) → List (Option Line)
  | [] => []
  | .acknowledge :: history =>
    p.primary.pending? :: (p.perform .acknowledge).pair.served history
  | op :: history => (p.perform op).pair.served history

theorem served_of_ne {history : List (Operation Wire)} (other : op ≠ .acknowledge) :
    p.served (op :: history) = (p.perform op).pair.served history := by
  cases op <;> first | rfl | exact absurd rfl other

/-- Before a waiting line is served, there are at most as many acknowledge cycles as its rank says,
and each of them finds some line. -/
theorem served_before (settled : p.Settled) (awaits : p.primary.regs.Awaits m)
    {history : List (Operation Wire)} (along : p.Along (RotationStep m) history) :
    ((p.served history).takeWhile (· ≠ some m)).length ≤
        (Line.rank p.primary.regs.top m).val ∧
      none ∉ (p.served history).takeWhile (· ≠ some m) := by
  induction history generalizing p with
  | nil => simp [served]
  | cons op history ih =>
    -- the rank bounds what is still to come: a cycle for another line lowers it by at least one
    obtain ⟨allowed, others⟩ := along
    have settled' := settled_perform settled op
    by_cases cycle : op = .acknowledge
    · subst cycle
      obtain ⟨i, offered, least⟩ :
          ∃ i, p.primary.pending? = some i ∧ _ ≤ (Line.rank p.primary.regs.top m).val :=
        awaits.offers
      rw [served, offered]
      by_cases own : i = m
      · rw [own, List.takeWhile_cons_of_neg (by simp)]
        exact ⟨Nat.zero_le _, List.not_mem_nil⟩
      · obtain ⟨kept, lower⟩ := awaits_perform_acknowledge settled awaits offered least own
        obtain ⟨bound, found⟩ := ih settled' kept others
        rw [List.takeWhile_cons_of_pos (by simpa using own)]
        refine ⟨?_, by simpa using found⟩
        rw [List.length_cons]
        omega
    · obtain ⟨kept, top⟩ := awaits_perform settled awaits allowed cycle
      have before := ih settled' kept others
      rw [top] at before
      rw [served_of_ne cycle]
      exact before

/-- If fewer than `n` elements come before the first `a`, it is among the first `n`. -/
theorem mem_take_of_takeWhile {α : Type} [DecidableEq α] {a : α} {l : List α} {n : Nat}
    (long : n ≤ l.length) (few : (l.takeWhile (· ≠ a)).length < n) : a ∈ l.take n := by
  have split : l.takeWhile (· ≠ a) ++ l.dropWhile (· ≠ a) = l := List.takeWhile_append_dropWhile
  have first := List.head?_dropWhile_not (· ≠ a) l
  cases rest : l.dropWhile (· ≠ a) with
  | nil =>
    rw [rest, List.append_nil] at split
    rw [split] at few
    omega
  | cons found others =>
    rw [rest] at first split
    have own : found = a := by simpa using first
    have room : n - (l.takeWhile (· ≠ a)).length = n - (l.takeWhile (· ≠ a)).length - 1 + 1 := by
      omega
    rw [← split, own, List.take_append, room, List.take_succ_cons]
    simp

/-- Under automatic rotation no line of the primary starves. Start from a reachable pair whose
primary is initialised, has nothing in service, ends services by itself and rotates, and let `m`
request service and not be masked. Drive lines, set the masks of the primary and acknowledge at
will, but never mask `m` nor take its request back. Then the eighth acknowledge cycle at the latest
serves `m`. At most seven cycles serve other lines before, and none of them finds the primary
without a request. -/
theorem served_within_eight {config : Config} (reachable : Reachable config p)
    (ready : p.primary.regs.stage = .ready) (idle : p.primary.regs.isr = ∅)
    (autoEoi : p.primary.regs.autoEoi = true) (rotates : p.primary.regs.rotateOnAutoEoi = true)
    (requested : m ∈ p.primary.regs.irr) (unmasked : m ∉ p.primary.regs.imr)
    {history : List (Operation Wire)} (along : p.Along (RotationStep m) history) :
    let served := p.served history
    let before := served.takeWhile (· ≠ some m)
    (8 ≤ served.length → some m ∈ served.take 8) ∧ before.length ≤ 7 ∧ none ∉ before := by
  intro served before
  have awaits : p.primary.regs.Awaits m := ⟨ready, idle, autoEoi, rotates, requested, unmasked⟩
  obtain ⟨bound, found⟩ := served_before reachable.sound.settled awaits along
  have seven : before.length ≤ 7 :=
    Nat.le_trans bound (Nat.le_of_lt_succ (Line.rank p.primary.regs.top m).isLt)
  exact ⟨fun eight => mem_take_of_takeWhile eight (Nat.lt_succ_of_le seven), seven, found⟩

/-- All lines of the primary request service at once. Those that have been served request it again,
line 10 brings the cascade line in, and line 5 is masked for a while. -/
def contention : List (Operation Unit) :=
  [.setLine 0 true, .setLine 1 true, .setLine 3 true, .setLine 4 true, .setLine 5 true,
    .setLine 6 true, .acknowledge, .setLine 0 false, .setLine 0 true, .setLine 10 true,
    .acknowledge, .writePort 0x21 0x20, .acknowledge, .acknowledge, .writePort 0x21 0x00,
    .acknowledge, .setLine 1 false, .setLine 1 true, .acknowledge, .acknowledge, .acknowledge]

theorem served_within_eight_contention :
    let p : Pair Unit := ((new {}).performAll [.writePort 0x20 0x11, .writePort 0x21 0x08,
      .writePort 0x21 0x04, .writePort 0x21 0x03, .writePort 0x20 0x80, .setLine 7 true]).pair
    p.Along (RotationStep 7) contention ∧
      p.served contention =
        [some 0, some 1, some 2, some 3, some 4, some 5, some 6, some 7] ∧
      some 7 ∈ (p.served contention).take 8 := by
  intro p
  have along : p.Along (RotationStep 7) contention := by decide +kernel
  have served : p.served contention =
      [some 0, some 1, some 2, some 3, some 4, some 5, some 6, some 7] := by decide +kernel
  have reachable : Reachable {} p := ⟨_, rfl⟩
  obtain ⟨eighth, -, -⟩ :=
    served_within_eight reachable (by decide +kernel) (by decide +kernel) (by decide +kernel)
      (by decide +kernel) (by decide +kernel) (by decide +kernel) along
  exact ⟨along, served, eighth (by rw [served]; decide)⟩

end Pair

end PicCascade
