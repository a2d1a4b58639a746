import PicCascade.Proofs.Chip.Selection
import PicCascade.Proofs.Pair.Delivery
import PicCascade.Proofs.Pair.Isolation
import PicCascade.Proofs.Pair.Nesting
import PicCascade.Proofs.Pair.Notification

/-!
# Where requests and services come from

A line requests service because its device drove it high, and its service begins because the
processor acknowledged it. A guest that reads and writes ports can end services and make requests go
away, but it cannot make up an interrupt. The one request that an access can raise is that of the
cascade line, when the access makes the secondary offer a line.

Results:
* `Change.within`: an access to a port leaves no request and no service that was not there, before
  the pair settles.
* `requested_perform`, `inService_perform`: what makes a line request service, and what begins its
  service.
* `along_or_exists_source`: from the single steps to whole histories.
* `exists_setLine_of_requested`, `exists_beginsService_of_inService`: where the requests and services
  after a history come from.
* `traffic_begins_nothing`: both for every access and every history.
-/

namespace PicCascade

/-! ## Accesses to one chip -/

/-- Every request and every service of the registers `r'` is one of `r`. -/
structure Registers.Within (r' r : Registers) : Prop where
  irr : ∀ i ∈ r'.irr, i ∈ r.irr
  isr : ∀ i ∈ r'.isr, i ∈ r.isr

theorem Registers.within_refl (r : Registers) : r.Within r := ⟨fun _ => id, fun _ => id⟩

namespace Chip

variable {position : Position}

theorem within_retire (c : Chip position) (i : Line) : (c.retire i).regs.Within c.regs :=
  ⟨fun _ h => (LineSet.mem_erase.mp h).2, fun _ h => (LineSet.mem_erase.mp h).2⟩

theorem within_endService (c : Chip position) (i : Line) (rotate : Bool) :
    (c.endService i rotate).regs.Within c.regs :=
  ⟨fun _ => id, fun _ h => (LineSet.mem_erase.mp h).2⟩

theorem within_execute (c : Chip position) (command : Command) :
    (c.execute command).regs.Within c.regs := by
  cases command with
  | icw1 levelTriggered single expectIcw4 =>
    exact ⟨fun i h => absurd h (LineSet.not_mem_empty i),
      fun i h => absurd h (LineSet.not_mem_empty i)⟩
  | endHighest rotate =>
    rw [execute]
    split
    · exact within_endService ..
    · exact Registers.within_refl _
  | endLine i rotate => exact within_endService ..
  | ocw3 | autoRotation | setLowest | noOperation => exact ⟨fun _ => id, fun _ => id⟩

theorem within_writeData (c : Chip position) (value : UInt8) :
    (c.writeData value).regs.Within c.regs := by
  obtain ⟨_, _, _, _, _, regs⟩ := c.regs_writeData value
  rw [regs]
  exact ⟨fun _ => id, fun _ => id⟩

end Chip

namespace Pair

variable {Wire : Type} {p q : Pair Wire} {op : Operation Wire} {position : Position} {i : Line}
  {n : UInt8}

/-! ## Accesses to the pair -/

/-- The operation reads or writes a port. -/
def IsPortAccess : Operation Wire → Prop
  | .readPort _ | .writePort .. => True
  | _ => False

theorem PrimaryPoll.within (h : p.PrimaryPoll q) (position : Position) :
    (q.chip position).regs.Within (p.chip position).regs := by
  cases h with
  | idle => exact Registers.within_refl _
  | own =>
    cases position with
    | primary => exact p.primary.within_retire _
    | secondary => exact Registers.within_refl _

theorem SecondaryPoll.within (h : p.SecondaryPoll q) (position : Position) :
    (q.chip position).regs.Within (p.chip position).regs := by
  cases h with
  | idle => exact Registers.within_refl _
  | own =>
    cases position with
    | primary => exact p.primary.within_retire _
    | secondary => exact p.secondary.within_retire _

/-- Before the pair settles, an access to a port has left no request and no service that was not
there. -/
theorem Change.within (h : p.Change op q) (access : IsPortAccess op) (position : Position) :
    (q.chip position).regs.Within (p.chip position).regs := by
  have modified {other : Position} {f : Chip other → Chip other}
      (within : (f (p.chip other)).regs.Within (p.chip other).regs) :
      ((p.modifyChip other f).chip position).regs.Within (p.chip position).regs :=
    of_modifyChip (P := (·.Within (p.chip position).regs)) (Registers.within_refl _)
      fun same _ => same ▸ within
  cases h with
  | read | noWrite => exact Registers.within_refl _
  | pollPrimary _ _ poll =>
    have within := poll.within position
    cases position <;> exact ⟨within.irr, within.isr⟩
  | pollSecondary _ _ poll =>
    have within := poll.within position
    cases position <;> exact ⟨within.irr, within.isr⟩
  | pollCascade =>
    have within := p.primary.within_retire Line.cascade
    cases position with
    | primary => exact ⟨within.irr, within.isr⟩
    | secondary => exact Registers.within_refl _
  | writeCommand => exact modified (Chip.within_execute _ _)
  | writeData => exact modified (Chip.within_writeData _ _)
  | writeElcr => exact modified ⟨fun _ => id, fun _ => id⟩
  | _ => exact access.elim

/-- Settling raises no request but that of the cascade line, and that only if the output of the
secondary has been recomputed and is high. -/
theorem mem_irr_of_settle {α : Type} {a : α}
    (requested : i ∈ ((q.settle a).pair.chip position).regs.irr) :
    i ∈ (q.chip position).regs.irr ∨
      ((position, i) = (.primary, Line.cascade) ∧
        q.secondary.unforwarded = true ∧ q.secondary.output = true) := by
  by_cases own : (position, i) = (.primary, Line.cascade)
  · cases own
    simp only [chip, regs_primary_settle] at requested
    split at requested
    · rename_i relayed
      cases output : q.secondary.output with
      | true => exact .inr ⟨rfl, relayed, rfl⟩
      | false =>
        rw [Chip.mem_irr_setLine, output] at requested
        simp only [if_true, Bool.false_eq_true, false_and, false_or] at requested
        split at requested
        · exact requested.elim
        · exact .inl requested
    · exact .inl requested
  · exact .inl ((mem_irr_settle a own).mp requested)

/-- An access after which the output of the secondary waits to be forwarded is one to the secondary
that has recomputed the output. -/
theorem Change.recomputed_secondary (h : p.Change op q) (settled : p.Settled)
    (access : IsPortAccess op) (waiting : q.secondary.unforwarded = true) :
    addressee? p.config op = some .secondary ∧ p.recomputes op = true ∧
      q.secondary.Recomputed := by
  have still {c : Chip .secondary} (idle : c.unforwarded = p.secondary.unforwarded) :
      c.unforwarded ≠ true := by simp [idle, settled.secondary]
  cases h with
  | read | noWrite | pollCascade => exact absurd waiting (still rfl)
  | pollPrimary _ _ poll =>
    exact absurd waiting (still (congrArg Chip.unforwarded poll.secondary_eq))
  | pollSecondary decoded asked poll =>
    cases poll with
    | idle => exact absurd waiting (still rfl)
    | own offered =>
      refine ⟨by rw [addressee?, decoded]; rfl, by simp [recomputes, decoded, asked, offered], ?_⟩
      exact (Chip.recomputed_refresh _).modify fun _ => rfl
  | @writeCommand port value other decoded =>
    cases other with
    | primary => exact absurd waiting (still rfl)
    | secondary =>
      cases recomputed : p.secondary.recomputes (Command.decode value) with
      | true =>
        refine ⟨by rw [addressee?, decoded]; rfl, ?_, Chip.recomputed_execute recomputed⟩
        simp only [recomputes, decoded]
        exact recomputed
      | false => exact absurd waiting (still (Chip.unforwarded_execute recomputed))
  | @writeData port value other decoded =>
    cases other with
    | primary => exact absurd waiting (still rfl)
    | secondary =>
      by_cases ready : p.secondary.regs.stage = .ready
      · refine ⟨by rw [addressee?, decoded]; rfl, ?_, Chip.recomputed_writeData value ready⟩
        simp only [recomputes, decoded]
        exact decide_eq_true ready
      · exact absurd waiting (still (Chip.unforwarded_writeData value ready))
  | @writeElcr port value other decoded =>
    cases other <;> exact absurd waiting (still rfl)
  | _ => exact access.elim

/-- The operation is an access to the secondary that recomputes its output, and the output is high
afterwards. -/
structure AssertsSecondary (p : Pair Wire) (op : Operation Wire) : Prop where
  addressed : addressee? p.config op = some .secondary
  recomputed : p.recomputes op = true
  output : (p.perform op).pair.secondary.output = true
  offers : (p.perform op).pair.secondary.pending?.isSome = true

/-- An access to a port begins no service. -/
theorem mem_isr_of_access (settled : p.Settled) (access : IsPortAccess op)
    (served : i ∈ ((p.perform op).pair.chip position).regs.isr) :
    i ∈ (p.chip position).regs.isr := by
  obtain ⟨q, change, eq⟩ := perform_eq_settle settled op
  rw [eq, isr_settle] at served
  exact (change.within access position).isr i served

/-- It raises no request but that of the cascade line. -/
theorem mem_irr_of_access (settled : p.Settled) (access : IsPortAccess op)
    (requested : i ∈ ((p.perform op).pair.chip position).regs.irr) :
    i ∈ (p.chip position).regs.irr ∨
      ((position, i) = (.primary, Line.cascade) ∧ p.AssertsSecondary op) := by
  obtain ⟨q, change, eq⟩ := perform_eq_settle settled op
  rw [eq] at requested
  rcases mem_irr_of_settle requested with before | ⟨cascade, waiting, high⟩
  · exact .inl ((change.within access position).irr i before)
  · obtain ⟨addressed, recomputed, current⟩ :=
      change.recomputed_secondary settled access waiting
    refine .inr ⟨cascade, addressed, recomputed, ?_, ?_⟩
    · rw [eq, secondary_settle]
      exact high
    · rw [eq, pending?_secondary_settle, ← current.current]
      exact high

/-! ## Every operation -/

/-- A line is in service. -/
def InService (p : Pair Wire) (n : UInt8) : Prop :=
  (Line.ofGlobal n).2 ∈ (p.chip (Line.ofGlobal n).1).regs.isr

instance (p : Pair Wire) (n : UInt8) : Decidable (p.InService n) :=
  inferInstanceAs (Decidable (_ ∈ (p.chip _).regs.isr))

/-- The operation acknowledges a line, and its chip does without automatic end of interrupt. -/
structure BeginsService (position : Position) (i : Line) (p : Pair Wire) (op : Operation Wire) :
    Prop where
  acknowledged : acknowledged? position p op = some i
  manual : (p.chip position).regs.autoEoi = false

theorem Chip.mem_isr_acknowledge {c : Chip position} {j : Line} :
    i ∈ (c.acknowledge j).regs.isr ↔ i ∈ c.regs.isr ∨ (i = j ∧ c.regs.autoEoi = false) :=
  (c.acknowledged_acknowledge j).isr i

theorem AcknowledgeChange.mem_isr (h : p.AcknowledgeChange q)
    (served : i ∈ (q.chip position).regs.isr) :
    i ∈ (p.chip position).regs.isr ∨
      (acknowledged? position p (.acknowledge : Operation Wire) = some i ∧
        (p.chip position).regs.autoEoi = false) := by
  cases position with
  | primary =>
    cases h with
    | idle => exact .inl served
    | own offered | spurious offered | cascaded offered =>
      rcases Chip.mem_isr_acknowledge.mp served with before | ⟨rfl, manual⟩
      · exact .inl before
      · exact .inr ⟨offered, manual⟩
  | secondary =>
    cases h with
    | idle | own | spurious => exact .inl served
    | cascaded offered behind =>
      rcases Chip.mem_isr_acknowledge.mp served with before | ⟨rfl, manual⟩
      · exact .inl before
      · exact .inr ⟨by simp [acknowledged?, offered, behind], manual⟩

/-- Unless a snapshot is loaded, only an acknowledge cycle begins a service, and only that of the
line that it acknowledges. -/
theorem Change.mem_isr (h : p.Change op q) (loads : ∀ bytes, op ≠ .restore bytes)
    (served : i ∈ (q.chip position).regs.isr) :
    i ∈ (p.chip position).regs.isr ∨ BeginsService position i p op := by
  by_cases access : IsPortAccess op
  · exact .inl ((h.within access position).isr i served)
  cases h with
  | @line m level line =>
    let counted : Pair Wire := { p with counters := p.counters.record ⟨m.toNat, line⟩ level }
    have before := (iff_modifyChip (p := counted) (P := fun r => i ∈ r.isr)
      (f := (·.setLine (Line.ofGlobal m).2 level)) fun _ => Iff.rfl).mp served
    cases position <;> exact .inl before
  | acknowledge cycle | asserted _ cycle =>
    rcases cycle.mem_isr served with before | ⟨acknowledged, manual⟩
    · exact .inl before
    · exact .inr ⟨acknowledged, manual⟩
  | intackPrimary poll =>
    have within := poll.within position
    cases position <;> exact .inl (within.isr i served)
  | intackSecondary offered poll =>
    have retired := p.primary.within_retire Line.cascade
    have within := poll.within position
    cases position with
    | primary => exact .inl (retired.isr i (within.isr i served))
    | secondary => exact .inl (within.isr i served)
  | deviceReset | coldReset => cases position <;> exact absurd served (LineSet.not_mem_empty i)
  | refused | restored => exact absurd rfl (loads _)
  | notAsserted | noLine => exact .inl served
  | connect | setCounting | clearCounts => cases position <;> exact .inl served
  | _ => exact absurd trivial access

/-- What resets a chip leaves it without requests, unless it loads a snapshot. -/
theorem Change.irr_of_resets (h : p.Change op q) (resets : ¬ KeepsChip position p op)
    (loads : ∀ bytes, op ≠ .restore bytes) : (q.chip position).regs.irr = ∅ := by
  cases h with
  | @writeCommand port value other decoded =>
    obtain ⟨decoded', initializes⟩ := Classical.not_imp.mp resets
    cases decoded.symm.trans decoded'
    obtain ⟨_, _, regs⟩ :=
      (p.chip position).regs_writeCommand_of_initializes (Decidable.not_not.mp initializes)
    rw [chip_modifyChip_self, regs]
  | noWrite decoded | writeData decoded | writeElcr decoded =>
    refine absurd (fun decoded' => ?_) resets
    cases decoded.symm.trans decoded'
  | deviceReset | coldReset => cases position <;> rfl
  | refused | restored => exact absurd rfl (loads _)
  | _ => exact absurd trivial resets

/-- A line other than the cascade line requests service after an operation only if it was driven
high, or requested service before and its chip was not reset. -/
theorem requested_perform (settled : p.Settled) (line : n.toNat < 16) (notCascade : n ≠ 2)
    (loads : ∀ bytes, op ≠ .restore bytes) (requested : (p.perform op).pair.Requested n) :
    op = .setLine n true ∨ (p.Requested n ∧ KeepsChip (Line.ofGlobal n).1 p op) := by
  by_cases drives : ∃ level, op = .setLine n level
  · obtain ⟨level, rfl⟩ := drives
    cases level with
    | true => exact .inl rfl
    | false =>
      rw [requested_setLine_iff settled line notCascade] at requested
      split at requested
      · rcases requested with ⟨high, -⟩ | before
        · exact absurd high Bool.false_ne_true
        · exact .inr ⟨before, trivial⟩
      · exact absurd requested Bool.false_ne_true
  · have other : ∀ level, op ≠ .setLine n level := fun level eq => drives ⟨level, eq⟩
    by_cases keeps : KeepsChip (Line.ofGlobal n).1 p op
    · rw [requested_perform_iff_of_ne settled line notCascade keeps other] at requested
      exact .inr ⟨requested.1, keeps⟩
    · obtain ⟨q, change, eq⟩ := perform_eq_settle settled op
      unfold Requested at requested
      rw [eq, mem_irr_settle () (own_of_ne_two notCascade), change.irr_of_resets keeps loads]
        at requested
      exact absurd requested (LineSet.not_mem_empty _)

/-- A line is in service after an operation only if it was before, or was acknowledged without
automatic end of interrupt. -/
theorem inService_perform (settled : p.Settled) (loads : ∀ bytes, op ≠ .restore bytes)
    (served : (p.perform op).pair.InService n) :
    BeginsService (Line.ofGlobal n).1 (Line.ofGlobal n).2 p op ∨ p.InService n := by
  obtain ⟨q, change, eq⟩ := perform_eq_settle settled op
  unfold InService at served
  rw [eq, isr_settle] at served
  exact (change.mem_isr loads served).symm

/-! ## Whole histories -/

/-- Suppose that every operation after which something holds is a source of it, or found it and kept
it. If it holds after a history, then it has been kept all along, or there is a last source and it
has been kept since. -/
theorem along_or_exists_source (Holds : Pair Wire → Prop)
    (Source Keeps : Pair Wire → Operation Wire → Prop) {history : List (Operation Wire)}
    (settled : p.Settled)
    (step : ∀ p : Pair Wire, p.Settled → ∀ op ∈ history, Holds (p.perform op).pair →
      Source p op ∨ (Holds p ∧ Keeps p op))
    (holds : Holds (p.performAll history).pair) :
    (Holds p ∧ p.Along (fun q next => Holds q ∧ Keeps q next) history) ∨
      ∃ before op after, history = before ++ op :: after ∧ Source (p.performAll before).pair op ∧
        (p.performAll (before ++ [op])).pair.Along (fun q next => Holds q ∧ Keeps q next) after := by
  induction history generalizing p with
  | nil => exact .inl ⟨holds, trivial⟩
  | cons op history ih =>
    have others := fun q settled op' mem => step q settled op' (List.mem_cons_of_mem op mem)
    rcases ih (settled_perform settled op) others holds with ⟨now, along⟩ | later
    -- no later operation is the last source, so the first one is or there is none
    · rcases step p settled op List.mem_cons_self now with source | ⟨before, keeps⟩
      · exact .inr ⟨[], op, history, rfl, source, along⟩
      · exact .inl ⟨before, ⟨before, keeps⟩, along⟩
    · obtain ⟨before, source, after, rfl, found, along⟩ := later
      exact .inr ⟨op :: before, source, after, rfl, found, along⟩

theorem not_requested_new (config : Config) (n : UInt8) :
    ¬ (new config : Pair Wire).Requested n := by
  unfold Requested
  cases (Line.ofGlobal n).1 <;> exact LineSet.not_mem_empty _

theorem not_inService_new (config : Config) (n : UInt8) :
    ¬ (new config : Pair Wire).InService n := by
  unfold InService
  cases (Line.ofGlobal n).1 <;> exact LineSet.not_mem_empty _

/-- A request has been there since its line was driven high, and its chip has not been reset since. -/
theorem exists_setLine_of_requested {config : Config} {history : List (Operation Wire)}
    (noLoad : ∀ bytes, .restore bytes ∉ history) (line : n.toNat < 16) (notCascade : n ≠ 2)
    (requested : ((new config).performAll history).pair.Requested n) :
    ∃ before after, history = before ++ .setLine n true :: after ∧
      ((new config).performAll (before ++ [.setLine n true])).pair.Along
        (fun p op => p.Requested n ∧ KeepsChip (Line.ofGlobal n).1 p op) after := by
  have step (p : Pair Wire) (settled : p.Settled) (op : Operation Wire) (mem : op ∈ history)
      (after : (p.perform op).pair.Requested n) :=
    requested_perform settled line notCascade (fun bytes eq => noLoad bytes (eq ▸ mem)) after
  rcases along_or_exists_source (fun p => p.Requested n) (fun _ op => op = .setLine n true)
    (KeepsChip (Line.ofGlobal n).1) sound_new.settled step requested with ⟨initially, -⟩ | found
  · exact absurd initially (not_requested_new config n)
  · obtain ⟨before, op, after, split, rfl, along⟩ := found
    exact ⟨before, after, split, along⟩

/-- A line has been in service since an acknowledge cycle began its service. -/
theorem exists_beginsService_of_inService {config : Config} {history : List (Operation Wire)}
    (noLoad : ∀ bytes, .restore bytes ∉ history)
    (served : ((new config).performAll history).pair.InService n) :
    ∃ before op after, history = before ++ op :: after ∧
      BeginsService (Line.ofGlobal n).1 (Line.ofGlobal n).2
        ((new config).performAll before).pair op ∧
      ((new config).performAll (before ++ [op])).pair.Along (fun p _ => p.InService n) after := by
  have step (p : Pair Wire) (settled : p.Settled) (op : Operation Wire) (mem : op ∈ history)
      (after : (p.perform op).pair.InService n) :=
    (inService_perform settled (fun bytes eq => noLoad bytes (eq ▸ mem)) after).imp_right
      fun before => And.intro before trivial
  rcases along_or_exists_source (fun p => p.InService n)
    (BeginsService (Line.ofGlobal n).1 (Line.ofGlobal n).2) (fun _ _ => True) sound_new.settled step
    served with ⟨initially, -⟩ | found
  · exact absurd initially (not_inService_new config n)
  · simpa only [and_true] using found

/-- The guest cannot make up an interrupt. From every reachable pair, an access to a port begins no
service, and it raises no request but that of the cascade line, which it raises only by making the
secondary offer a line. Along a history from power-on that loads no snapshot, a line other than the
cascade line requests service only if its device drove it high since its chip was last reset, and
the request has been there ever since. A line is in service only because it was acknowledged without
automatic end of interrupt, and it has been in service ever since. -/
theorem traffic_begins_nothing (Wire : Type) (config : Config) :
    (∀ p : Pair Wire, Reachable config p → ∀ op, IsPortAccess op → ∀ position i,
      (i ∈ ((p.perform op).pair.chip position).regs.isr → i ∈ (p.chip position).regs.isr) ∧
      (i ∈ ((p.perform op).pair.chip position).regs.irr → i ∉ (p.chip position).regs.irr →
        (position, i) = (.primary, Line.cascade) ∧ p.AssertsSecondary op)) ∧
    ∀ history : List (Operation Wire), (∀ bytes, .restore bytes ∉ history) →
      ∀ n : UInt8, n.toNat < 16 →
        (n ≠ 2 → ((new config).performAll history).pair.Requested n →
          ∃ before after, history = before ++ .setLine n true :: after ∧
            ((new config).performAll (before ++ [.setLine n true])).pair.Along
              (fun p op => p.Requested n ∧ KeepsChip (Line.ofGlobal n).1 p op) after) ∧
        (((new config).performAll history).pair.InService n →
          ∃ before op after, history = before ++ op :: after ∧
            BeginsService (Line.ofGlobal n).1 (Line.ofGlobal n).2
              ((new config).performAll before).pair op ∧
            ((new config).performAll (before ++ [op])).pair.Along
              (fun p _ => p.InService n) after) := by
  refine ⟨fun p reachable op access position i => ?_, fun history noLoad n line => ?_⟩
  · have settled : p.Settled := reachable.sound.settled
    exact ⟨mem_isr_of_access settled access,
      fun after before => (mem_irr_of_access settled access after).resolve_left before⟩
  · exact ⟨exists_setLine_of_requested noLoad line, exists_beginsService_of_inService noLoad⟩

/-- Line 12 rises while it is masked. -/
def maskedTwelve : List (Operation Unit) := [.writePort 0xA1 0x10, .setLine 12 true]

/-- The guest lifts the mask, and the processor acknowledges the line. -/
def servedTwelve : List (Operation Unit) := maskedTwelve ++ [.writePort 0xA1 0, .acknowledge]

/-- Lifting the mask raises the request of the cascade line and begins no service. The request was
there because of the device, and the service begins with the acknowledge cycle. -/
theorem traffic_begins_nothing_servedTwelve :
    let p := ((new {}).performAll maskedTwelve).pair
    let lifted := (p.perform (.writePort 0xA1 0)).pair
    (Line.cascade ∈ lifted.primary.regs.irr ∧ Line.cascade ∉ p.primary.regs.irr ∧
      p.AssertsSecondary (.writePort 0xA1 0)) ∧
    (p.Requested 12 ∧ .setLine 12 true ∈ maskedTwelve) ∧
    ((∀ bytes, .restore bytes ∉ servedTwelve) ∧
      ((new {}).performAll servedTwelve).pair.InService 12 ∧
      ∃ before op after, servedTwelve = before ++ op :: after ∧
        BeginsService .secondary 4 ((new {}).performAll before).pair op) := by
  intro p lifted
  obtain ⟨access, runs⟩ := traffic_begins_nothing Unit {}
  have raised : Line.cascade ∈ lifted.primary.regs.irr := by decide +kernel
  have before : Line.cascade ∉ p.primary.regs.irr := by decide +kernel
  have requested : p.Requested 12 := by decide +kernel
  have served : ((new {}).performAll servedTwelve).pair.InService 12 := by decide +kernel
  have noLoad (bytes : List UInt8) : .restore bytes ∉ servedTwelve := by
    simp [servedTwelve, maskedTwelve]
  have noLoad' (bytes : List UInt8) : .restore bytes ∉ maskedTwelve := by simp [maskedTwelve]
  have chip : Line.ofGlobal 12 = (.secondary, 4) := by decide
  obtain ⟨-, asserts⟩ :=
    (access p ⟨maskedTwelve, rfl⟩ (.writePort 0xA1 0) trivial .primary Line.cascade).2 raised before
  obtain ⟨earlier, later, masked, -⟩ :=
    (runs maskedTwelve noLoad' 12 (by decide)).1 (by decide) requested
  have driven : .setLine 12 true ∈ maskedTwelve := masked ▸ List.mem_append_right _ List.mem_cons_self
  obtain ⟨before', op, after, split, begins, -⟩ := (runs servedTwelve noLoad 12 (by decide)).2 served
  rw [chip] at begins
  exact ⟨⟨raised, before, asserts⟩, ⟨requested, driven⟩, noLoad, served, before', op, after, split,
    begins⟩

end Pair

end PicCascade
