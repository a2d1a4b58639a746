import PicCascade.Proofs.Chip.Command
import PicCascade.Proofs.Chip.Service
import PicCascade.Proofs.Pair.Change

/-!
# Histories and reachable pairs

A property that one operation keeps holds along a whole history. Some properties are kept only by
some operations, and which ones may depend on the pair at that moment: `p.Along allowed history`
says that every operation of the history is allowed on the pair it is performed on.

Results:
* `Along.invariant`: what every allowed operation keeps holds after a history of them.
* `Reachable.sound`: in every reachable pair the wiring is the configured one, no output is left
  unforwarded, and only lines that can be level-triggered are.
-/

namespace PicCascade.Pair

variable {Wire : Type} {p : Pair Wire}

/-! ## Along a history -/

/-- Every operation of the history is allowed on the pair it is performed on. -/
def Along (allowed : Pair Wire → Operation Wire → Prop) (p : Pair Wire) :
    List (Operation Wire) → Prop
  | [] => True
  | op :: history => allowed p op ∧ Along allowed (p.perform op).pair history

instance decidableAlong (allowed : Pair Wire → Operation Wire → Prop)
    [∀ p op, Decidable (allowed p op)] :
    ∀ (p : Pair Wire) (history : List (Operation Wire)), Decidable (p.Along allowed history)
  | _, [] => isTrue trivial
  | p, op :: history =>
    have := decidableAlong allowed (p.perform op).pair history
    inferInstanceAs (Decidable (_ ∧ _))

/-- How many operations of a history pass a test on the pair they are performed on. -/
def countAlong (test : Pair Wire → Operation Wire → Prop) [∀ p op, Decidable (test p op)]
    (p : Pair Wire) : List (Operation Wire) → Nat
  | [] => 0
  | op :: history =>
    (if test p op then 1 else 0) + countAlong test (p.perform op).pair history

theorem pair_performAll_append (p : Pair Wire) (before after : List (Operation Wire)) :
    (p.performAll (before ++ after)).pair = ((p.performAll before).pair.performAll after).pair := by
  induction before generalizing p with
  | nil => rfl
  | cons op before ih => exact ih (p.perform op).pair

theorem along_append {allowed : Pair Wire → Operation Wire → Prop}
    {before after : List (Operation Wire)} :
    p.Along allowed (before ++ after) ↔
      p.Along allowed before ∧ (p.performAll before).pair.Along allowed after := by
  induction before generalizing p with
  | nil => simp [Along, performAll]
  | cons op before ih => simp only [List.cons_append, Along, performAll, ih, and_assoc]

theorem Along.of_prefix {allowed : Pair Wire → Operation Wire → Prop}
    {steps history : List (Operation Wire)} (along : p.Along allowed history)
    (h : steps <+: history) : p.Along allowed steps := by
  obtain ⟨rest, rfl⟩ := h
  exact (along_append.mp along).1

/-- What every allowed operation keeps holds after a history of allowed operations. -/
theorem Along.invariant {allowed : Pair Wire → Operation Wire → Prop} {Inv : Pair Wire → Prop}
    (step : ∀ p op, Inv p → allowed p op → Inv (p.perform op).pair)
    {history : List (Operation Wire)} (along : p.Along allowed history) (start : Inv p) :
    Inv (p.performAll history).pair := by
  induction history generalizing p with
  | nil => exact start
  | cons op history ih =>
    obtain ⟨first, others⟩ := along
    exact ih others (step p op start first)

theorem settled_performAll (settled : p.Settled) (history : List (Operation Wire)) :
    (p.performAll history).pair.Settled := by
  induction history generalizing p with
  | nil => exact settled
  | cons op history ih => exact ih (settled_perform settled op)

/-! ## Reachable pairs -/

/-- Only lines that can be level-triggered are. -/
structure Wired (p : Pair Wire) : Prop where
  primary : ∀ i ∈ p.primary.regs.elcr, i ∈ p.config.primary.elcrMask
  secondary : ∀ i ∈ p.secondary.regs.elcr, i ∈ p.config.secondary.elcrMask

theorem Wired.modifyChip (wired : p.Wired) {position : Position}
    {f : Chip position → Chip position}
    (kept : ∀ i ∈ (f (p.chip position)).regs.elcr, i ∈ (p.config.chip position).elcrMask) :
    (p.modifyChip position f).Wired := by
  cases position with
  | primary => exact ⟨kept, wired.secondary⟩
  | secondary => exact ⟨wired.primary, kept⟩

theorem Wired.chip (wired : p.Wired) (position : Position) :
    ∀ i ∈ (p.chip position).regs.elcr, i ∈ (p.config.chip position).elcrMask := by
  cases position with
  | primary => exact wired.primary
  | secondary => exact wired.secondary

theorem Wired.acknowledge {q : Pair Wire} (wired : p.Wired) (h : p.AcknowledgeChange q) :
    q.Wired := by
  cases h <;> exact ⟨wired.primary, wired.secondary⟩

theorem Wired.pollPrimary {q : Pair Wire} (wired : p.Wired) (h : p.PrimaryPoll q) : q.Wired := by
  cases h <;> exact ⟨wired.primary, wired.secondary⟩

theorem Wired.pollSecondary {q : Pair Wire} (wired : p.Wired) (h : p.SecondaryPoll q) :
    q.Wired := by
  cases h <;> exact ⟨wired.primary, wired.secondary⟩

theorem Wired.change {op : Operation Wire} {q : Pair Wire} (wired : p.Wired)
    (h : p.Change op q) : q.Wired := by
  cases h with
  | @line n level h =>
    have counted : Wired { p with counters := p.counters.record ⟨n.toNat, h⟩ level } :=
      ⟨wired.primary, wired.secondary⟩
    exact counted.modifyChip (counted.chip _)
  | writeCommand decoded =>
    refine wired.modifyChip ?_
    rw [Chip.elcr_writeCommand]
    exact wired.chip _
  | writeData decoded =>
    refine wired.modifyChip ?_
    rw [Chip.elcr_writeData]
    exact wired.chip _
  | writeElcr decoded =>
    refine wired.modifyChip fun i hi => ?_
    exact (LineSet.mem_inter.mp hi).2
  | pollPrimary decoded asked poll =>
    have after := wired.pollPrimary poll
    exact ⟨after.primary, after.secondary⟩
  | intackPrimary poll =>
    have after := wired.pollPrimary poll
    exact ⟨after.primary, after.secondary⟩
  | pollSecondary decoded asked poll =>
    have after := wired.pollSecondary poll
    exact ⟨after.primary, after.secondary⟩
  | intackSecondary offered poll =>
    have retired : Wired { p with primary := p.primary.retire Line.cascade } :=
      ⟨wired.primary, wired.secondary⟩
    have after := retired.pollSecondary poll
    exact ⟨after.primary, after.secondary⟩
  | acknowledge cycle | asserted _ cycle => exact wired.acknowledge cycle
  | coldReset =>
    constructor <;> exact fun i hi => absurd hi (LineSet.not_mem_empty i)
  | restored decoded =>
    constructor <;> exact fun i hi => (LineSet.mem_inter.mp hi).2
  | _ => exact ⟨wired.primary, wired.secondary⟩

/-- What holds of every pair that has the given wiring and was not left in the middle of an
operation. -/
structure Sound (config : Config) (p : Pair Wire) : Prop where
  config_eq : p.config = config
  settled : p.Settled
  wired : p.Wired

variable {config : Config}

theorem sound_new : Sound config (new config : Pair Wire) where
  config_eq := rfl
  settled := ⟨rfl, rfl⟩
  wired := by constructor <;> exact fun i hi => absurd hi (LineSet.not_mem_empty i)

/-- A new pair does not ask for service. -/
theorem output_new : (new config : Pair Wire).output = false :=
  congrArg Option.isSome (Registers.pending?_eq_none_of_irr rfl)

theorem Sound.perform (sound : Sound config p) (op : Operation Wire) :
    Sound config (p.perform op).pair where
  config_eq := (config_perform sound.settled op).trans sound.config_eq
  settled := settled_perform sound.settled op
  wired := by
    obtain ⟨q, change, eq⟩ := perform_eq_settle sound.settled op
    have wired := sound.wired.change change
    rw [eq]
    constructor
    · simpa using wired.primary
    · simpa using wired.secondary

theorem Sound.performAll (sound : Sound config p) (history : List (Operation Wire)) :
    Sound config (p.performAll history).pair := by
  induction history generalizing p with
  | nil => exact sound
  | cons op history ih => exact ih (sound.perform op)

theorem Reachable.sound (h : Reachable config p) : Sound config p := by
  obtain ⟨history, rfl⟩ := h
  exact sound_new.performAll history

end PicCascade.Pair
