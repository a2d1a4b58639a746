import PicCascade.Proofs.Pair.Requests

/-!
# Delivery of edge-triggered requests

An edge-triggered line requests service when it rises. The request is delivered when the processor
takes it. Until then it waits, and a line that rises again while its request is waiting does not
request service twice. So no request is lost and none is delivered twice.

Results:
* `requested_perform_iff_of_ne`, `requested_setLine_iff`: what one operation does to the request of a
  line of either kind.
* `requested_perform_iff`: what it does to that of an edge-triggered line.
* `edges_delivered`: along a history, a line is delivered as often as it newly requested service, up
  to the request that is still waiting, and under its own vector or number.
-/

namespace PicCascade.Pair

variable {Wire : Type} {p q : Pair Wire} {op : Operation Wire} {n : UInt8}

/-! ## Requests and deliveries -/

/-- A line requests service. -/
def Requested (p : Pair Wire) (n : UInt8) : Prop :=
  (Line.ofGlobal n).2 ∈ (p.chip (Line.ofGlobal n).1).regs.irr

instance (p : Pair Wire) (n : UInt8) : Decidable (p.Requested n) :=
  inferInstanceAs (Decidable (_ ∈ (p.chip _).regs.irr))

/-- A line was high when it last changed. -/
def WasHigh (p : Pair Wire) (n : UInt8) : Prop :=
  (Line.ofGlobal n).2 ∈ (p.chip (Line.ofGlobal n).1).regs.lastHigh

instance (p : Pair Wire) (n : UInt8) : Decidable (p.WasHigh n) :=
  inferInstanceAs (Decidable (_ ∈ (p.chip _).regs.lastHigh))

/-- A line is edge-triggered. -/
def EdgeTriggered (p : Pair Wire) (n : UInt8) : Prop :=
  (Line.ofGlobal n).2 ∉ (p.chip (Line.ofGlobal n).1).regs.elcr

instance (p : Pair Wire) (n : UInt8) : Decidable (p.EdgeTriggered n) :=
  inferInstanceAs (Decidable (_ ∉ (p.chip _).regs.elcr))

/-- The operation delivers the request of a line to the processor. -/
def Delivers (n : UInt8) (p : Pair Wire) (op : Operation Wire) : Prop :=
  p.taken? op = some (Line.ofGlobal n)

instance (n : UInt8) (p : Pair Wire) (op : Operation Wire) : Decidable (Delivers n p op) :=
  inferInstanceAs (Decidable (_ = _))

/-- What an operation that delivers the request of a line has to answer: the vector of the line for
an acknowledge cycle, the number that the line has on its chip for a poll of the chip, and the number
that it has outside for a poll of the pair. -/
def delivery (n : UInt8) (p : Pair Wire) : Operation Wire → Answer
  | .acknowledge =>
    .byte ((p.chip (Line.ofGlobal n).1).regs.base + Line.toByte (Line.ofGlobal n).2)
  | .acknowledgeIfAsserted =>
    .vector (some ((p.chip (Line.ofGlobal n).1).regs.base + Line.toByte (Line.ofGlobal n).2))
  | .readPort _ => .byte (Line.toByte (Line.ofGlobal n).2)
  | .readIntack => .byte n
  | _ => .nothing

/-- The operation drives a line high that was low and did not request service. -/
def Raises (n : UInt8) (p : Pair Wire) : Operation Wire → Prop
  | .setLine m level => m = n ∧ level = true ∧ ¬ p.WasHigh n ∧ ¬ p.Requested n
  | _ => False

instance (n : UInt8) (p : Pair Wire) (op : Operation Wire) : Decidable (Raises n p op) :=
  match op with
  | .setLine .. => inferInstanceAs (Decidable (_ ∧ _))
  | .readPort _ | .writePort .. | .acknowledge | .acknowledgeIfAsserted | .readIntack | .reset _
  | .restore _ | .connect _ | .setCounting _ | .clearCounts => isFalse id

/-! ## One line, seen from outside -/

/-- The line is edge-triggered, and the operation does not reset its chip. -/
structure EdgeStep (n : UInt8) (p : Pair Wire) (op : Operation Wire) : Prop where
  edge : p.EdgeTriggered n
  keeps : KeepsChip (Line.ofGlobal n).1 p op

instance (n : UInt8) (p : Pair Wire) (op : Operation Wire) : Decidable (EdgeStep n p op) :=
  decidable_of_iff (p.EdgeTriggered n ∧ KeepsChip (Line.ofGlobal n).1 p op)
    ⟨fun ⟨edge, keeps⟩ => ⟨edge, keeps⟩, fun ⟨edge, keeps⟩ => ⟨edge, keeps⟩⟩

theorem leavesLine_of_ne (line : n.toNat < 16) (other : ∀ level, op ≠ .setLine n level) :
    LeavesLine (Line.ofGlobal n).1 (Line.ofGlobal n).2 op := by
  cases op with
  | setLine m level =>
    intro inside same
    have eq : m = n := (Line.ofGlobal_inj inside line).mp same
    exact other level (eq ▸ rfl)
  | _ => trivial

theorem own_of_ne_two (notCascade : n ≠ 2) :
    ((Line.ofGlobal n).1, (Line.ofGlobal n).2) ≠ (.primary, Line.cascade) :=
  fun eq => notCascade (Line.eq_two_of_ofGlobal eq)

theorem eq_setLine_of_raises (raises : Raises n p op) : ∃ level, op = .setLine n level := by
  cases op with
  | setLine m level => exact ⟨level, by rw [raises.1]⟩
  | _ => exact raises.elim

/-- An operation that does not drive a line and does not reset its chip keeps its request iff it
does not withdraw it. -/
theorem requested_perform_iff_of_ne (settled : p.Settled) (line : n.toNat < 16)
    (notCascade : n ≠ 2) (keeps : KeepsChip (Line.ofGlobal n).1 p op)
    (other : ∀ level, op ≠ .setLine n level) :
    (p.perform op).pair.Requested n ↔
      p.Requested n ∧ ¬ Withdraws (Line.ofGlobal n).1 (Line.ofGlobal n).2 p op := by
  obtain ⟨q, change, eq⟩ := perform_eq_settle settled op
  have own := own_of_ne_two notCascade
  unfold Requested
  rw [eq, mem_irr_settle () own]
  exact change.mem_irr_iff own keeps (leavesLine_of_ne line other)

/-- Driving a line makes an edge-triggered one request service if it rises, and a level-triggered one
while it is high. -/
theorem requested_setLine_iff (settled : p.Settled) (line : n.toNat < 16) (notCascade : n ≠ 2)
    {level : Bool} :
    (p.perform (.setLine n level)).pair.Requested n ↔
      if p.EdgeTriggered n then (level = true ∧ ¬ p.WasHigh n) ∨ p.Requested n
      else level = true := by
  obtain ⟨q, change, eq⟩ := perform_eq_settle settled (.setLine n level)
  unfold Requested
  rw [eq, mem_irr_settle () (own_of_ne_two notCascade)]
  cases change with
  | line =>
    rw [chip_modifyChip_self, Chip.mem_irr_setLine, if_pos rfl]
    by_cases edge : p.EdgeTriggered n
    · rw [if_pos edge, if_neg]
      · exact Iff.rfl
      · exact edge
    · rw [if_neg edge, if_pos]
      exact Decidable.not_not.mp edge
  | noLine outside => exact absurd line outside

/-- After one operation an edge-triggered line requests service iff it newly does, or did already
and was not delivered. -/
theorem requested_perform_iff (settled : p.Settled) (line : n.toNat < 16) (notCascade : n ≠ 2)
    (step : EdgeStep n p op) :
    (p.perform op).pair.Requested n ↔
      Raises n p op ∨ (p.Requested n ∧ ¬ Delivers n p op) := by
  by_cases drives : ∃ level, op = .setLine n level
  · obtain ⟨level, rfl⟩ := drives
    rw [requested_setLine_iff settled line notCascade, if_pos step.edge]
    show _ ↔ (n = n ∧ level = true ∧ ¬ p.WasHigh n ∧ ¬ p.Requested n) ∨
      (p.Requested n ∧ ¬ none = some (Line.ofGlobal n))
    by_cases requested : p.Requested n
    · simp [requested]
    · simp [requested]
  · have other : ∀ level, op ≠ .setLine n level := fun level eq => drives ⟨level, eq⟩
    have kept := requested_perform_iff_of_ne settled line notCascade step.keeps other
    rw [withdraws_iff_of_edge step.edge] at kept
    have quiet : ¬ Raises n p op := fun raises => drives (eq_setLine_of_raises raises)
    exact kept.trans (or_iff_right quiet).symm

/-- An operation that does not drive a line and does not reset its chip does not touch its edge
detector. -/
theorem wasHigh_perform_iff (settled : p.Settled) (line : n.toNat < 16) (notCascade : n ≠ 2)
    (keeps : KeepsChip (Line.ofGlobal n).1 p op) (other : ∀ level, op ≠ .setLine n level) :
    (p.perform op).pair.WasHigh n ↔ p.WasHigh n := by
  obtain ⟨q, change, eq⟩ := perform_eq_settle settled op
  unfold WasHigh
  rw [eq, mem_lastHigh_settle () (own_of_ne_two notCascade)]
  exact change.mem_lastHigh_iff keeps (leavesLine_of_ne line other)

/-- Driving a line sets its edge detector. -/
theorem wasHigh_setLine_iff (settled : p.Settled) (line : n.toNat < 16) (notCascade : n ≠ 2)
    {level : Bool} : (p.perform (.setLine n level)).pair.WasHigh n ↔ level = true := by
  obtain ⟨q, change, eq⟩ := perform_eq_settle settled (.setLine n level)
  unfold WasHigh
  rw [eq, mem_lastHigh_settle () (own_of_ne_two notCascade)]
  cases change with
  | line => rw [chip_modifyChip_self, Chip.mem_lastHigh_setLine, if_pos rfl]
  | noLine outside => exact absurd line outside

/-! ## Single deliveries -/

/-- Each delivery answers the vector or the number of the line that is delivered. -/
theorem answer_of_delivers (line : n.toNat < 16) (delivers : Delivers n p op) :
    (p.perform op).answer = delivery n p op := by
  have taken : p.taken? op = some ((Line.ofGlobal n).1, (Line.ofGlobal n).2) := delivers
  cases op with
  | acknowledge =>
    exact congrArg Answer.byte (answer_acknowledge taken)
  | acknowledgeIfAsserted =>
    have asks : p.output = true := output_of_offered? taken
    simp only [perform, Pair.acknowledgeIfAsserted, asks, if_true]
    exact congrArg (Answer.vector ∘ some) (answer_acknowledge taken)
  | readIntack =>
    have number := answer_readIntack taken
    rw [Line.global_ofGlobal line] at number
    exact congrArg Answer.byte number
  | readPort port =>
    obtain ⟨decoded, asked, offered⟩ := taken?_readPort_eq_some taken
    have polled := poll_fst offered
    simp only [perform, readPort, decoded, readRegister, readCommand, asked, if_true, Outcome.map,
      settle, delivery, polled]
  | _ => cases taken

/-- What is delivered was requested. -/
theorem requested_of_delivers (delivers : Delivers n p op) : p.Requested n := by
  have taken : p.taken? op = some ((Line.ofGlobal n).1, (Line.ofGlobal n).2) := delivers
  have offered : ∀ {position i}, p.offered? = some (position, i) →
      i ∈ (p.chip position).regs.irr := by
    intro position i offered
    cases position with
    | primary => exact Chip.mem_irr_of_pending? (offered?_eq_primary.mp offered).1
    | secondary => exact Chip.mem_irr_of_pending? (offered?_eq_secondary.mp offered).2
  cases op with
  | acknowledge | acknowledgeIfAsserted | readIntack => exact offered taken
  | readPort port => exact Chip.mem_irr_of_pending? (taken?_readPort_eq_some taken).2.2
  | _ => cases taken

theorem not_delivers_setLine {m : UInt8} {level : Bool} :
    ¬ Delivers n p (.setLine m level) := by
  simp [Delivers, taken?]

/-! ## Whole histories -/

/-- The number of requests of a line that wait to be delivered: one or none. -/
def waiting (p : Pair Wire) (n : UInt8) : Nat := if p.Requested n then 1 else 0

/-- Over one operation, requests and deliveries of a line balance. -/
theorem waiting_perform (settled : p.Settled) (line : n.toNat < 16) (notCascade : n ≠ 2)
    (step : EdgeStep n p op) :
    p.waiting n + (if Raises n p op then 1 else 0) =
      (if Delivers n p op then 1 else 0) + (p.perform op).pair.waiting n := by
  have after := requested_perform_iff settled line notCascade step
  by_cases raises : Raises n p op
  · obtain ⟨level, rfl⟩ := eq_setLine_of_raises raises
    have new : ¬ p.Requested n := raises.2.2.2
    simp [waiting, after, raises, not_delivers_setLine, new]
  · by_cases delivers : Delivers n p op
    · have old := requested_of_delivers delivers
      simp [waiting, after, raises, delivers, old]
    · simp [waiting, after, raises, delivers]

theorem waiting_performAll (settled : p.Settled) (line : n.toNat < 16) (notCascade : n ≠ 2)
    {history : List (Operation Wire)} (along : p.Along (EdgeStep n) history) :
    p.waiting n + p.countAlong (Raises n) history =
      p.countAlong (Delivers n) history + (p.performAll history).pair.waiting n := by
  induction history generalizing p with
  | nil => simp [countAlong, performAll]
  | cons op history ih =>
    obtain ⟨step, others⟩ := along
    have first := waiting_perform settled line notCascade step
    have rest := ih (settled_perform settled op) others
    simp only [countAlong, performAll]
    omega

theorem wasHigh_performAll_iff (settled : p.Settled) (line : n.toNat < 16) (notCascade : n ≠ 2)
    {history : List (Operation Wire)} (along : p.Along (EdgeStep n) history)
    (untouched : ∀ level, .setLine n level ∉ history) :
    (p.performAll history).pair.WasHigh n ↔ p.WasHigh n := by
  induction history generalizing p with
  | nil => exact Iff.rfl
  | cons op history ih =>
    obtain ⟨step, others⟩ := along
    have other : ∀ level, op ≠ .setLine n level :=
      fun level eq => untouched level (eq ▸ List.mem_cons_self)
    have first := wasHigh_perform_iff settled line notCascade step.keeps other
    have rest := ih (settled_perform settled op) others
      fun level inside => untouched level (List.mem_cons_of_mem op inside)
    exact rest.trans first

/-- A line that is driven low and later high requests service then. -/
theorem requested_of_rises (settled : p.Settled) (line : n.toNat < 16) (notCascade : n ≠ 2)
    {between : List (Operation Wire)} (untouched : ∀ level, .setLine n level ∉ between)
    (along : p.Along (EdgeStep n) (.setLine n false :: (between ++ [.setLine n true]))) :
    (p.performAll (.setLine n false :: (between ++ [.setLine n true]))).pair.Requested n := by
  obtain ⟨-, along⟩ := along
  obtain ⟨quiet, rise, -⟩ := along_append.mp along
  have low : ¬ (p.perform (.setLine n false)).pair.WasHigh n := by
    rw [wasHigh_setLine_iff settled line notCascade]
    exact Bool.false_ne_true
  have kept := wasHigh_performAll_iff (settled_perform settled _) line notCascade quiet untouched
  rw [performAll, pair_performAll_append]
  refine (requested_perform_iff ?_ line notCascade rise).mpr ?_
  · exact settled_performAll (settled_perform settled _) between
  · by_cases old : Requested ((p.perform (.setLine n false)).pair.performAll between).pair n
    · exact .inr ⟨old, not_delivers_setLine⟩
    · exact .inl ⟨rfl, rfl, fun high => low (kept.mp high), old⟩

/-- Edge-triggered requests are delivered exactly once. Take a line from 0 to 15 other than the
cascade line, and a history from any reachable pair during which the line stays edge-triggered and
its chip is not reset. The line is delivered once for each time that it newly requested service,
except for a request that is still waiting. Each delivery answers the vector or the number of the
line. Whenever the line is driven low and the next time high, it requests service then. -/
theorem edges_delivered {config : Config} (reachable : Reachable config p) (line : n.toNat < 16)
    (notCascade : n ≠ 2) {history : List (Operation Wire)}
    (along : p.Along (EdgeStep n) history) :
    (p.waiting n + p.countAlong (Raises n) history =
      p.countAlong (Delivers n) history + (p.performAll history).pair.waiting n) ∧
    (∀ steps op, steps ++ [op] <+: history → Delivers n (p.performAll steps).pair op →
      ((p.performAll steps).pair.perform op).answer = delivery n (p.performAll steps).pair op) ∧
    (∀ steps between, steps ++ .setLine n false :: (between ++ [.setLine n true]) <+: history →
      (∀ level, .setLine n level ∉ between) →
      (p.performAll (steps ++ .setLine n false :: (between ++ [.setLine n true]))).pair.Requested
        n) := by
  have settled := reachable.sound.settled
  refine ⟨waiting_performAll settled line notCascade along, ?_, ?_⟩
  · intro steps op _ delivers
    exact answer_of_delivers line delivers
  · intro steps between within untouched
    obtain ⟨-, rises⟩ := along_append.mp (along.of_prefix within)
    rw [pair_performAll_append]
    exact requested_of_rises (settled_performAll settled steps) line notCascade untouched rises

/-- Line 9 rises four times. The second rise finds the first request still waiting. One request is
taken by an acknowledge cycle, one by a poll of the pair, and one waits at the end. -/
def fourEdges : List (Operation Unit) :=
  [.setLine 9 true, .setLine 9 false, .setLine 4 true, .setLine 9 true, .acknowledge,
    .writePort 0xA0 0x20, .writePort 0x20 0x20, .writePort 0x20 0x0C, .readPort 0x20,
    .setLine 9 false, .setLine 9 true, .readIntack, .setLine 9 false, .setLine 9 true]

theorem edges_delivered_fourEdges :
    let p : Pair Unit := new {}
    p.Along (EdgeStep 9) fourEdges ∧
      p.waiting 9 + p.countAlong (Raises 9) fourEdges =
        p.countAlong (Delivers 9) fourEdges + (p.performAll fourEdges).pair.waiting 9 ∧
      p.countAlong (Raises 9) fourEdges = 3 ∧ p.countAlong (Delivers 9) fourEdges = 2 ∧
      (p.performAll fourEdges).pair.Requested 9 := by
  intro p
  have along : p.Along (EdgeStep 9) fourEdges := by decide
  obtain ⟨balance, -, rises⟩ :=
    edges_delivered (n := 9) ⟨[], rfl⟩ (by decide) (by decide) along
  have ends : fourEdges =
      fourEdges.take 12 ++ .setLine 9 false :: ([] ++ [.setLine 9 true]) := rfl
  have last := rises (fourEdges.take 12) [] (ends ▸ List.prefix_refl fourEdges) nofun
  rw [← ends] at last
  exact ⟨along, balance, by decide +kernel, by decide +kernel, last⟩

end PicCascade.Pair
