import Mathlib.Data.List.Destutter
import PicCascade.Proofs.Pair.History

/-!
# Driving the wire

A pair remembers the level to which it last drove its output. That level is the output of the
primary as it was last recomputed, and whatever is connected hears of it when it is connected and
whenever it changes.

Results:
* `follows_perform`: an operation drives the wire iff the level changes, and then once.
* `level_perform`: an operation leaves the level as it was unless it recomputes the output of the
  primary.
* `driven_performAll`: a wire is driven to each level that differs from the one before.
* `driven_exact`: all this along every run, and that a replaced wire is not driven again.
-/

namespace PicCascade

variable {Wire : Type}

namespace Pair

/-! ## What one operation drives -/

/-- The operation connects the output. -/
def Operation.Connects : Operation Wire → Prop
  | .connect _ => True
  | _ => False

instance (op : Operation Wire) : Decidable op.Connects :=
  match op with
  | .connect _ => isTrue trivial
  | .setLine .. | .readPort _ | .writePort .. | .acknowledge | .acknowledgeIfAsserted | .readIntack
  | .reset _ | .restore _ | .setCounting _ | .clearCounts => isFalse id

variable {p q : Pair Wire}

theorem SameWire.modifyChip (h : p.SameWire q) (position : Position)
    (f : Chip position → Chip position) : p.SameWire (q.modifyChip position f) := by
  cases position <;> exact ⟨h.wire, h.level⟩

theorem SameWire.pollPrimary (h : p.SameWire q) : p.SameWire q.pollPrimary.2 := by
  unfold Pair.pollPrimary
  split <;> exact ⟨h.wire, h.level⟩

theorem SameWire.pollSecondary (h : p.SameWire q) : p.SameWire q.pollSecondary.2 := by
  unfold Pair.pollSecondary
  split <;> exact ⟨h.wire, h.level⟩

theorem SameWire.poll (h : p.SameWire q) (position : Position) :
    p.SameWire (q.poll position).2 := by
  cases position with
  | primary => exact h.pollPrimary
  | secondary => exact h.pollSecondary

theorem sameWire_refl (p : Pair Wire) : p.SameWire p := ⟨rfl, rfl⟩

theorem follows_setLine (p : Pair Wire) (n : UInt8) (level : Bool) :
    p.Follows (p.setLine n level) := by
  unfold Pair.setLine
  split
  · rename_i line
    have counted : p.SameWire { p with counters := p.counters.record ⟨n.toNat, line⟩ level } :=
      ⟨rfl, rfl⟩
    exact follows_settle (counted.modifyChip ..) ()
  · exact follows_idle p.sameWire_refl ()

theorem follows_acknowledge (p : Pair Wire) : p.Follows p.acknowledge := by
  unfold Pair.acknowledge
  split
  · exact follows_settle p.sameWire_refl _
  · split
    · dsimp only
      split
      all_goals
        apply follows_settle
        exact ⟨rfl, rfl⟩
    · apply follows_settle
      exact ⟨rfl, rfl⟩

theorem follows_acknowledgeIfAsserted (p : Pair Wire) : p.Follows p.acknowledgeIfAsserted := by
  unfold Pair.acknowledgeIfAsserted
  split
  · exact (follows_acknowledge p).map some
  · exact follows_idle p.sameWire_refl none

theorem follows_readIntack (p : Pair Wire) : p.Follows p.readIntack := by
  have polled := p.sameWire_refl.pollPrimary
  unfold Pair.readIntack
  dsimp only
  split
  · exact follows_settle (polled.pollSecondary.modifyChip ..) _
  · exact follows_settle (polled.modifyChip ..) _

theorem follows_readPort (p : Pair Wire) (port : UInt16) : p.Follows (p.readPort port) := by
  unfold Pair.readPort
  split
  · exact follows_idle p.sameWire_refl _
  · rename_i register _
    cases register with
    | command position =>
      rw [readRegister, readCommand]
      split
      · exact follows_settle ((p.sameWire_refl.poll position).modifyChip ..) _
      · exact follows_idle p.sameWire_refl _
    | data position | elcr position => exact follows_idle p.sameWire_refl _

theorem follows_writePort (p : Pair Wire) (port : UInt16) (value : UInt8) :
    p.Follows (p.writePort port value) := by
  unfold Pair.writePort
  split
  · exact follows_idle p.sameWire_refl none
  · rename_i register _
    cases register with
    | command position | data position | elcr position =>
      exact follows_settle (p.sameWire_refl.modifyChip ..) _

theorem follows_reset (p : Pair Wire) (kind : ResetKind) : p.Follows (p.reset kind) := by
  cases kind with
  | device | cold =>
    apply follows_settle
    exact ⟨rfl, rfl⟩

theorem follows_restore (p : Pair Wire) (bytes : List UInt8) : p.Follows (p.restore bytes) := by
  unfold Pair.restore
  split
  · exact follows_idle p.sameWire_refl _
  · apply Follows.map
    unfold load
    apply follows_settle
    exact ⟨rfl, rfl⟩

/-- An operation other than connecting keeps the wire and drives it iff the level changes. -/
theorem follows_perform (p : Pair Wire) {op : Operation Wire} (keeps : ¬ op.Connects) :
    p.Follows (p.perform op) := by
  cases op with
  | setLine n level => exact (follows_setLine p n level).map fun _ => Answer.nothing
  | readPort port => exact (follows_readPort p port).map _
  | writePort port value => exact (follows_writePort p port value).map _
  | acknowledge => exact (follows_acknowledge p).map _
  | acknowledgeIfAsserted => exact (follows_acknowledgeIfAsserted p).map _
  | readIntack => exact (follows_readIntack p).map _
  | reset kind => exact (follows_reset p kind).map fun _ => Answer.nothing
  | restore bytes => exact (follows_restore p bytes).map _
  | connect wire => exact absurd trivial keeps
  | setCounting on | clearCounts =>
    apply follows_idle
    exact ⟨rfl, rfl⟩

/-- No operation drives the wire more than once. -/
theorem length_driven_perform_le (p : Pair Wire) (op : Operation Wire) :
    (p.perform op).driven.length ≤ 1 := by
  have atMostOne (wire : Option Wire) (level : Bool) :
      (wire.toList.map (·, level)).length ≤ 1 := by
    cases wire <;> simp
  by_cases connects : op.Connects
  · cases op with
    | connect wire => exact atMostOne wire p.level
    | _ => exact connects.elim
  · rw [(follows_perform p connects).driven]
    split
    · exact Nat.zero_le 1
    · exact atMostOne p.wire _

/-! ## The latest recomputation -/

/-- The operation recomputes the output of the primary. A poll of the primary that finds the cascade
line does not. -/
def recomputes (p : Pair Wire) : Operation Wire → Bool
  | .setLine n _ => n.toNat < 16
  | .readPort port =>
    match p.config.decode? port with
    | some (.command .primary) =>
      p.primary.regs.poll && p.primary.pending?.any (· ≠ Line.cascade)
    | some (.command .secondary) => p.secondary.regs.poll && p.secondary.pending?.isSome
    | some (.data _) | some (.elcr _) | none => false
  | .writePort port value =>
    match p.config.decode? port with
    | some (.command position) => (p.chip position).recomputes (Command.decode value)
    | some (.data position) => (p.chip position).regs.stage = .ready
    | some (.elcr _) | none => false
  | .acknowledge | .acknowledgeIfAsserted => p.output
  | .readIntack => p.primary.pending?.any fun i => i ≠ Line.cascade || p.secondary.pending?.isSome
  | .reset _ => true
  | .restore bytes => (Saved.ofBytes bytes).isOk
  | .connect _ | .setCounting _ | .clearCounts => false

/-- The value of the latest recomputation of the primary's output after a history, and `value` if it
was not recomputed. -/
def latestOutput (p : Pair Wire) (value : Bool) : List (Operation Wire) → Bool
  | [] => value
  | op :: history =>
    let after := (p.perform op).pair
    after.latestOutput (if p.recomputes op then after.output else value) history

/-- The output of the primary has been recomputed, or will be when the pair settles because that of
the secondary has been recomputed. -/
def Due (p : Pair Wire) : Prop := p.primary.Recomputed ∨ p.secondary.unforwarded = true

theorem due_modifyChip {position : Position} {f : Chip position → Chip position}
    (h : (f (p.chip position)).Recomputed) : (p.modifyChip position f).Due := by
  cases position with
  | primary => exact .inl h
  | secondary => exact .inr h.marked

theorem Settled.modifyChip (settled : p.Settled) {position : Position}
    {f : Chip position → Chip position}
    (h : (f (p.chip position)).unforwarded = (p.chip position).unforwarded) :
    (p.modifyChip position f).Settled := by
  cases position with
  | primary => exact ⟨h.trans settled.primary, settled.secondary⟩
  | secondary => exact ⟨settled.primary, h.trans settled.secondary⟩

theorem recomputes_readPort_of_not_polls {port : UInt16} (quiet : ¬ p.Polls port) :
    p.recomputes (.readPort port) = false := by
  cases decoded : p.config.decode? port with
  | none => simp [recomputes, decoded]
  | some register =>
    cases register with
    | command position =>
      have asked : ¬ (p.chip position).regs.poll = true := fun asked => quiet ⟨_, decoded, asked⟩
      cases position with
      | primary => simp [recomputes, decoded, show ¬ p.primary.regs.poll = true from asked]
      | secondary => simp [recomputes, decoded, show ¬ p.secondary.regs.poll = true from asked]
    | data position | elcr position => simp [recomputes, decoded]

theorem AcknowledgeChange.due_or_settled (h : p.AcknowledgeChange q) (settled : p.Settled) :
    (p.output = true ∧ q.Due) ∨ (p.output = false ∧ q.Settled) := by
  cases h with
  | idle offered => exact .inr ⟨congrArg Option.isSome offered, settled⟩
  | own offered | spurious offered | cascaded offered =>
    exact .inl ⟨congrArg Option.isSome offered, .inl (Chip.recomputed_refresh _)⟩

/-- Before it settles, an operation that recomputes the output of the primary has done so or leaves
it to settling, and any other operation leaves nothing to settle. -/
theorem Change.due_or_settled {op : Operation Wire} (h : p.Change op q) (settled : p.Settled) :
    (p.recomputes op = true ∧ q.Due) ∨ (p.recomputes op = false ∧ q.Settled) := by
  cases h with
  | line h => exact .inl ⟨decide_eq_true h, due_modifyChip (Chip.recomputed_refresh _)⟩
  | noLine h => exact .inr ⟨decide_eq_false h, settled⟩
  | @read port quiet =>
    exact .inr ⟨recomputes_readPort_of_not_polls quiet, settled⟩
  | pollPrimary decoded asked poll =>
    cases poll with
    | idle offered =>
      exact .inr ⟨by simp [recomputes, decoded, offered], settled.primary, settled.secondary⟩
    | own offered notCascade =>
      refine .inl ⟨by simp [recomputes, decoded, asked, offered, notCascade], .inl ?_⟩
      exact (Chip.recomputed_refresh _).modify fun _ => rfl
  | pollCascade decoded asked offered =>
    exact .inr ⟨by simp [recomputes, decoded, offered], settled.primary, settled.secondary⟩
  | pollSecondary decoded asked poll =>
    cases poll with
    | idle offered =>
      exact .inr ⟨by simp [recomputes, decoded, offered], settled.primary, settled.secondary⟩
    | own offered => exact .inl ⟨by simp [recomputes, decoded, asked, offered], .inr rfl⟩
  | noWrite decoded => exact .inr ⟨by simp [recomputes, decoded], settled⟩
  | @writeCommand port value position decoded =>
    cases recomputed : (p.chip position).recomputes (Command.decode value) with
    | true =>
      refine .inl ⟨by simpa [recomputes, decoded] using recomputed, ?_⟩
      exact due_modifyChip (Chip.recomputed_execute recomputed)
    | false =>
      refine .inr ⟨by simpa [recomputes, decoded] using recomputed, ?_⟩
      exact settled.modifyChip (Chip.unforwarded_execute recomputed)
  | @writeData port value position decoded =>
    by_cases ready : (p.chip position).regs.stage = .ready
    · refine .inl ⟨by simpa [recomputes, decoded] using ready, ?_⟩
      exact due_modifyChip (Chip.recomputed_writeData value ready)
    · refine .inr ⟨by simpa [recomputes, decoded] using ready, ?_⟩
      exact settled.modifyChip (Chip.unforwarded_writeData value ready)
  | writeElcr decoded =>
    exact .inr ⟨by simp [recomputes, decoded], settled.modifyChip rfl⟩
  | acknowledge cycle => exact cycle.due_or_settled settled
  | asserted asks cycle => exact cycle.due_or_settled settled
  | notAsserted asks => exact .inr ⟨asks, settled⟩
  | intackPrimary poll =>
    cases poll with
    | idle offered =>
      exact .inr ⟨by simp [recomputes, offered], settled.primary, settled.secondary⟩
    | own offered notCascade =>
      refine .inl ⟨by simp [recomputes, offered, notCascade], .inl ?_⟩
      exact (Chip.recomputed_refresh _).modify fun _ => rfl
  | intackSecondary offered poll =>
    cases poll with
    | idle behind =>
      have behind : p.secondary.pending? = none := behind
      exact .inr ⟨by simp [recomputes, offered, behind], settled.primary, settled.secondary⟩
    | @own j behind =>
      have behind : p.secondary.pending? = some j := behind
      exact .inl ⟨by simp [recomputes, offered, behind], .inr rfl⟩
  | deviceReset | coldReset => exact .inl ⟨rfl, .inl (Chip.recomputed_refresh _)⟩
  | refused decoded =>
    exact .inr ⟨by simp [recomputes, decoded, Except.isOk, Except.toBool], settled⟩
  | restored decoded =>
    refine .inl ⟨by simp [recomputes, decoded, Except.isOk, Except.toBool], .inl ?_⟩
    exact Chip.recomputed_refresh _
  | connect | setCounting | clearCounts => exact .inr ⟨rfl, settled.primary, settled.secondary⟩

/-- An operation that recomputes the output of the primary leaves the wire at the recomputed level,
and any other operation leaves it as it was. -/
theorem level_perform (settled : p.Settled) (op : Operation Wire) :
    (p.perform op).pair.level =
      if p.recomputes op then (p.perform op).pair.output else p.level := by
  obtain ⟨q, change, eq⟩ := perform_eq_settle settled op
  rw [eq]
  rcases change.due_or_settled settled with ⟨recomputed, due⟩ | ⟨kept, still⟩
  · rw [if_pos recomputed]
    rcases due with primary | secondary
    · exact level_settle_of_recomputed () primary.marked primary.current
    · exact level_settle_of_relayed () secondary
  · rw [if_neg (by simp [kept]), settle_of_settled still]
    exact change.level_eq

/-- The level of the wire is the latest recomputed output of the primary. -/
theorem level_performAll (settled : p.Settled) (history : List (Operation Wire)) :
    (p.performAll history).pair.level = p.latestOutput p.level history := by
  induction history generalizing p with
  | nil => rfl
  | cons op history ih =>
    rw [latestOutput, ← level_perform settled op]
    exact ih (settled_perform settled op)

/-! ## What a wire hears in a run -/

/-- The level of the wire after each operation of a history. -/
def levels (p : Pair Wire) : List (Operation Wire) → List Bool
  | [] => []
  | op :: history => (p.perform op).pair.level :: (p.perform op).pair.levels history

/-- While a wire is connected, it is driven to each level that differs from the one before. -/
theorem driven_performAll {w : Wire} (connected : p.wire = some w)
    {history : List (Operation Wire)} (keeps : ∀ op ∈ history, ¬ op.Connects) :
    (w, p.level) :: (p.performAll history).driven =
      ((p.levels history).destutter' (· ≠ ·) p.level).map (w, ·) := by
  induction history generalizing p with
  | nil => rfl
  | cons op history ih =>
    have step := follows_perform p (keeps op List.mem_cons_self)
    have rest := ih (step.wire.trans connected) fun op' h => keeps op' (List.mem_cons_of_mem op h)
    show (w, p.level) :: ((p.perform op).driven ++ _) = _
    rw [step.driven, connected, levels]
    by_cases same : (p.perform op).pair.level = p.level
    · rw [if_pos same, List.nil_append, List.destutter'_cons_neg _ (not_not.mpr same.symm), ← same]
      exact rest
    · rw [if_neg same, List.destutter'_cons_pos _ (Ne.symm same), List.map_cons, ← rest]
      rfl

/-- The last level that a wire was driven to is that of the pair. -/
theorem getLast?_driven {w : Wire} (connected : p.wire = some w)
    {history : List (Operation Wire)} (keeps : ∀ op ∈ history, ¬ op.Connects) :
    ((w, p.level) :: (p.performAll history).driven).getLast? =
      some (w, (p.performAll history).pair.level) := by
  induction history generalizing p with
  | nil => rfl
  | cons op history ih =>
    have step := follows_perform p (keeps op List.mem_cons_self)
    have rest := ih (step.wire.trans connected) fun op' h => keeps op' (List.mem_cons_of_mem op h)
    show ((w, p.level) :: ((p.perform op).driven ++ _)).getLast? = _
    rw [step.driven, connected]
    by_cases same : (p.perform op).pair.level = p.level
    · rw [if_pos same, List.nil_append, ← same]
      exact rest
    · rw [if_neg same]
      exact List.getLast?_cons_cons.trans rest

theorem fst_ne_of_mem_driven {w : Wire} {wire : Option Wire} (other : wire ≠ some w)
    {level : Bool} {d : Wire × Bool} (hd : d ∈ wire.toList.map (·, level)) : d.1 ≠ w := by
  obtain ⟨v, hv, rfl⟩ := List.mem_map.mp hd
  rintro rfl
  exact other (Option.mem_toList.mp hv)

/-- A wire that is not connected is not driven. -/
theorem not_driven {w : Wire} (elsewhere : p.wire ≠ some w) {history : List (Operation Wire)}
    (apart : ∀ op ∈ history, op ≠ .connect (some w)) :
    ∀ d ∈ (p.performAll history).driven, d.1 ≠ w := by
  induction history generalizing p with
  | nil => simp [performAll]
  | cons op history ih =>
    have apart' : ∀ op' ∈ history, op' ≠ .connect (some w) :=
      fun op' h => apart op' (List.mem_cons_of_mem op h)
    have first : op ≠ .connect (some w) := apart op List.mem_cons_self
    -- the step keeps away from `w`, and so does the wire that it leaves connected
    have step : (∀ d ∈ (p.perform op).driven, d.1 ≠ w) ∧ (p.perform op).pair.wire ≠ some w := by
      by_cases connects : op.Connects
      · cases op with
        | connect wire =>
          have other : wire ≠ some w := fun eq => first (congrArg Operation.connect eq)
          exact ⟨fun d hd => fst_ne_of_mem_driven other hd, other⟩
        | _ => exact connects.elim
      · have follows := follows_perform p connects
        refine ⟨fun d hd => ?_, follows.wire ▸ elsewhere⟩
        rw [follows.driven] at hd
        split at hd
        · cases hd
        · exact fst_ne_of_mem_driven elsewhere hd
    intro d hd
    rcases List.mem_append.mp hd with now | later
    · exact step.1 d now
    · exact ih step.2 apart' d later

/-! ## Every run -/

/-- After every run from power-on no output is left unforwarded, and the level of the wire is the
latest recomputed output of the primary. Each further operation drives at most once. A wire that is
connected is driven to the level it finds, then to each level that differs from the one before, so
that the levels alternate and the last is that of the pair; once replaced, it is not driven. -/
theorem driven_exact (config : Config) (history : List (Operation Wire)) :
    let p := ((new config).performAll history).pair
    p.Settled ∧ p.level = (new config : Pair Wire).latestOutput false history ∧
      (∀ op, (p.perform op).driven.length ≤ 1) ∧
      (∀ w, (p.perform (.connect (some w))).driven = [(w, p.level)]) ∧
      (∀ w later, (∀ op ∈ later, ¬ op.Connects) →
        let connected := .connect (some w) :: later
        let o := p.performAll connected
        o.driven = ((p.levels connected).destutter (· ≠ ·)).map (w, ·) ∧
          (o.driven.map Prod.snd).IsChain (· ≠ ·) ∧
          o.driven.getLast? = some (w, o.pair.level)) ∧
      (∀ w wire, wire ≠ some w → ∀ later, (∀ op ∈ later, op ≠ .connect (some w)) →
        ∀ d ∈ (p.performAll (.connect wire :: later)).driven, d.1 ≠ w) := by
  intro p
  have settled : p.Settled := settled_performAll sound_new.settled history
  refine ⟨settled, level_performAll sound_new.settled history, length_driven_perform_le p,
    fun w => rfl, fun w later keeps => ?_, fun w wire other later apart => ?_⟩
  · intro connected o
    let q : Pair Wire := (p.perform (.connect (some w))).pair
    have wire : q.wire = some w := rfl
    have heard : o.driven = ((p.levels connected).destutter (· ≠ ·)).map (w, ·) :=
      driven_performAll (p := q) wire keeps
    refine ⟨heard, ?_, getLast?_driven (p := q) wire keeps⟩
    have levels : o.driven.map Prod.snd = (p.levels connected).destutter (· ≠ ·) := by
      rw [heard, List.map_map]
      exact List.map_id _
    rw [levels]
    exact List.isChain_destutter _ _
  · let q : Pair Wire := (p.perform (.connect wire)).pair
    have elsewhere : q.wire ≠ some w := other
    intro d hd
    rcases List.mem_append.mp hd with now | afterwards
    · exact fst_ne_of_mem_driven other now
    · exact not_driven elsewhere apart d afterwards

/-- Line 1 is acknowledged, and line 4 waits for the end of its service. -/
def serviceThenNext : List (Operation Unit) :=
  [.acknowledge, .setLine 4 true, .writePort 0x20 0x20]

/-- A wire that is connected while line 1 requests service hears of the request, of its
acknowledgement, and of line 4 once line 1 is done with. -/
theorem driven_exact_serviceThenNext :
    (∀ op ∈ serviceThenNext, ¬ op.Connects) ∧
      (((new {}).performAll [.setLine 1 true]).pair.performAll
        (.connect (some ()) :: serviceThenNext)).driven =
          [((), true), ((), false), ((), true)] ∧
      (((new {}).performAll [.setLine 1 true]).pair.performAll
        (.connect (some ()) :: serviceThenNext)).pair.level = true := by
  have keeps : ∀ op ∈ serviceThenNext, ¬ op.Connects := by decide
  have driven : (((new {}).performAll [.setLine 1 true]).pair.performAll
      (.connect (some ()) :: serviceThenNext)).driven =
        [((), true), ((), false), ((), true)] := by decide
  have last := ((driven_exact {} [.setLine 1 true]).2.2.2.2.1 () serviceThenNext keeps).2.2
  rw [driven] at last
  have same := congrArg (Option.map Prod.snd) last
  exact ⟨keeps, driven, (Option.some.inj same).symm⟩

end Pair

end PicCascade
