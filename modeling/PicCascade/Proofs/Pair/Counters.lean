import PicCascade.Counters.Words
import PicCascade.Pair.Text
import PicCascade.Proofs.Pair.Change

/-!
# Counters beside the pair

The edge counters look on. What an operation does to them depends on the operation and on nothing else
of the pair, and whatever else an operation does and answers does not depend on them. So a pair with
other counters runs the same history in the same way, and the operations that concern the counters
alone can be put in or left out anywhere.

Results:
* `perform_withCounters`: an operation on a pair with other counters.
* `counters_perform`, `counters_performAll`: what an operation and a history do to the counters.
* `sameCourse_of_filter_eq`: histories that differ only in the operations that concern the counters
  alone.
-/

namespace PicCascade

variable {Wire α : Type}

/-! ## One counter -/

/-- A counter is one higher if its line rises while counting is on. -/
theorem Counters.counts_record {c : Counters} {i : Fin 16} {level : Bool} {k : Nat}
    (within : k < 16) :
    (c.record i level).counts[k] =
      c.counts[k] + if i = k ∧ level = true ∧ i ∉ c.high ∧ c.enabled = true then 1 else 0 := by
  by_cases counts : c.enabled && level && decide (i ∉ c.high)
  · have counted : (c.record i level).counts = c.counts.set i (c.counts[i] + 1) := if_pos counts
    simp only [Bool.and_eq_true, decide_eq_true_eq] at counts
    obtain ⟨⟨on, high⟩, low⟩ := counts
    by_cases same : i = k
    · subst same
      rw [if_pos ⟨rfl, high, low, on⟩]
      simp only [counted, Vector.getElem_set_self, Fin.getElem_fin]
    · rw [if_neg fun rise => same rise.1]
      simp only [counted, Vector.getElem_set_ne _ _ same, Nat.add_zero]
  · have kept : (c.record i level).counts = c.counts := if_neg counts
    simp only [Bool.and_eq_true, decide_eq_true_eq, not_and] at counts
    have quiet : ¬ (i = k ∧ level = true ∧ i ∉ c.high ∧ c.enabled = true) :=
      fun ⟨_, high, low, on⟩ => counts ⟨on, high⟩ low
    simp only [kept, if_neg quiet, Nat.add_zero]

/-! ## What an operation does to the counters -/

/-- The counters after an operation. -/
def Counters.after (c : Counters) : Pair.Operation Wire → Counters
  | .setLine n level => if h : n.toNat < 16 then c.record ⟨n.toNat, h⟩ level else c
  | .restore bytes =>
    match Saved.ofBytes bytes with
    | .error _ => c
    | .ok saved => { c with enabled := saved.counting.getD c.enabled }
  | .setCounting on => { c with enabled := on }
  | .clearCounts => c.clear
  | _ => c

/-- The counters in words after an operation, unless a count exceeds a word. -/
def WordCounters.after? (c : WordCounters) : Pair.Operation Wire → Option WordCounters
  | .setLine n level => if n.toNat < 16 then c.record? n level else some c
  | .restore bytes =>
    match Saved.ofBytes bytes with
    | .error _ => some c
    | .ok saved => some { c with enabled := saved.counting.getD c.enabled }
  | .setCounting on => some { c with enabled := on }
  | .clearCounts => some c.clear
  | _ => some c

/-- The operation concerns the counters alone. -/
def Pair.Operation.forCounters : Pair.Operation Wire → Bool
  | .setCounting _ | .clearCounts => true
  | _ => false

namespace Pair

/-- The pair with other counters. -/
def withCounters (p : Pair Wire) (counters : Counters) : Pair Wire := { p with counters }

/-- The pair but for its counters. -/
def uncounted (p : Pair Wire) : Pair Wire := p.withCounters { enabled := false }

end Pair

namespace Outcome

/-- The outcome with other counters in the pair that is left. -/
def withCounters (o : Outcome Wire α) (counters : Counters) : Outcome Wire α :=
  ⟨o.answer, o.pair.withCounters counters, o.driven⟩

/-- The outcome but for the counters of the pair that is left. -/
def uncounted (o : Outcome Wire α) : Outcome Wire α := o.withCounters { enabled := false }

end Outcome

namespace Pair

variable {p : Pair Wire} {c : Counters} {op : Operation Wire}

/-! ## One operation on a pair with other counters -/

theorem relay_withCounters : (p.withCounters c).relay = p.relay.withCounters c := by
  unfold relay
  cases waiting : p.secondary.unforwarded with
  | false => simp only [withCounters, waiting]; rfl
  | true => simp only [withCounters, waiting]; rfl

theorem drive_withCounters : (p.withCounters c).drive = p.drive.withCounters c := by
  unfold drive
  cases waiting : p.primary.unforwarded with
  | false => simp only [withCounters, waiting]; rfl
  | true => simp only [withCounters, waiting]; rfl

theorem settle_withCounters (a : α) : (p.withCounters c).settle a = (p.settle a).withCounters c := by
  rw [settle, relay_withCounters, drive_withCounters]
  rfl

theorem modifyChip_withCounters (position : Position) (f : Chip position → Chip position) :
    (p.withCounters c).modifyChip position f = (p.modifyChip position f).withCounters c := by
  cases position with
  | primary => rfl
  | secondary => rfl

theorem setLine_withCounters (n : UInt8) (level : Bool) :
    (p.withCounters c).setLine n level =
      (p.setLine n level).withCounters (c.after (.setLine n level : Operation Wire)) := by
  unfold setLine Counters.after
  by_cases line : n.toNat < 16
  · simp only [dif_pos line, ← settle_withCounters, ← modifyChip_withCounters]
    rfl
  · simp only [dif_neg line]
    rfl

theorem acknowledge_withCounters :
    (p.withCounters c).acknowledge = p.acknowledge.withCounters c := by
  cases offered : p.primary.pending? with
  | none =>
    rw [acknowledge_of_none (p := p.withCounters c) offered, acknowledge_of_none offered]
    exact settle_withCounters _
  | some i =>
    by_cases cascade : i = Line.cascade
    · subst cascade
      cases behind : p.secondary.pending? with
      | none =>
        rw [acknowledge_of_spurious (p := p.withCounters c) offered behind,
          acknowledge_of_spurious offered behind]
        exact settle_withCounters (p := { p with primary := _ }) _
      | some j =>
        rw [acknowledge_of_cascaded (p := p.withCounters c) offered behind,
          acknowledge_of_cascaded offered behind]
        exact settle_withCounters (p := { p with primary := _, secondary := _ }) _
    · rw [acknowledge_of_own (p := p.withCounters c) offered cascade,
        acknowledge_of_own offered cascade]
      exact settle_withCounters (p := { p with primary := _ }) _

theorem poll_withCounters (position : Position) :
    (p.withCounters c).poll position =
      ((p.poll position).1, (p.poll position).2.withCounters c) := by
  cases position with
  | primary =>
    show (p.withCounters c).pollPrimary = (p.pollPrimary.1, p.pollPrimary.2.withCounters c)
    have primary : (p.withCounters c).primary = p.primary := rfl
    rw [pollPrimary, pollPrimary, primary]
    cases p.primary.pending? with
    | none => rfl
    | some i => rfl
  | secondary =>
    show (p.withCounters c).pollSecondary = (p.pollSecondary.1, p.pollSecondary.2.withCounters c)
    have secondary : (p.withCounters c).secondary = p.secondary := rfl
    rw [pollSecondary, pollSecondary, secondary]
    cases p.secondary.pending? with
    | none => rfl
    | some j => rfl

theorem readIntack_withCounters : (p.withCounters c).readIntack = p.readIntack.withCounters c := by
  have primary := poll_withCounters (p := p) (c := c) .primary
  have secondary := poll_withCounters (p := p.pollPrimary.2) (c := c) .secondary
  simp only [poll] at primary secondary
  simp only [readIntack, primary]
  split
  · simp only [secondary, ← settle_withCounters, ← modifyChip_withCounters]
  · simp only [← settle_withCounters, ← modifyChip_withCounters]

theorem readPort_withCounters (port : UInt16) :
    (p.withCounters c).readPort port = (p.readPort port).withCounters c := by
  have config : (p.withCounters c).config = p.config := rfl
  unfold readPort
  rw [config]
  cases p.config.decode? port with
  | none => rfl
  | some register =>
    cases register with
    | data position =>
      cases position with
      | primary => rfl
      | secondary => rfl
    | elcr position =>
      cases position with
      | primary => rfl
      | secondary => rfl
    | command position =>
      have chip : (p.withCounters c).chip position = p.chip position := by
        cases position with
        | primary => rfl
        | secondary => rfl
      show (p.withCounters c).readCommand position = (p.readCommand position).withCounters c
      unfold readCommand
      rw [chip, poll_withCounters]
      split
      · simp only [← settle_withCounters, ← modifyChip_withCounters]
      · rfl

theorem writePort_withCounters (port : UInt16) (value : UInt8) :
    (p.withCounters c).writePort port value = (p.writePort port value).withCounters c := by
  have config : (p.withCounters c).config = p.config := rfl
  unfold writePort
  rw [config]
  cases p.config.decode? port with
  | none => rfl
  | some register =>
    cases register with
    | command position | data position | elcr position =>
      simp only [writeRegister, config, modifyChip_withCounters, settle_withCounters]

theorem load_withCounters (saved : Saved) :
    (p.withCounters c).load saved =
      (p.load saved).withCounters { c with enabled := saved.counting.getD c.enabled } :=
  settle_withCounters (p := { p with primary := _, secondary := _ }) ()

theorem restore_withCounters (bytes : List UInt8) :
    (p.withCounters c).restore bytes =
      (p.restore bytes).withCounters (c.after (.restore bytes : Operation Wire)) := by
  cases decoded : Saved.ofBytes bytes with
  | error e =>
    simp only [restore, Counters.after, decoded]
    rfl
  | ok saved =>
    simp only [restore, Counters.after, decoded, load_withCounters]
    rfl

theorem reset_withCounters (kind : ResetKind) :
    (p.withCounters c).reset kind = (p.reset kind).withCounters c := by
  cases kind with
  | device => exact settle_withCounters (p := { p with primary := _, secondary := _ }) ()
  | cold => exact settle_withCounters (p := { p with primary := _, secondary := _ }) ()

theorem acknowledgeIfAsserted_withCounters :
    (p.withCounters c).acknowledgeIfAsserted = p.acknowledgeIfAsserted.withCounters c := by
  have output : (p.withCounters c).output = p.output := rfl
  rw [acknowledgeIfAsserted, acknowledgeIfAsserted, output, acknowledge_withCounters]
  split
  · rfl
  · rfl

/-- On a pair with other counters, an operation does and answers the same, and does to the counters
what it does to any. -/
theorem perform_withCounters (p : Pair Wire) (c : Counters) (op : Operation Wire) :
    (p.withCounters c).perform op = (p.perform op).withCounters (c.after op) := by
  cases op with
  | setLine n level =>
    exact congrArg (Outcome.map fun _ => Answer.nothing) (setLine_withCounters n level)
  | readPort port => exact congrArg (Outcome.map _) (readPort_withCounters port)
  | writePort port value => exact congrArg (Outcome.map _) (writePort_withCounters port value)
  | acknowledge => exact congrArg (Outcome.map _) acknowledge_withCounters
  | acknowledgeIfAsserted => exact congrArg (Outcome.map _) acknowledgeIfAsserted_withCounters
  | readIntack => exact congrArg (Outcome.map _) readIntack_withCounters
  | reset kind => exact congrArg (Outcome.map fun _ => Answer.nothing) (reset_withCounters kind)
  | restore bytes => exact congrArg (Outcome.map _) (restore_withCounters bytes)
  | connect wire | setCounting on | clearCounts => rfl

/-- What an operation does to the counters. -/
theorem counters_perform (p : Pair Wire) (op : Operation Wire) :
    (p.perform op).pair.counters = p.counters.after op :=
  congrArg (·.pair.counters) (perform_withCounters p p.counters op)

/-- An operation that concerns the counters alone does nothing else. -/
theorem perform_forCounters (p : Pair Wire) {op : Operation Wire} (own : op.forCounters = true) :
    p.perform op = ⟨.nothing, p.withCounters (p.counters.after op), []⟩ := by
  cases op with
  | setCounting on | clearCounts => rfl
  | _ => exact absurd own Bool.false_ne_true

/-! ## Whole histories -/

theorem counters_performAll (p : Pair Wire) (history : List (Operation Wire)) :
    (p.performAll history).pair.counters = history.foldl Counters.after p.counters := by
  induction history generalizing p with
  | nil => rfl
  | cons op history ih =>
    rw [List.foldl_cons, ← counters_perform]
    exact ih (p.perform op).pair

/-- The operations of a history that do not concern the counters alone, each with its outcome but for
the counters. -/
def course (p : Pair Wire) : List (Operation Wire) → List (Operation Wire × Outcome Wire Answer)
  | [] => []
  | op :: history =>
    let o := p.perform op
    let later := o.pair.course history
    if op.forCounters then later else (op, o.uncounted) :: later

/-- Two histories on two pairs are the same as far as they do not concern the counters alone: the same
operations were performed, with the same answers, driven levels and pairs but for the counters. -/
structure SameCourse (p p' : Pair Wire) (history history' : List (Operation Wire)) : Prop where
  course : p.course history = p'.course history'
  driven : (p.performAll history).driven = (p'.performAll history').driven
  pair : (p.performAll history).pair.uncounted = (p'.performAll history').pair.uncounted

/-- What the pairs are in the end, then, differs in the counters only. -/
theorem SameCourse.shown {p p' : Pair Wire} {history history' : List (Operation Wire)}
    (same : SameCourse p p' history history') :
    let q := (p.performAll history).pair
    let q' := (p'.performAll history').pair
    (∀ position, q.chip position = q'.chip position) ∧ q.output = q'.output ∧
      q.level = q'.level ∧ q.pendingVector? = q'.pendingVector? ∧ q.summary = q'.summary := by
  refine ⟨fun position => ?_, congrArg (·.output) same.pair, congrArg (·.level) same.pair,
    congrArg (·.pendingVector?) same.pair, congrArg (·.summary) same.pair⟩
  cases position with
  | primary => exact congrArg (·.primary) same.pair
  | secondary => exact congrArg (·.secondary) same.pair

/-- Operations that concern the counters alone can be left out, and the counters be others. -/
theorem sameCourse_filter (p : Pair Wire) (c : Counters) (history : List (Operation Wire)) :
    SameCourse p (p.withCounters c) history (history.filter fun op => !op.forCounters) := by
  induction history generalizing p c with
  | nil => exact ⟨rfl, rfl, rfl⟩
  | cons op history ih =>
    cases own : op.forCounters with
    | true =>
      obtain ⟨course, driven, pair⟩ := ih (p.withCounters (p.counters.after op)) c
      have left : (op :: history).filter (fun op => !op.forCounters) =
          history.filter fun op => !op.forCounters :=
        List.filter_cons_of_neg (by simp [own])
      have idle := perform_forCounters p own
      rw [left]
      refine ⟨?_, ?_, ?_⟩
      · rw [Pair.course, own, if_pos rfl, idle]
        exact course
      · rw [performAll, idle]
        exact driven
      · rw [performAll, idle]
        exact pair
    | false =>
      obtain ⟨course, driven, pair⟩ := ih (p.perform op).pair (c.after op)
      have kept : (op :: history).filter (fun op => !op.forCounters) =
          op :: history.filter fun op => !op.forCounters :=
        List.filter_cons_of_pos (by simp [own])
      have same := perform_withCounters p c op
      rw [kept]
      refine ⟨?_, ?_, ?_⟩
      · rw [Pair.course, Pair.course, own, same]
        exact congrArg ((op, (p.perform op).uncounted) :: ·) course
      · rw [performAll, performAll, same]
        exact congrArg ((p.perform op).driven ++ ·) driven
      · rw [performAll, performAll, same]
        exact pair

/-- So operations that concern the counters alone can be put in or left out anywhere. -/
theorem sameCourse_of_filter_eq (p : Pair Wire) {history history' : List (Operation Wire)}
    (same : history.filter (fun op => !op.forCounters) =
      history'.filter fun op => !op.forCounters) :
    SameCourse p p history history' := by
  have first := sameCourse_filter p p.counters history
  have second := sameCourse_filter p p.counters history'
  rw [← same] at second
  exact ⟨first.course.trans second.course.symm, first.driven.trans second.driven.symm,
    first.pair.trans second.pair.symm⟩

end Pair

end PicCascade
