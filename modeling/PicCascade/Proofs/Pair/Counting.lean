import Mathlib.Data.Nat.Count
import PicCascade.Proofs.Pair.Counters
import PicCascade.Proofs.Pair.Mirror

/-!
# What the counters count

A counter counts the rises of its line: the line is driven high, and before that it was low or had not
been driven at all. Rises are counted while counting is on, and clearing forgets those before. The
levels that matter here are those that the lines were driven to. They differ from the edge detectors of
the chips, which forget them in a reset or an initialisation.

What is counted is said here by the positions in a history at which it happened. The induction is on
histories that grow at their end, since every position looks back at what came before it.

Results:
* `Counters.tells_foldl`: the levels, the counts and the flag after any history.
* `WordCounters.foldlM_after?`: counters in words do the same as long as no line rises more often than
  a word can count.
* `counters_exact`: what the counters of a pair count, and that they only look on.
-/

namespace PicCascade

open Pair

variable {Wire : Type} {n : UInt8} {history : List (Operation Wire)} {op : Operation Wire}
  {on : Bool} {k : Nat}

/-! ## Rises -/

/-- The operation drives the line high. -/
def Pair.Operation.drivesHigh (n : UInt8) : Operation Wire → Bool
  | .setLine m level => m = n && level
  | _ => false

/-- The operation sets all counts to zero. -/
def Pair.Operation.clears : Operation Wire → Bool
  | .clearCounts => true
  | _ => false

/-- The line rises at position `k` of a history. -/
structure RisesAt (n : UInt8) (history : List (Operation Wire)) (k : Nat) : Prop where
  driven : (history[k]?).any (·.drivesHigh n) = true
  wasLow : lastLevel? n (history.take k) ≠ some true

instance : DecidablePred (RisesAt n history) := fun k =>
  decidable_of_iff
    ((history[k]?).any (·.drivesHigh n) = true ∧ lastLevel? n (history.take k) ≠ some true)
    ⟨fun ⟨driven, wasLow⟩ => ⟨driven, wasLow⟩, fun ⟨driven, wasLow⟩ => ⟨driven, wasLow⟩⟩

/-- How often a line rises in a history. -/
def rises (n : UInt8) (history : List (Operation Wire)) : Nat :=
  Nat.count (RisesAt n history) history.length

/-! ## Rises that are counted -/

/-- What an operation switches counting to, if it does. A snapshot does if it is accepted and has the
field for it. -/
def Pair.Operation.setsCounting? : Operation Wire → Option Bool
  | .setCounting on => some on
  | .restore bytes => (Saved.ofBytes bytes).toOption.bind Saved.counting
  | _ => none

/-- Whether counting is on after a history: as the last operation that switched it left it, or else as
it was at the start. -/
def counting (on : Bool) (history : List (Operation Wire)) : Bool :=
  (history.filterMap Operation.setsCounting?).getLast?.getD on

/-- The line rises at position `k` of a history, while counting is on, and the counts are not cleared
any more afterwards. -/
structure CountedAt (on : Bool) (n : UInt8) (history : List (Operation Wire)) (k : Nat) : Prop
    extends RisesAt n history k where
  counting : counting on (history.take k) = true
  kept : (history.drop k).any Operation.clears = false

instance : DecidablePred (CountedAt on n history) := fun k =>
  decidable_of_iff
    (RisesAt n history k ∧ counting on (history.take k) = true ∧
      (history.drop k).any Operation.clears = false)
    ⟨fun ⟨rises, counting, kept⟩ => ⟨rises, counting, kept⟩,
      fun ⟨rises, counting, kept⟩ => ⟨rises, counting, kept⟩⟩

/-- How many rises of a line are counted after a history. -/
def counted (on : Bool) (n : UInt8) (history : List (Operation Wire)) : Nat :=
  Nat.count (CountedAt on n history) history.length

theorem counted_le_rises : counted on n history ≤ rises n history :=
  Nat.count_mono_left fun _ _ counted => counted.toRisesAt

theorem not_clears_of_drivesHigh (high : op.drivesHigh n = true) : op.clears = false := by
  cases op with
  | setLine m level => rfl
  | _ => exact absurd high Bool.false_ne_true

/-! ## One more operation -/

theorem lastLevel?_append :
    lastLevel? n (history ++ [op]) = levelAfter n (lastLevel? n history) op := by
  rw [lastLevel?, List.foldl_append]
  rfl

theorem counting_append :
    counting on (history ++ [op]) = (op.setsCounting?).getD (counting on history) := by
  rw [counting, List.filterMap_append, counting]
  cases sets : op.setsCounting? with
  | none => simp [sets]
  | some on' => simp [sets]

theorem risesAt_append (within : k < history.length) :
    RisesAt n (history ++ [op]) k ↔ RisesAt n history k := by
  have driven : (history ++ [op])[k]? = history[k]? := List.getElem?_append_left within
  have before : (history ++ [op]).take k = history.take k :=
    List.take_append_of_le_length (Nat.le_of_lt within)
  constructor
  · rintro ⟨high, low⟩
    exact ⟨driven ▸ high, before ▸ low⟩
  · rintro ⟨high, low⟩
    exact ⟨driven ▸ high, before ▸ low⟩

theorem risesAt_last :
    RisesAt n (history ++ [op]) history.length ↔
      op.drivesHigh n = true ∧ lastLevel? n history ≠ some true := by
  have driven : (history ++ [op])[history.length]? = some op := List.getElem?_concat_length
  have before : (history ++ [op]).take history.length = history := List.take_left
  constructor
  · rintro ⟨high, low⟩
    rw [driven] at high
    rw [before] at low
    exact ⟨high, low⟩
  · rintro ⟨high, low⟩
    exact ⟨by rw [driven]; exact high, by rw [before]; exact low⟩

theorem countedAt_append (within : k < history.length) :
    CountedAt on n (history ++ [op]) k ↔ CountedAt on n history k ∧ op.clears = false := by
  have before : (history ++ [op]).take k = history.take k :=
    List.take_append_of_le_length (Nat.le_of_lt within)
  have after : (history ++ [op]).drop k = history.drop k ++ [op] :=
    List.drop_append_of_le_length (Nat.le_of_lt within)
  constructor
  · rintro ⟨rises, counting, kept⟩
    rw [before] at counting
    rw [after, List.any_append, Bool.or_eq_false_iff] at kept
    exact ⟨⟨(risesAt_append within).mp rises, counting, kept.1⟩, by simpa using kept.2⟩
  · rintro ⟨⟨rises, counting, kept⟩, last⟩
    refine ⟨(risesAt_append within).mpr rises, by rw [before]; exact counting, ?_⟩
    rw [after, List.any_append, kept]
    simpa using last

theorem countedAt_last :
    CountedAt on n (history ++ [op]) history.length ↔
      op.drivesHigh n = true ∧ lastLevel? n history ≠ some true ∧ counting on history = true := by
  have before : (history ++ [op]).take history.length = history := List.take_left
  have after : (history ++ [op]).drop history.length = [op] := List.drop_left
  constructor
  · rintro ⟨rises, counting, -⟩
    rw [before] at counting
    obtain ⟨high, low⟩ := risesAt_last.mp rises
    exact ⟨high, low, counting⟩
  · rintro ⟨high, low, counting⟩
    refine ⟨risesAt_last.mpr ⟨high, low⟩, by rw [before]; exact counting, ?_⟩
    simp [after, not_clears_of_drivesHigh high]

theorem count_congr {p q : Nat → Prop} [DecidablePred p] [DecidablePred q] {m : Nat}
    (same : ∀ k < m, p k ↔ q k) : Nat.count p m = Nat.count q m :=
  Nat.le_antisymm (Nat.count_mono_left fun k within => (same k within).mp)
    (Nat.count_mono_left fun k within => (same k within).mpr)

theorem rises_append :
    rises n (history ++ [op]) =
      rises n history +
        if op.drivesHigh n = true ∧ lastLevel? n history ≠ some true then 1 else 0 := by
  rw [rises, List.length_append, List.length_singleton, Nat.count_succ,
    count_congr fun _ => risesAt_append]
  simp only [risesAt_last, rises]

theorem rises_le_append : rises n history ≤ rises n (history ++ [op]) := by
  rw [rises_append]
  exact Nat.le_add_right _ _

theorem counted_append :
    counted on n (history ++ [op]) =
      if op.clears = true then 0
      else counted on n history +
        if op.drivesHigh n = true ∧ lastLevel? n history ≠ some true ∧ counting on history = true
        then 1 else 0 := by
  rw [counted, List.length_append, List.length_singleton, Nat.count_succ,
    count_congr fun _ => countedAt_append]
  simp only [countedAt_last]
  cases clears : op.clears with
  | false => simp [counted]
  | true =>
    have quiet : op.drivesHigh n ≠ true := fun high =>
      Bool.false_ne_true ((not_clears_of_drivesHigh high).symm.trans clears)
    simp [quiet]

/-! ## What the counters hold -/

namespace Counters

variable {c : Counters}

theorem count_eq (line : n.toNat < 16) : c.count n = c.counts[n.toNat] := by
  rw [count, Vector.getElem?_eq_getElem line, Option.getD_some]

theorem enabled_after : (c.after op).enabled = op.setsCounting?.getD c.enabled := by
  cases op with
  | setLine m level =>
    rw [after]
    split
    · rfl
    · rfl
  | restore bytes =>
    simp only [after, Operation.setsCounting?]
    cases Saved.ofBytes bytes with
    | error e => rfl
    | ok saved => rfl
  | _ => rfl

theorem after_setLine {level : Bool} (line : n.toNat < 16) :
    c.after (.setLine n level : Operation Wire) = c.record ⟨n.toNat, line⟩ level :=
  dif_pos line

theorem mem_high_after {level : Option Bool} (line : n.toNat < 16)
    (high : ⟨n.toNat, line⟩ ∈ c.high ↔ level = some true) :
    ⟨n.toNat, line⟩ ∈ (c.after op).high ↔ levelAfter n level op = some true := by
  cases op with
  | setLine m driven =>
    by_cases same : m = n
    · subst same
      rw [after_setLine line, record, LineSet.mem_put, if_pos rfl, levelAfter, if_pos rfl, Option.some_inj]
    · rw [levelAfter, if_neg same, ← high, after]
      split
      · rename_i other
        have distinct : (⟨n.toNat, line⟩ : Fin 16) ≠ ⟨m.toNat, other⟩ := fun eq =>
          same (UInt8.toNat_inj.mp (Fin.mk.inj eq).symm)
        rw [record, LineSet.mem_put, if_neg distinct]
      · exact Iff.rfl
  | restore bytes =>
    simp only [after]
    cases Saved.ofBytes bytes with
    | error e => exact high
    | ok saved => exact high
  | _ => exact high

theorem counts_after (line : n.toNat < 16) :
    (c.after op).counts[n.toNat] =
      if op.clears = true then 0
      else c.counts[n.toNat] +
        if op.drivesHigh n = true ∧ ⟨n.toNat, line⟩ ∉ c.high ∧ c.enabled = true
        then 1 else 0 := by
  cases op with
  | setLine m driven =>
    by_cases same : m = n
    · subst same
      rw [after_setLine line, counts_record]
      simp [Operation.clears, Operation.drivesHigh]
    · have quiet : (.setLine m driven : Operation Wire).drivesHigh n = false := by
        simp [Operation.drivesHigh, same]
      have kept : (c.after (.setLine m driven : Operation Wire)).counts[n.toNat] =
          c.counts[n.toNat] := by
        rw [after]
        split
        · rename_i other
          rw [counts_record, if_neg fun rise => same (UInt8.toNat_inj.mp rise.1), Nat.add_zero]
        · rfl
      rw [kept, quiet]
      rfl
  | restore bytes =>
    have same : (c.after (.restore bytes : Operation Wire)).counts = c.counts := by
      rw [after]
      split
      · rfl
      · rfl
    rw [same]
    rfl
  | clearCounts => exact Vector.getElem_replicate line
  | _ => rfl

/-- What the counters hold after a history, if counting was on or off at the start. -/
structure Tells (on : Bool) (history : List (Operation Wire)) (c : Counters) : Prop where
  enabled : c.enabled = counting on history
  high : ∀ n (line : n.toNat < 16), ⟨n.toNat, line⟩ ∈ c.high ↔ lastLevel? n history = some true
  counts : ∀ n (_ : n.toNat < 16), c.counts[n.toNat] = counted on n history

theorem Tells.append (tells : c.Tells on history) (op : Operation Wire) :
    (c.after op).Tells on (history ++ [op]) where
  enabled := by rw [enabled_after, counting_append, tells.enabled]
  high n line := by
    rw [lastLevel?_append]
    exact mem_high_after line (tells.high n line)
  counts n line := by
    rw [counts_after line, counted_append, tells.counts n line]
    simp only [tells.high n line, tells.enabled, ne_eq]

/-- From blank counters on, the counters tell the history. -/
theorem tells_foldl (on : Bool) (history : List (Operation Wire)) :
    (history.foldl after { enabled := on } : Counters).Tells on history := by
  induction history using List.reverseRecOn with
  | nil =>
    refine ⟨rfl, fun n line => ?_, fun n line => ?_⟩
    · simp [lastLevel?]
    · exact Vector.getElem_replicate line
  | append_singleton history op ih =>
    rw [List.foldl_append]
    exact ih.append op

end Counters

/-! ## Counting in words -/

namespace WordCounters

theorem after?_words {c : Counters}
    (fits : ∀ (n : UInt8) (_ : n.toNat < 16), (c.after op).counts[n.toNat] < UInt64.size) :
    c.words.after? op = some (c.after op).words := by
  cases op with
  | setLine n level =>
    simp only [after?, Counters.after] at fits ⊢
    by_cases line : n.toNat < 16
    · simp only [line, if_true, dite_true] at fits ⊢
      exact record?_words line (fits n line)
    · simp only [line, if_false, dite_false]
  | restore bytes =>
    simp only [after?, Counters.after]
    cases Saved.ofBytes bytes with
    | error e => rfl
    | ok saved => rfl
  | clearCounts => exact congrArg some (Counters.words_clear c).symm
  | _ => rfl

/-- If no line rises more often than a word can count, counting in words is the same. -/
theorem foldlM_after? (few : ∀ n, rises n history < UInt64.size) :
    history.foldlM after? { enabled := on } =
      some (history.foldl Counters.after { enabled := on }).words := by
  induction history using List.reverseRecOn with
  | nil => exact congrArg some (Counters.words_blank on).symm
  | append_singleton history op ih =>
    -- A count may be cleared later, but it never exceeded the number of rises, which only grows.
    have before := ih fun n => Nat.lt_of_le_of_lt rises_le_append (few n)
    have tells := (Counters.tells_foldl on history).append op
    have fits : ∀ (n : UInt8) (_ : n.toNat < 16),
        ((history.foldl Counters.after { enabled := on }).after op).counts[n.toNat] <
          UInt64.size := fun n line => by
      rw [tells.counts n line]
      exact Nat.lt_of_le_of_lt counted_le_rises (few n)
    rw [List.foldlM_append, before, List.foldl_append, Option.bind_eq_bind, Option.bind_some,
      List.foldlM_cons, after?_words fits]
    rfl

theorem count_words {c : Counters} (line : n.toNat < 16) (fits : c.count n < UInt64.size) :
    (c.words.count n).toNat = c.count n := by
  have held : c.count n = c.counts[n.toNat] := Counters.count_eq line
  have word : c.words.count n = UInt64.ofNat c.counts[n.toNat] := by
    rw [count, Vector.getElem?_eq_getElem line, Option.getD_some]
    exact Vector.getElem_map ..
  rw [word, ← held]
  exact UInt64.toNat_ofNat_of_lt' fits

end WordCounters

/-! ## The counters of a pair -/

namespace Pair

variable {config : Config}

/-- A count is the number of rises of its line since the counts were last cleared, made while counting
was on, and counting is on or off as it was last set. In words the counters do the same, unless a line
rises more often than a word can count. The counters only look on: whatever operations that concern
them alone are put in or left out, all others do, answer and drive the same. -/
theorem counters_exact (config : Config) (history : List (Operation Wire)) :
    let p := ((new config).performAll history).pair
    (∀ n : UInt8, n.toNat < 16 → p.counters.count n = counted config.counting n history) ∧
    p.counters.enabled = counting config.counting history ∧
    ((∀ n, rises n history < UInt64.size) →
      ∃ words, history.foldlM WordCounters.after? { enabled := config.counting } = some words ∧
        words.enabled = counting config.counting history ∧
        ∀ n : UInt8, n.toNat < 16 →
          (words.count n).toNat = counted config.counting n history) ∧
    ∀ other : List (Operation Wire),
      other.filter (fun op => !op.forCounters) = history.filter (fun op => !op.forCounters) →
      SameCourse (new config) (new config) other history ∧
      let q := ((new config).performAll other).pair
      (∀ position, q.chip position = p.chip position) ∧ q.output = p.output ∧ q.level = p.level ∧
        q.pendingVector? = p.pendingVector? ∧ q.summary = p.summary := by
  intro p
  have held : p.counters = history.foldl Counters.after { enabled := config.counting } :=
    counters_performAll (new config) history
  have tells : p.counters.Tells config.counting history :=
    held ▸ Counters.tells_foldl config.counting history
  have counts : ∀ n : UInt8, n.toNat < 16 →
      p.counters.count n = counted config.counting n history := fun n line => by
    rw [Counters.count_eq line, tells.counts n line]
  refine ⟨counts, tells.enabled, fun few => ?_, fun other same => ?_⟩
  · refine ⟨p.counters.words, ?_, tells.enabled, fun n line => ?_⟩
    · rw [held]
      exact WordCounters.foldlM_after? few
    · have fits : p.counters.count n < UInt64.size := by
        rw [counts n line]
        exact Nat.lt_of_le_of_lt counted_le_rises (few n)
      rw [WordCounters.count_words line fits, counts n line]
  · have course := sameCourse_of_filter_eq (new config) same
    exact ⟨course, course.shown⟩

/-- Line 5 rises before counting is on, twice while it is on, and once after a snapshot has switched it
off. Line 9 rises before the counts are cleared. The reset and the initialisation make the chips forget
that line 5 is high. -/
def twiceCounted : List (Operation Unit) :=
  [.setLine 5 true, .setCounting true, .setLine 5 true, .setLine 5 false, .setLine 9 true,
    .clearCounts, .setLine 5 true, .reset .cold, .setLine 5 true, .writePort 0x20 0x11,
    .setLine 5 true, .setLine 5 false, .setLine 5 true,
    .restore (new {} : Pair Unit).save, .setLine 5 false, .setLine 5 true]

theorem counters_exact_twiceCounted :
    let p := ((new {}).performAll twiceCounted).pair
    p.counters.count 5 = 2 ∧ p.counters.count 9 = 0 ∧ p.counters.enabled = false ∧
      (∃ words, twiceCounted.foldlM WordCounters.after? { enabled := false } = some words ∧
        words.enabled = false ∧
        ∀ n : UInt8, n.toNat < 16 → (words.count n).toNat = counted false n twiceCounted) ∧
      ((new {}).performAll (twiceCounted.filter fun op => !op.forCounters)).pair.summary =
        p.summary := by
  obtain ⟨counts, enabled, words, others⟩ := counters_exact {} twiceCounted
  have five : counted false 5 twiceCounted = 2 := by decide +kernel
  have nine : counted false 9 twiceCounted = 0 := by decide +kernel
  have off : counting false twiceCounted = false := by decide +kernel
  have few (n : UInt8) : rises n twiceCounted < UInt64.size :=
    Nat.lt_of_le_of_lt (Nat.count_le _) (by decide)
  obtain ⟨final, counted, final_off, final_counts⟩ := words few
  exact ⟨(counts 5 (by decide)).trans five, (counts 9 (by decide)).trans nine, enabled.trans off,
    ⟨final, counted, final_off.trans off, final_counts⟩,
    (others (twiceCounted.filter fun op => !op.forCounters) (by simp)).2.2.2.2.2⟩

end Pair

end PicCascade
