import PicCascade.Proofs.Pair.Delivery

/-!
# Level-triggered requests

A level-triggered line requests service while it is high, and only then. An acknowledge cycle takes
the line without its request, so a device that holds its line high is served again. A device that
lets its line fall before it has been served withdraws the request. Polls are the exception: they
retire a request even if the line is still high.

Results:
* `mirrors_perform`: what one operation does to the request and the edge detector of a line that both
  show its level.
* `level_mirrored`: along a history, both show the level that the line was last driven to, and a line
  that was last driven low is not offered.
-/

namespace PicCascade.Pair

variable {Wire : Type} {p : Pair Wire} {op : Operation Wire} {n : UInt8} {level : Option Bool}

/-! ## The level of a line -/

/-- The level of a line after an operation, given the level before. It is not known before the line
is driven for the first time. -/
def levelAfter (n : UInt8) (level : Option Bool) : Operation Wire → Option Bool
  | .setLine m driven => if m = n then some driven else level
  | _ => level

/-- The level that a history last drove a line to, if it drove the line at all. -/
def lastLevel? (n : UInt8) (history : List (Operation Wire)) : Option Bool :=
  history.foldl (levelAfter n) none

theorem levelAfter_of_ne (level : Option Bool) (other : ∀ driven, op ≠ .setLine n driven) :
    levelAfter n level op = level := by
  cases op with
  | setLine m driven =>
    have distinct : m ≠ n := fun eq => other driven (eq ▸ rfl)
    exact if_neg distinct
  | _ => rfl

/-- The request and the edge detector of a line show its level, as far as it is known. -/
structure Mirrors (n : UInt8) (level : Option Bool) (p : Pair Wire) : Prop where
  requested : ∀ high, level = some high → (p.Requested n ↔ high = true)
  wasHigh : ∀ high, level = some high → (p.WasHigh n ↔ high = true)

/-! ## One operation -/

/-- The line is level-triggered, the operation does not reset its chip, and it does not take the line
by a poll. -/
structure LevelStep (n : UInt8) (p : Pair Wire) (op : Operation Wire) : Prop where
  level : ¬ p.EdgeTriggered n
  keeps : KeepsChip (Line.ofGlobal n).1 p op
  unpolled : IsPoll op → ¬ Delivers n p op

instance (n : UInt8) (p : Pair Wire) (op : Operation Wire) : Decidable (LevelStep n p op) :=
  decidable_of_iff
    (¬ p.EdgeTriggered n ∧ KeepsChip (Line.ofGlobal n).1 p op ∧ (IsPoll op → ¬ Delivers n p op))
    ⟨fun ⟨level, keeps, unpolled⟩ => ⟨level, keeps, unpolled⟩,
      fun ⟨level, keeps, unpolled⟩ => ⟨level, keeps, unpolled⟩⟩

/-- No operation of this kind withdraws the request of the line. -/
theorem LevelStep.not_withdraws (step : LevelStep n p op) :
    ¬ Withdraws (Line.ofGlobal n).1 (Line.ofGlobal n).2 p op := by
  intro withdraws
  have levelTriggered := Decidable.not_not.mp step.level
  exact step.unpolled (withdraws.gone levelTriggered) withdraws.taken

/-- Driving the line sets its request and its edge detector to the new level, and nothing else
touches them. -/
theorem mirrors_perform (settled : p.Settled) (line : n.toNat < 16) (notCascade : n ≠ 2)
    (step : LevelStep n p op) (mirrors : Mirrors n level p) :
    Mirrors n (levelAfter n level op) (p.perform op).pair := by
  by_cases drives : ∃ driven, op = .setLine n driven
  · obtain ⟨driven, rfl⟩ := drives
    have after : levelAfter n level (.setLine n driven : Operation Wire) = some driven := if_pos rfl
    rw [after]
    constructor
    · rintro high ⟨rfl⟩
      rw [requested_setLine_iff settled line notCascade, if_neg step.level]
    · rintro high ⟨rfl⟩
      exact wasHigh_setLine_iff settled line notCascade
  · have other : ∀ driven, op ≠ .setLine n driven := fun driven eq => drives ⟨driven, eq⟩
    rw [levelAfter_of_ne level other]
    constructor
    · intro high known
      rw [requested_perform_iff_of_ne settled line notCascade step.keeps other,
        and_iff_left step.not_withdraws]
      exact mirrors.requested high known
    · intro high known
      rw [wasHigh_perform_iff settled line notCascade step.keeps other]
      exact mirrors.wasHigh high known

/-! ## Whole histories -/

theorem mirrors_performAll (settled : p.Settled) (line : n.toNat < 16) (notCascade : n ≠ 2)
    {history : List (Operation Wire)} (along : p.Along (LevelStep n) history)
    (mirrors : Mirrors n level p) :
    Mirrors n (history.foldl (levelAfter n) level) (p.performAll history).pair := by
  induction history generalizing p level with
  | nil => exact mirrors
  | cons op history ih =>
    obtain ⟨step, others⟩ := along
    have first := mirrors_perform settled line notCascade step mirrors
    exact ih (settled_perform settled op) others first

/-- A line that does not request service is not offered by its chip. -/
theorem not_offered_of_not_requested (quiet : ¬ p.Requested n) :
    (p.chip (Line.ofGlobal n).1).pending? ≠ some (Line.ofGlobal n).2 :=
  fun offered => quiet (Chip.mem_irr_of_pending? offered)

/-- A level-triggered request mirrors its line. Take a line from 0 to 15 other than the cascade line,
and a history from any reachable pair during which the line stays level-triggered, its chip is not
reset and no poll takes the line. Once the line has been driven, after every step its request and its
edge detector show the level that it was last driven to. So nothing but the device takes back the
request, and while the device holds the line low its chip does not offer the line. -/
theorem level_mirrored {config : Config} (reachable : Reachable config p) (line : n.toNat < 16)
    (notCascade : n ≠ 2) {history : List (Operation Wire)}
    (along : p.Along (LevelStep n) history) :
    ∀ steps, steps <+: history → ∀ high, lastLevel? n steps = some high →
      let now := (p.performAll steps).pair
      (now.Requested n ↔ high = true) ∧ (now.WasHigh n ↔ high = true) ∧
        (high = false → (now.chip (Line.ofGlobal n).1).pending? ≠ some (Line.ofGlobal n).2) := by
  intro steps within high known now
  have start : Mirrors n none p := ⟨nofun, nofun⟩
  have mirrors : Mirrors n (lastLevel? n steps) now :=
    mirrors_performAll reachable.sound.settled line notCascade (along.of_prefix within) start
  have requested := mirrors.requested high known
  refine ⟨requested, mirrors.wasHigh high known, ?_⟩
  rintro rfl
  exact not_offered_of_not_requested fun request => Bool.false_ne_true (requested.mp request)

/-- A pair whose line 9 is level-triggered. -/
def levelNine : Pair Unit := ((new {}).performAll [.writePort 0x4D1 0x02]).pair

/-- Line 9 is driven high. While it is high, it is acknowledged twice, its service is ended, it is
masked and unmasked, and the secondary is polled for line 8. -/
def heldHigh : List (Operation Unit) :=
  [.setLine 9 true, .acknowledge, .writePort 0xA0 0x20, .writePort 0x20 0x20, .writePort 0xA1 0x02,
    .setLine 8 true, .writePort 0xA0 0x0C, .readPort 0xA0, .writePort 0xA1 0x00, .acknowledge,
    .writePort 0xA0 0xE1, .writePort 0x20 0x62]

/-- The request of line 9 survives all this, and is withdrawn when the line falls. -/
theorem level_mirrored_heldHigh :
    levelNine.Along (LevelStep 9) (heldHigh ++ [.setLine 9 false]) ∧
      lastLevel? 9 heldHigh = some true ∧
      (levelNine.performAll heldHigh).pair.Requested 9 ∧
      (levelNine.performAll heldHigh).pair.secondary.pending? = some 1 ∧
      lastLevel? 9 (heldHigh ++ [.setLine 9 false]) = some false ∧
      ¬ (levelNine.performAll (heldHigh ++ [.setLine 9 false])).pair.Requested 9 ∧
      (levelNine.performAll (heldHigh ++ [.setLine 9 false])).pair.secondary.pending? ≠ some 1 := by
  have along : levelNine.Along (LevelStep 9) (heldHigh ++ [.setLine 9 false]) := by decide +kernel
  have reachable : Reachable {} levelNine := ⟨[.writePort 0x4D1 0x02], rfl⟩
  have mirrored := level_mirrored reachable (n := 9) (by decide) (by decide) along
  obtain ⟨held, -, -⟩ := mirrored heldHigh (List.prefix_append ..) true rfl
  obtain ⟨released, -, quiet⟩ := mirrored _ (List.prefix_refl _) false rfl
  have chip : Line.ofGlobal 9 = (.secondary, 1) := by decide
  rw [chip] at quiet
  exact ⟨along, rfl, held.mpr rfl, by decide +kernel, rfl,
    fun still => Bool.false_ne_true (released.mp still), quiet rfl⟩

end PicCascade.Pair
