import PicCascade.Pair.Text
import PicCascade.Proofs.Chip.Record
import PicCascade.Proofs.Pair.Agree
import PicCascade.Proofs.Pair.History
import PicCascade.Proofs.Snapshot.Container

/-!
# Restoring a snapshot

A snapshot leaves out the outputs of the chips, whether they wait to be forwarded, the level of the
wire, and the counts of edges. None of it can be told from what the restored pair does.

Results:
* `ofBytes_save`: the snapshot of a pair decodes to its registers and whether it counts edges.
* `agree_restore_save`: a pair restored from a snapshot agrees with the pair that was saved.
* `restore_save`: from then on all answers are the same, and so is everything that can be asked.
-/

namespace PicCascade

/-- Trigger modes that respect the wiring are not limited by it. -/
theorem Registers.limited_eq {r : Registers} {writable : LineSet 8}
    (wired : ∀ i ∈ r.elcr, i ∈ writable) : r.limited writable = r := by
  have kept : r.elcr ∩ writable = r.elcr := by
    ext i
    rw [LineSet.mem_inter]
    exact and_iff_left_of_imp (wired i)
  rw [limited, kept]

namespace Pair

variable {Wire : Type} {config : Config} {p q : Pair Wire}

/-! ## Decoding the snapshot -/

theorem parse_save (p : Pair Wire) : Snapshot.Container.parse Saved.device p.save = .ok p.saved := by
  refine Snapshot.Container.parse_eq_ok.mpr ⟨rfl, rfl, ?_, ?_, rfl⟩
  · simp [saved, Snapshot.Field.maxLength, Registers.toBytes_eq, Snapshot.Item.toBytes]
  · show [Saved.primaryTag, Saved.secondaryTag, Saved.countingTag].Nodup
    decide

theorem bool?_saved (p : Pair Wire) :
    p.saved.bool? Saved.countingTag = .ok (some p.counters.enabled) := by
  have found : p.saved.value? Saved.countingTag =
    some (LittleEndian.ofNat 1 p.counters.enabled.toNat) := rfl
  simp only [Snapshot.Container.bool?, Snapshot.Container.u8?, Snapshot.Container.number?, found]
  cases p.counters.enabled <;> rfl

theorem ofBytes_save (p : Pair Wire) :
    Saved.ofBytes p.save = .ok ⟨p.primary.regs, p.secondary.regs, some p.counters.enabled⟩ := by
  have primary : Saved.registers p.saved Saved.primaryTag = .ok p.primary.regs :=
    Registers.ofBytes_eq_ok.mpr rfl
  have secondary : Saved.registers p.saved Saved.secondaryTag = .ok p.secondary.regs :=
    Registers.ofBytes_eq_ok.mpr rfl
  have major : p.saved.requireMajor Saved.version.major = .ok () := rfl
  simp only [Saved.ofBytes, parse_save, Saved.ofContainer, bind, Except.bind, major, primary,
    secondary, bool?_saved]
  rfl

/-! ## The restored pair -/

/-- A pair restored from the snapshot of a sound pair of the same wiring agrees with it, also in the
level of the wire if that was the right one. -/
theorem agree_restore_save (sound : Sound config p) (wiring : q.config = config) :
    (q.restore p.save).answer = .ok () ∧
      p.Agree (p.level = p.output) (q.restore p.save).pair := by
  subst wiring
  have primary : p.primary.regs.limited q.config.primary.elcrMask = p.primary.regs :=
    Registers.limited_eq (sound.config_eq ▸ sound.wired.primary)
  have secondary : p.secondary.regs.limited q.config.secondary.elcrMask = p.secondary.regs :=
    Registers.limited_eq (sound.config_eq ▸ sound.wired.secondary)
  have driven : (q.restore p.save).pair.level =
      ((p.primary.regs.limited q.config.primary.elcrMask).pending? .primary).isSome := by
    rw [restore, ofBytes_save]
    rfl
  rw [primary] at driven
  rw [restore, ofBytes_save] at driven ⊢
  refine ⟨rfl, ?_⟩
  constructor
  · exact sound.config_eq
  · exact .of_forwarded primary.symm sound.settled.primary rfl
  · exact .of_forwarded secondary.symm sound.settled.secondary rfl
  · rfl
  · exact fun level => level.trans driven.symm

/-! ## What can be asked of a pair -/

/-- Everything that a pair tells about itself without changing, except for the counts of edges. -/
structure View where
  config : Config
  primary : Registers
  secondary : Registers
  output : Bool
  pendingVector : Option UInt8
  saved : List UInt8
  summary : String
  counting : Bool
deriving DecidableEq

/-- What the pair tells about itself. -/
def view (p : Pair Wire) : View where
  config := p.config
  primary := p.primary.regs
  secondary := p.secondary.regs
  output := p.output
  pendingVector := p.pendingVector?
  saved := p.save
  summary := p.summary
  counting := p.counters.enabled

theorem Agree.view_eq {levels : Prop} (h : p.Agree levels q) : p.view = q.view := by
  have pendingVector : p.pendingVector? = q.pendingVector? := by
    unfold pendingVector?
    simp only [h.primary.pending?_eq, h.secondary.pending?_eq, h.primary.vector_eq,
      h.secondary.vector_eq]
  have saved : p.save = q.save := by
    unfold save Pair.saved
    rw [h.primary.regs, h.secondary.regs, h.counting]
  have summary : p.summary = q.summary := by
    unfold Pair.summary
    rw [h.primary.regs, h.secondary.regs]
  unfold view
  rw [h.config, h.primary.regs, h.secondary.regs, h.output_eq, pendingVector, saved, summary,
    h.counting]

/-- Restoring is exact. Take two reachable pairs of the same wiring and restore the second one from
the snapshot of the first one. This is accepted, and whatever happens to both pairs from then on,
they give the same answers and tell the same about themselves. If the wire of the first pair had
the right level when it was saved, the levels of the wires stay the same as well. -/
theorem restore_save (hp : Reachable config p) (hq : Reachable config q) :
    (q.restore p.save).answer = .ok () ∧
      (q.restore p.save).pair.view = p.view ∧
      ∀ history : List (Operation Wire),
        ((q.restore p.save).pair.performAll history).answer = (p.performAll history).answer ∧
          ((q.restore p.save).pair.performAll history).pair.view =
            (p.performAll history).pair.view ∧
          (p.level = p.output →
            ((q.restore p.save).pair.performAll history).pair.level =
              (p.performAll history).pair.level) := by
  obtain ⟨accepted, agree⟩ := agree_restore_save hp.sound hq.sound.config_eq
  refine ⟨accepted, agree.view_eq.symm, fun history => ?_⟩
  obtain ⟨answers, later⟩ := agree.performAll history
  exact ⟨answers.symm, later.view_eq.symm, fun level => (later.level level).symm⟩

/-- Line 9 is in service over the cascade, line 1 is offered and the wire is high. -/
def nestedService : List (Operation Unit) :=
  [.connect (some ()), .setLine 9 true, .acknowledge, .setLine 1 true]

theorem restore_save_nestedService :
    let p : Pair Unit := ((new {}).performAll nestedService).pair
    let r : Pair Unit := ((new {}).restore p.save).pair
    p.level = p.output ∧ p.output = true ∧ r.view = p.view ∧
      (r.performAll [.acknowledge]).answer = (p.performAll [.acknowledge]).answer ∧
        (r.performAll [.acknowledge]).pair.level = (p.performAll [.acknowledge]).pair.level := by
  obtain ⟨-, same, later⟩ :=
    restore_save (p := ((new {}).performAll nestedService).pair) (q := new {}) ⟨_, rfl⟩ ⟨[], rfl⟩
  obtain ⟨answers, -, levels⟩ := later [.acknowledge]
  exact ⟨by decide, by decide, same, answers, levels (by decide)⟩

end Pair

end PicCascade
