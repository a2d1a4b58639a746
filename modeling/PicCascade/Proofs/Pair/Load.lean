import PicCascade.Proofs.Chip.Record
import PicCascade.Proofs.Pair.Change
import PicCascade.Proofs.Snapshot.Container
import PicCascade.Proofs.Snapshot.Value

/-!
# Loading a snapshot

A snapshot is decoded completely before any of it is put into effect, so one that is refused changes
nothing. One that is accepted replaces the registers and nothing else but the flag that tells
whether edges are counted. The outputs are then recomputed, which does not reach back into the
registers: the secondary's output is not put on the cascade line.

Results:
* `Saved.ofContainer_eq_ok_iff`, `Saved.exists_ofContainer_iff`: what a container decodes to, and
  which containers can be decoded.
* `pair_load`, `driven_load`: the pair after loading, and what it drives.
* `restore_exact`: loading accepts exactly the acceptable snapshots, does all or nothing, and does
  nothing the second time.
-/

namespace PicCascade

open Snapshot

/-! ## What a snapshot says -/

namespace Saved

variable {c : Container} {tag : UInt16} {r : Registers} {saved : Saved} {bytes : List UInt8}

/-- The field with the given tag is the record of the registers, or there is no such field and the
registers are as after power-on. -/
inductive Describes (c : Container) (tag : UInt16) : Registers → Prop
  | missing (missing : c.value? tag = none) : Describes c tag {}
  | found {r : Registers} (found : c.value? tag = some r.toBytes) : Describes c tag r

theorem registers_eq_ok_iff : registers c tag = .ok r ↔ Describes c tag r := by
  unfold registers
  constructor
  · intro h
    cases value : c.value? tag with
    | none =>
      rw [value] at h
      cases h
      exact .missing value
    | some bs =>
      rw [value] at h
      exact .found (value.trans (congrArg some (Registers.ofBytes_eq_ok.mp h)))
  · intro h
    cases h with
    | missing missing => rw [missing]
    | found found =>
      rw [found]
      exact Registers.ofBytes_eq_ok.mpr rfl

theorem exists_describes_iff :
    (∃ r, Describes c tag r) ↔ ∀ bs, c.value? tag = some bs → Registers.IsRecord bs := by
  constructor
  · rintro ⟨r, described⟩ bs value
    cases described with
    | missing missing =>
      rw [missing] at value
      cases value
    | found found =>
      rw [found] at value
      cases value
      exact Registers.isRecord_toBytes r
  · intro record
    cases value : c.value? tag with
    | none => exact ⟨{}, .missing value⟩
    | some bs =>
      obtain ⟨r, rfl⟩ := Registers.exists_eq_toBytes_iff.mpr (record bs value)
      exact ⟨r, .found value⟩

/-- The tag of the registers of a chip. -/
def registersTag : Position → UInt16
  | .primary => primaryTag
  | .secondary => secondaryTag

/-- A container in the layout of version 1 in which the fields of the registers are records, if they
are there, and the flag is a truth value, if it is there. -/
structure Acceptable (c : Container) : Prop where
  major : c.header.version.major = 1
  registers : ∀ position bs, c.value? (registersTag position) = some bs → Registers.IsRecord bs
  counting : ∀ bs, c.value? countingTag = some bs → bs = [0] ∨ bs = [1]

theorem bind_eq_ok {α β : Type} {x : Except Error α} {f : α → Except Error β} {b : β} :
    (x >>= f) = .ok b ↔ ∃ a, x = .ok a ∧ f a = .ok b := by
  cases x with
  | error e => simp [bind, Except.bind]
  | ok a => simp [bind, Except.bind]

theorem requireMajor_eq_ok_iff {major : UInt16} {u : Unit} :
    c.requireMajor major = .ok u ↔ c.header.version.major = major := by
  unfold Container.requireMajor
  split <;> simp_all

theorem ofContainer_eq_ok_iff :
    ofContainer c = .ok saved ↔
      c.header.version.major = 1 ∧ Describes c (registersTag .primary) saved.primary ∧
        Describes c (registersTag .secondary) saved.secondary ∧ c.bool? countingTag = .ok saved.counting := by
  simp only [ofContainer, bind_eq_ok, requireMajor_eq_ok_iff, registers_eq_ok_iff]
  constructor
  · rintro ⟨-, major, primary, described, secondary, described', counting, read, returned⟩
    cases returned
    exact ⟨major, described, described', read⟩
  · rintro ⟨major, described, described', read⟩
    exact ⟨(), major, _, described, _, described', _, read, rfl⟩

/-- The containers that can be decoded are the acceptable ones. -/
theorem exists_ofContainer_iff : (∃ saved, ofContainer c = .ok saved) ↔ Acceptable c := by
  constructor
  · rintro ⟨saved, decoded⟩
    obtain ⟨major, primary, secondary, counting⟩ := ofContainer_eq_ok_iff.mp decoded
    refine ⟨major, ?_, Container.exists_bool?_eq_ok.mp ⟨_, counting⟩⟩
    intro position
    cases position with
    | primary => exact exists_describes_iff.mp ⟨_, primary⟩
    | secondary => exact exists_describes_iff.mp ⟨_, secondary⟩
  · rintro ⟨major, registers, counting⟩
    obtain ⟨primary, described⟩ := exists_describes_iff.mpr (registers .primary)
    obtain ⟨secondary, described'⟩ := exists_describes_iff.mpr (registers .secondary)
    obtain ⟨flag, read⟩ := Container.exists_bool?_eq_ok.mpr counting
    refine ⟨⟨primary, secondary, flag⟩, ?_⟩
    exact ofContainer_eq_ok_iff.mpr ⟨major, described, described', read⟩

theorem ofBytes_eq_ok_iff :
    ofBytes bytes = .ok saved ↔
      ∃ c, Container.parse device bytes = .ok c ∧ ofContainer c = .ok saved :=
  bind_eq_ok

end Saved

namespace Pair

variable {Wire : Type} {p : Pair Wire} {bytes : List UInt8} {c : Container}

/-! ## The pair after loading -/

/-- Loading replaces the registers and recomputes both outputs from them. -/
theorem pair_load (p : Pair Wire) (saved : Saved) :
    (p.load saved).pair =
      let primary := saved.primary.limited p.config.primary.elcrMask
      let secondary := saved.secondary.limited p.config.secondary.elcrMask
      { p with
        primary := ⟨primary, (primary.pending? .primary).isSome, false⟩
        secondary := ⟨secondary, (secondary.pending? .secondary).isSome, false⟩
        level := (primary.pending? .primary).isSome
        counters := { p.counters with enabled := saved.counting.getD p.counters.enabled } } :=
  rfl

/-- Loading drives the wire if its level changes. -/
theorem driven_load (p : Pair Wire) (saved : Saved) :
    (p.load saved).driven =
      if (p.load saved).pair.level = p.level then []
      else p.wire.toList.map (·, (p.load saved).pair.level) := by
  have follows : p.Follows (p.load saved) := by
    unfold load
    apply follows_settle
    exact ⟨rfl, rfl⟩
  exact follows.driven

/-- What has been loaded can be loaded again without effect. -/
theorem load_load (p : Pair Wire) (saved : Saved) :
    (p.load saved).pair.load saved = ⟨(), (p.load saved).pair, []⟩ := by
  have pair : ((p.load saved).pair.load saved).pair = (p.load saved).pair := by
    rw [pair_load, pair_load]
    cases saved.counting <;> rfl
  have driven : ((p.load saved).pair.load saved).driven = [] := by
    rw [driven_load, if_pos (by rw [pair])]
  calc (p.load saved).pair.load saved
    _ = ⟨(), ((p.load saved).pair.load saved).pair, ((p.load saved).pair.load saved).driven⟩ := rfl
    _ = ⟨(), (p.load saved).pair, []⟩ := by rw [pair, driven]

/-- `o` is the outcome of loading the container `c` into the pair `p`. -/
structure Loaded (p : Pair Wire) (c : Container) {α : Type} (o : Outcome Wire α) : Prop where
  /-- The registers are those of the snapshot, with the trigger modes limited by the wiring. -/
  registers : ∀ position, ∃ r, Saved.Describes c (Saved.registersTag position) r ∧
    (o.pair.chip position).regs = r.limited (p.config.chip position).elcrMask
  /-- Without a flag in the snapshot the counters are as before. -/
  countersKept : c.value? Saved.countingTag = none → o.pair.counters = p.counters
  /-- With a flag, only the flag of the counters is changed. -/
  countersSwitched : ∀ on : Bool, c.value? Saved.countingTag = some [UInt8.ofNat on.toNat] →
    o.pair.counters = { p.counters with enabled := on }
  config : o.pair.config = p.config
  wire : o.pair.wire = p.wire
  settled : o.pair.Settled
  /-- The wire is at the level that arbitration asks for. -/
  level : o.pair.level = o.pair.output
  /-- It is driven only if that changes its level. -/
  driven : o.driven =
    if o.pair.level = p.level then [] else p.wire.toList.map (·, o.pair.level)

theorem loaded_load {saved : Saved} (decoded : Saved.ofContainer c = .ok saved) :
    p.Loaded c (p.load saved) := by
  obtain ⟨-, primary, secondary, counting⟩ := Saved.ofContainer_eq_ok_iff.mp decoded
  constructor
  case registers =>
    intro position
    cases position with
    | primary => exact ⟨saved.primary, primary, rfl⟩
    | secondary => exact ⟨saved.secondary, secondary, rfl⟩
  case countersKept =>
    intro missing
    rw [Container.bool?_eq_ok_none.mpr missing] at counting
    rw [pair_load, ← Except.ok.inj counting]
    rfl
  case countersSwitched =>
    intro on found
    have read : c.bool? Saved.countingTag = .ok (some on) := Container.bool?_eq_ok_some.mpr found
    rw [read] at counting
    rw [pair_load, ← Except.ok.inj counting]
    rfl
  case settled => exact ⟨rfl, rfl⟩
  case driven => exact driven_load p saved
  all_goals rfl

/-! ## All or nothing -/

theorem restore_of_error {e : Error} (refused : Saved.ofBytes bytes = .error e) :
    p.restore bytes = ⟨.error e, p, []⟩ := by
  rw [restore, refused]

theorem restore_of_ok {saved : Saved} (decoded : Saved.ofBytes bytes = .ok saved) :
    p.restore bytes = (p.load saved).map .ok := by
  rw [restore, decoded]

theorem answer_restore_eq_ok_iff :
    (p.restore bytes).answer = .ok () ↔ ∃ saved, Saved.ofBytes bytes = .ok saved := by
  cases decoded : Saved.ofBytes bytes with
  | error e => simp [restore_of_error decoded]
  | ok saved => simp [restore_of_ok decoded, Outcome.map]

/-- Loading a snapshot into a pair is all or nothing. It is accepted iff it parses as a container of
the device that is acceptable. If it is refused, the pair stays as it is and nothing is driven. If
it is accepted, the registers, the flag for counting and the level of the wire are those that the
snapshot asks for and all else stays as it is. Loading the same snapshot once more changes nothing
and drives nothing. -/
theorem restore_exact (p : Pair Wire) (bytes : List UInt8) :
    ((p.restore bytes).answer = .ok () ↔
      ∃ c, Container.parse Saved.device bytes = .ok c ∧ Saved.Acceptable c) ∧
    (∀ e, (p.restore bytes).answer = .error e → p.restore bytes = ⟨.error e, p, []⟩) ∧
    (∀ c, Container.parse Saved.device bytes = .ok c → Saved.Acceptable c →
      p.Loaded c (p.restore bytes)) ∧
    (p.restore bytes).pair.restore bytes = ⟨(p.restore bytes).answer, (p.restore bytes).pair, []⟩ := by
  refine ⟨?_, ?_, ?_, ?_⟩
  · rw [answer_restore_eq_ok_iff]
    simp only [Saved.ofBytes_eq_ok_iff]
    constructor
    · rintro ⟨saved, c, parsed, decoded⟩
      exact ⟨c, parsed, Saved.exists_ofContainer_iff.mp ⟨saved, decoded⟩⟩
    · rintro ⟨c, parsed, acceptable⟩
      obtain ⟨saved, decoded⟩ := Saved.exists_ofContainer_iff.mpr acceptable
      exact ⟨saved, c, parsed, decoded⟩
  · intro e refused
    cases decoded : Saved.ofBytes bytes with
    | error e' =>
      rw [restore_of_error decoded] at refused ⊢
      cases refused
      rfl
    | ok saved =>
      rw [restore_of_ok decoded] at refused
      cases refused
  · intro c parsed acceptable
    obtain ⟨saved, decoded⟩ := Saved.exists_ofContainer_iff.mpr acceptable
    have loaded := loaded_load (p := p) decoded
    rw [restore_of_ok (Saved.ofBytes_eq_ok_iff.mpr ⟨c, parsed, decoded⟩)]
    exact { loaded with }
  · cases decoded : Saved.ofBytes bytes with
    | error e => rw [restore_of_error decoded, restore_of_error decoded]
    | ok saved =>
      rw [restore_of_ok decoded, restore_of_ok decoded]
      show ((p.load saved).pair.load saved).map Except.ok = _
      rw [load_load]
      rfl

/-- A snapshot of the primary alone. Its line 1 requests service, and all its lines are said to be
level-triggered. -/
def requestAlone : Container where
  header := ⟨formatVersion, Saved.device, Saved.version⟩
  fields :=
    [⟨Saved.primaryTag, Registers.toBytes { irr := .ofByte 0x02, elcr := .ofByte 0xFF }⟩]

/-- The wire goes high once, only the lines that can be level-triggered are, and edges are still
counted. -/
theorem restore_exact_requestAlone :
    let p : Pair Unit := ((new {}).performAll [.connect (some ()), .setCounting true]).pair
    let o := p.restore requestAlone.toBytes
    o.answer = .ok () ∧ o.driven = [((), true)] ∧
      o.pair.primary.regs = { irr := .ofByte 0x02, elcr := .ofByte 0xF8 } ∧
      o.pair.counters.enabled = true ∧
      o.pair.restore requestAlone.toBytes = ⟨.ok (), o.pair, []⟩ := by
  intro p o
  obtain ⟨accepted, -, loads, again⟩ := restore_exact p requestAlone.toBytes
  have parsed : Container.parse Saved.device requestAlone.toBytes = .ok requestAlone :=
    Container.parse_eq_ok.mpr ⟨rfl, rfl, by decide, by decide, rfl⟩
  have acceptable : Saved.Acceptable requestAlone := by
    refine ⟨rfl, fun position bs value => ?_, fun bs value => ?_⟩
    · cases position with
      | primary =>
        cases value
        exact Registers.isRecord_toBytes _
      | secondary => cases value
    · cases value
  have answer : o.answer = .ok () := accepted.mpr ⟨_, parsed, acceptable⟩
  have loaded := loads requestAlone parsed acceptable
  have level : o.pair.level = true := by decide +kernel
  rw [answer] at again
  refine ⟨answer, ?_, by decide +kernel, ?_, again⟩
  · rw [loaded.driven, level]
    rfl
  · rw [loaded.countersKept rfl]
    rfl

end Pair

end PicCascade
