import PicCascade.Pair.Basic

/-!
# Acknowledging requests

The processor takes the most urgent request of the pair in one of two ways: by an acknowledge
cycle, which returns a vector and marks the request as in service, or by polling, which returns a
line number and retires the request at once. When the primary offers the cascade line, the line is
that of the secondary. When there is nothing to take, line 7 is reported and nothing is changed.
-/

namespace PicCascade.Pair

variable {Wire : Type}

/-- The vector that an acknowledge cycle would return, if there is a request
(`get_pending_vector`). -/
def pendingVector? (p : Pair Wire) : Option UInt8 :=
  p.primary.pending?.map fun i =>
    if i = Line.cascade then p.secondary.vector (p.secondary.pending?.getD Line.spurious)
    else p.primary.vector i

/-- The acknowledge cycle of the processor (`resolve_vector`). -/
def acknowledge (p : Pair Wire) : Outcome Wire UInt8 :=
  match p.primary.pending? with
  | none => p.settle (p.primary.vector Line.spurious)
  | some i =>
    if i = Line.cascade then
      let cascaded := { p with primary := p.primary.acknowledge Line.cascade }
      match p.secondary.pending? with
      | none => cascaded.settle (p.secondary.vector Line.spurious)
      | some j =>
        settle { cascaded with secondary := p.secondary.acknowledge j } (p.secondary.vector j)
    else
      settle { p with primary := p.primary.acknowledge i } (p.primary.vector i)

/-- The acknowledge cycle, run only if the pair asks for service (`poll_interrupt`). -/
def acknowledgeIfAsserted (p : Pair Wire) : Outcome Wire (Option UInt8) :=
  if p.output then p.acknowledge.map some else ⟨none, p, []⟩

/-- Polls the primary (`poll_read`). If it offers the cascade line, its output is left as it is,
since a poll of the secondary is to follow. -/
def pollPrimary (p : Pair Wire) : Line × Pair Wire :=
  match p.primary.pending? with
  | none => (Line.spurious, p)
  | some i =>
    let polled := p.primary.retire i
    (i, { p with primary := if i = Line.cascade then polled else polled.refresh })

/-- Polls the secondary (`poll_read`). The cascade line of the primary is retired together with the
request. -/
def pollSecondary (p : Pair Wire) : Line × Pair Wire :=
  match p.secondary.pending? with
  | none => (Line.spurious, p)
  | some i =>
    (i, { p with
      primary := p.primary.retire Line.cascade
      secondary := (p.secondary.retire i).refresh })

/-- Polls a chip (`poll_read`). -/
def poll (p : Pair Wire) : Position → Line × Pair Wire
  | .primary => p.pollPrimary
  | .secondary => p.pollSecondary

/-- Polls the whole pair for the number of a line from 0 to 15, and selects the lines in service for
the next status read of the primary (`intack_read`). -/
def readIntack (p : Pair Wire) : Outcome Wire UInt8 :=
  let (i, p) := p.pollPrimary
  let (n, p) :=
    if i = Line.cascade then
      let (j, p) := p.pollSecondary
      (Line.global .secondary j, p)
    else (Line.global .primary i, p)
  (p.modifyChip .primary (·.modify fun r => { r with readIsr := true })).settle n

end PicCascade.Pair
