import Disburse.Library.Bisimulation
import Disburse.Upstream.Client

/-!
Owns what a refused `try_admit` leaves behind. It can rewrite an Open circuit
whose cooldown has elapsed to an idle HalfOpen one; from then on no call tells
the two apart.
-/

namespace Disburse

open Disburse.Library

/-- The calls on an upstream, each with the time it reads. `permits` is the
semaphore changing hands elsewhere. -/
inductive UpstreamCall where
  | isDropped (now : Instant)
  | trip (now : Instant) (cooldown : Duration)
  | tryAdmit (now : Instant)
  | settleProbe (success : Bool) (now : Instant) (cooldown : Duration)
  | permits (now : Instant) (free : Nat)
deriving DecidableEq, Repr

def UpstreamCall.time : UpstreamCall → Instant
  | isDropped now | trip now _ | tryAdmit now | settleProbe _ now _ | permits now _ => now

/-- The results that callers see. -/
inductive Observed where
  | dropped (answer : Bool)
  | admission (answer : Option Bool)
deriving DecidableEq, Repr

namespace UpstreamCells

/-- One upstream as its callers see it. -/
def calls : Transducer UpstreamCells UpstreamCall Observed where
  step cells
    | .isDropped _ => cells
    | .trip now cooldown => { cells with circuit := .trip now cooldown }
    | .tryAdmit now => (cells.tryAdmit now).1
    | .settleProbe success now cooldown =>
        { cells with circuit := cells.circuit.settleProbe success now cooldown }
    | .permits _ free => { cells with permits := free }
  output cells
    | .isDropped now => some (.dropped (cells.circuit.isDropped now))
    | .tryAdmit now => some (.admission (cells.tryAdmit now).2)
    | _ => none

/-- From `clock` on, an idle HalfOpen circuit stands for an Open one whose cooldown
has elapsed. -/
inductive Alike (clock : Instant) : UpstreamCells → UpstreamCells → Prop where
  | same (cells : UpstreamCells) : Alike clock cells cells
  | rewritten (cells : UpstreamCells) {expires : Instant} (elapsed : expires ≤ clock) :
      Alike clock { cells with circuit := .halfOpen false }
        { cells with circuit := .opened expires }

/-- Idle and expired circuits admit alike. -/
theorem tryAdmit_expired (cells : UpstreamCells) {expires now : Instant} (elapsed : expires ≤ now) :
    ({ cells with circuit := .halfOpen false } : UpstreamCells).tryAdmit now =
      ({ cells with circuit := .opened expires } : UpstreamCells).tryAdmit now := by
  have idle := CircuitState.admitSection_eq_some.mpr (CircuitState.Admits.idle now)
  have expired := CircuitState.admitSection_eq_some.mpr (CircuitState.Admits.expired elapsed)
  unfold tryAdmit
  dsimp only
  rw [idle, expired]

theorem calls_bisimulation : calls.Bisimulation UpstreamCall.time Alike where
  answers := by
    intro clock left right call alike later
    cases alike with
    | same => rfl
    | rewritten cells elapsed =>
        have expired := elapsed.trans later
        cases call with
        | isDropped now =>
            have passed := decide_eq_false (Nat.not_lt.mpr expired)
            exact congrArg (fun answer => some (Observed.dropped answer)) passed.symm
        | tryAdmit now =>
            have admitted := tryAdmit_expired cells expired
            exact congrArg (fun result => some (Observed.admission result.2)) admitted
        | trip now cooldown => rfl
        | settleProbe success now cooldown => rfl
        | permits now free => rfl
  keeps := by
    intro clock left right call alike later
    cases alike with
    | same => exact .same _
    | rewritten cells elapsed =>
        have expired := elapsed.trans later
        cases call with
        | isDropped now => exact .rewritten cells expired
        | tryAdmit now =>
            have expiredNow : _ ≤ now := expired
            simp only [calls, tryAdmit_expired cells expiredNow]
            exact .same _
        | trip now cooldown => exact .same _
        | settleProbe success now cooldown =>
            -- A late settlement finds no probe in either circuit.
            exact .rewritten cells expired
        | permits now free => exact .rewritten { cells with permits := free } expired

/-- A refused call changes nothing, or only rewrites an expired circuit. -/
theorem alike_of_refused {cells : UpstreamCells} {now : Instant}
    (refused : (cells.tryAdmit now).2 = none) : Alike now (cells.tryAdmit now).1 cells := by
  rcases cells with ⟨circuit, permits, lastSlot⟩
  unfold tryAdmit at refused ⊢
  dsimp only at refused ⊢
  split
  · exact .same _
  · rename_i next isProbe passed
    have path := CircuitState.admitSection_eq_some.mp passed
    rw [passed] at refused
    dsimp only at refused ⊢
    split
    · rename_i free
      rw [if_pos free] at refused
      cases refused
    · cases path with
      | closed => exact .same _
      | expired elapsed =>
          exact .rewritten { circuit := .closed, permits := permits, lastSlot := lastSlot } elapsed
      | idle => exact .same _

/-- A refused `try_admit` cannot be noticed: later calls answer as if it had not
been made. -/
theorem refused_neutral {cells : UpstreamCells} {now : Instant}
    (refused : (cells.tryAdmit now).2 = none) {later : List UpstreamCall}
    (ordered : (now :: later.map UpstreamCall.time).Pairwise (· ≤ ·)) :
    calls.outputs (cells.tryAdmit now).1 later = calls.outputs cells later :=
  calls_bisimulation.outputs_eq (alike_of_refused refused) ordered

/-- A probe refused for want of a permit, a late settlement, and the probe again. -/
theorem refused_neutral_expired :
    let cells : UpstreamCells := { circuit := .opened 5, permits := 0, lastSlot := 0 }
    let later : List UpstreamCall :=
      [.isDropped 7, .settleProbe true 8 30, .permits 9 1, .tryAdmit 9, .trip 9 30, .isDropped 10]
    (cells.tryAdmit 6).1 ≠ cells ∧
      calls.outputs (cells.tryAdmit 6).1 later = calls.outputs cells later :=
  ⟨by decide, refused_neutral (by decide) (by decide)⟩

end UpstreamCells

end Disburse
