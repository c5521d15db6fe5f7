import Disburse.Library.RunRules
import Disburse.Routing.Leader

/-!
Owns the leader table under concurrent `select_and_admit` calls. Every read of the
shared state by a selection is a step of its own: the tip, the circuit, the
statistics and the slot of each upstream, then the leader; so is the insert of a new
leader, and the admission. Calls interleave, and circuits, permits, statistics and
slots change between steps in any way.

A leader is replaced only by a call that may not use it, has found it dropped or
without a score, or has found it beaten beyond the margin; or by a call that had read
the table before this leader was installed.
-/

namespace Disburse

open Disburse.Library

/-! ### Calls under way -/

/-- What a selection has found about an upstream. -/
inductive Finding where
  | filtered
  | dropped
  | unscored
  | scored (score : Rat)
deriving DecidableEq, Repr

/-- The loop over the upstreams that a selection is in: for p50s, or for generic scores. -/
inductive Pass where
  | measuring
  | rating
deriving DecidableEq, Repr

abbrev Findings := List (Upstream × Finding)

def Findings.scores (found : Findings) : List (Upstream × Rat) :=
  found.filterMap fun entry =>
    match entry.2 with
    | .scored score => some (entry.1, score)
    | _ => none

/-- The candidates that a loop ends with. -/
def Findings.candidates (found : Findings) (pass : Pass) (arith : Rounding) :
    List (Upstream × Rat) :=
  match pass with
  | .measuring => p50Scores found.scores arith
  | .rating => found.scores

/-- What a call does next. -/
inductive SelectPhase where
  | starting
  | checking (pass : Pass) (tip : Nat) (rest : List Upstream) (found : Findings)
  | sampling (pass : Pass) (tip : Nat) (upstream : Upstream) (rest : List Upstream)
      (found : Findings)
  | weighing (tip : Nat) (rating : Rat) (upstream : Upstream) (rest : List Upstream)
      (found : Findings)
  | consulting (pass : Pass) (found : Findings)
  | installing (pass : Pass) (found : Findings) (leaderName : Option String)
  | admitting (upstream : Upstream)
  | returned (result : Option (Upstream × Bool))
deriving DecidableEq, Repr

/-- A `select_and_admit` call: its exclusions and the names that have refused it. -/
structure PendingCall where
  method : String
  excluded : List String
  admissionSkips : List String
  phase : SelectPhase
deriving DecidableEq, Repr

def PendingCall.filter (call : PendingCall) : List String :=
  call.excluded ++ call.admissionSkips

/-- The pool and the calls made on it, by their order. -/
structure CallsState where
  pool : UpstreamPool
  calls : List PendingCall

/-- `elsewhere` is whatever else changes the shared state between two steps, among it
what happens between the sections of `try_admit`. -/
inductive CallEvent where
  | call (method : String) (excluded : List String)
  | advance (index : Nat) (now : Instant) (draw : Nat)
  | elsewhere (cells : String → UpstreamCells) (stats : StatsStore) (tipSlot : Nat)

/-- A step that reads the shared state once at most, and writes nothing. -/
def PendingCall.read (cfg : Config) (arith : Rounding) (pool : UpstreamPool) (call : PendingCall)
    (now : Instant) : SelectPhase → SelectPhase
  | .starting =>
      let pass := if call.method = "sendTransaction" then Pass.measuring else .rating
      .checking pass pool.tipSlot cfg.pool []
  | .checking pass tip (upstream :: rest) found =>
      if upstream.name ∈ call.filter then
        .checking pass tip rest (found ++ [(upstream, .filtered)])
      else if pool.isDropped upstream.name now then
        .checking pass tip rest (found ++ [(upstream, .dropped)])
      else .sampling pass tip upstream rest found
  | .checking pass tip [] found =>
      -- Without any p50 the call falls through to the generic scores.
      if pass = .measuring ∧ found.scores = [] then .checking .rating tip cfg.pool []
      else .consulting pass found
  | .sampling .measuring tip upstream rest found =>
      match pool.stats.sendTxP50 upstream.name with
      | some p50 => .checking .measuring tip rest (found ++ [(upstream, .scored p50)])
      | none => .checking .measuring tip rest (found ++ [(upstream, .unscored)])
  | .sampling .rating tip upstream rest found =>
      .weighing tip (recordRating cfg pool.stats upstream.name call.method arith) upstream rest
        found
  | .weighing tip rating upstream rest found =>
      let score := arith.mul rating
        (slotLagPenalty cfg { pool with tipSlot := tip } upstream.name arith)
      if 0 < score then .checking .rating tip rest (found ++ [(upstream, .scored score)])
      else .checking .rating tip rest (found ++ [(upstream, .unscored)])
  | .consulting pass found =>
      if found.candidates pass arith = [] then .returned none
      else
        match heldLeader pool call.method (found.candidates pass arith)
          cfg.routing.hysteresisMargin arith with
        | some leader => .admitting leader
        | none => .installing pass found (pool.currentLeader call.method)
  | phase => phase

/-- The next step of a call: one access to the shared state at most. -/
def PendingCall.advance (cfg : Config) (arith : Rounding) (pool : UpstreamPool)
    (call : PendingCall) (now : Instant) (draw : Nat) : UpstreamPool × PendingCall :=
  match call.phase with
  | .installing pass found _ =>
      let top := tiedTop (found.candidates pass arith) arith
      match top[draw % top.length]? with
      | none => (pool, { call with phase := .returned none })
      | some (chosen, _) =>
          ({ pool with
              currentLeader :=
                Function.update pool.currentLeader call.method (some chosen.name) },
            { call with phase := .admitting chosen })
  | .admitting upstream =>
      match (pool.cells upstream.name).tryAdmit now with
      | (cells, some isProbe) =>
          (pool.setCells upstream.name cells,
            { call with phase := .returned (some (upstream, isProbe)) })
      | (cells, none) =>
          (pool.setCells upstream.name cells,
            { call with
              admissionSkips := call.admissionSkips ++ [upstream.name]
              phase := .starting })
  | phase => (pool, { call with phase := call.read cfg arith pool now phase })

def CallsState.step (cfg : Config) (arith : Rounding) (state : CallsState) :
    CallEvent → Option CallsState
  | .call method excluded =>
      some { state with
        calls := state.calls ++
          [{ method := method, excluded := excluded, admissionSkips := [], phase := .starting }] }
  | .advance index now draw =>
      state.calls[index]?.map fun call =>
        let advanced := call.advance cfg arith state.pool now draw
        { pool := advanced.1, calls := state.calls.set index advanced.2 }
  | .elsewhere cells stats tipSlot =>
      some { state with
        pool := { state.pool with cells := cells, stats := stats, tipSlot := tipSlot } }

/-- Any number of calls on the pool of a config. -/
def callsMachine (cfg : Config) (arith : Rounding := .exact) : Machine CallsState CallEvent where
  init := { pool := .fromConfig cfg, calls := [] }
  step := CallsState.step cfg arith

/-! ### What a step of a call writes -/

section Advance

variable {cfg : Config} {arith : Rounding} {pool : UpstreamPool} {call : PendingCall}
  {now : Instant} {draw : Nat}

end Advance

/-! ### What a call knows -/

/-- The findings of the loop that a call is in or has ended. -/
def SelectPhase.found : SelectPhase → Findings
  | .checking _ _ _ found | .sampling _ _ _ _ found | .weighing _ _ _ _ found => found
  | .consulting _ found | .installing _ found _ => found
  | .starting | .admitting _ | .returned _ => []

/-- The upstreams that the loop has not come to. -/
def SelectPhase.ahead : SelectPhase → List Upstream
  | .checking _ _ rest _ => rest
  | .sampling _ _ upstream rest _ | .weighing _ _ upstream rest _ => upstream :: rest
  | _ => []

/-- The call has upstreams to look at or has looked at them. -/
def SelectPhase.Looping : SelectPhase → Prop
  | .starting | .admitting _ | .returned _ => False
  | _ => True

/-- What makes a step find this about an upstream. -/
def PendingCall.Observes (cfg : Config) (arith : Rounding) (pool : UpstreamPool)
    (call : PendingCall) (now : Instant) (upstream : Upstream) : Finding → Prop
  | .filtered => upstream.name ∈ call.filter
  | .dropped => pool.isDropped upstream.name now = true
  | .unscored =>
      ((∃ tip rest found, call.phase = .sampling .measuring tip upstream rest found) ∧
        pool.stats.sendTxP50 upstream.name = none) ∨
      ∃ tip rating rest found, call.phase = .weighing tip rating upstream rest found ∧
        arith.mul rating
          (slotLagPenalty cfg { pool with tipSlot := tip } upstream.name arith) ≤ 0
  | .scored _ => True

section Read

variable (cfg : Config) (arith : Rounding) (pool : UpstreamPool) (call : PendingCall)
  (now : Instant)

/-- What a read comes to: a loop starts, finds something about the next upstream or goes
on; the leader is read and not held; or the selection is over. -/
inductive PendingCall.Reads : SelectPhase → Prop where
  | starts (pass : Pass) (tip : Nat) : Reads (.checking pass tip cfg.pool [])
  | finds (upstream : Upstream) (finding : Finding) (pass : Pass) (tip : Nat)
      (rest : List Upstream) (ahead : call.phase.ahead = upstream :: rest)
      (observes : call.Observes cfg arith pool now upstream finding) :
      Reads (.checking pass tip rest (call.phase.found ++ [(upstream, finding)]))
  | goesOn (next : SelectPhase) (looping : call.phase.Looping)
      (found : next.found = call.phase.found) (ahead : next.ahead = call.phase.ahead)
      (reading : ∀ pass found leaderName, next ≠ .installing pass found leaderName) :
      Reads next
  | consults (pass : Pass) (found : Findings) (consulting : call.phase = .consulting pass found)
      (released : heldLeader pool call.method (found.candidates pass arith)
        cfg.routing.hysteresisMargin arith = none) :
      Reads (.installing pass found (pool.currentLeader call.method))
  | ends (next : SelectPhase) (none : next.found = []) (ended : ¬ next.Looping) : Reads next

variable {cfg arith pool call now}

end Read

/-- The leader is not held among the candidates: none has its name, or it is beaten
beyond the margin. -/
def Unheld (cfg : Config) (arith : Rounding) (candidates : List (Upstream × Rat))
    (leader : String) : Prop :=
  (∀ entry ∈ candidates, entry.1.name ≠ leader) ∨
    ∃ entry ∈ candidates, entry.1.name = leader ∧
      entry.2 < arith.mul (topScore candidates) (arith.sub 1 cfg.routing.hysteresisMargin)

/-- What holds of a call between its steps: its loop has found something about every
upstream it has passed, the names it has filtered are in its filter, and it does not
hold the leader that it has read and will replace. -/
structure PendingCall.Sound (cfg : Config) (arith : Rounding) (call : PendingCall) : Prop where
  covers : call.phase.Looping → call.phase.found.map Prod.fst ++ call.phase.ahead = cfg.pool
  filtered : ∀ upstream, (upstream, .filtered) ∈ call.phase.found → upstream.name ∈ call.filter
  released : ∀ pass found leader, call.phase = .installing pass found (some leader) →
    Unheld cfg arith (found.candidates pass arith) leader

section Sound

variable {cfg : Config} {arith : Rounding} {pool : UpstreamPool} {call : PendingCall}
  {now : Instant} {draw : Nat}

/-- What a read leaves of the findings. -/
theorem PendingCall.Reads.covers {next : SelectPhase} (reads : call.Reads cfg arith pool now next)
    (sound : call.Sound cfg arith) (looping : next.Looping) :
    next.found.map Prod.fst ++ next.ahead = cfg.pool := by
  cases reads with
  | starts => rfl
  | finds upstream finding pass tip rest ahead =>
      have before : call.phase.Looping := by
        cases phase : call.phase with
        | checking | sampling | weighing => trivial
        | _ =>
            rw [phase] at ahead
            cases ahead
      show (call.phase.found ++ [(upstream, finding)]).map Prod.fst ++ rest = cfg.pool
      rw [List.map_append, List.append_assoc, ← sound.covers before, ahead]
      rfl
  | goesOn _ before found ahead =>
      rw [found, ahead]
      exact sound.covers before
  | consults pass found consulting =>
      have covers := sound.covers (by rw [consulting]; trivial)
      rw [consulting] at covers
      exact covers
  | ends _ _ ended => exact absurd looping ended

/-- What a read has found it knew before or has just found. -/
theorem PendingCall.Reads.found {next : SelectPhase} (reads : call.Reads cfg arith pool now next)
    {upstream : Upstream} {finding : Finding} (member : (upstream, finding) ∈ next.found) :
    (upstream, finding) ∈ call.phase.found ∨ call.Observes cfg arith pool now upstream finding := by
  cases reads with
  | starts => cases member
  | finds other about pass tip rest ahead observes =>
      rcases List.mem_append.mp member with earlier | own
      · exact .inl earlier
      · cases List.mem_singleton.mp own
        exact .inr observes
  | goesOn _ _ found =>
      rw [found] at member
      exact .inl member
  | consults pass found consulting =>
      rw [consulting]
      exact .inl member
  | ends _ none =>
      rw [none] at member
      cases member

end Sound

/-! ### Steps of the machine -/

section Steps

variable {cfg : Config} {arith : Rounding} {state next : CallsState} {event : CallEvent}

/-- Every call is sound, and every leader is a configured upstream. -/
structure CallsState.Sound (cfg : Config) (arith : Rounding) (state : CallsState) : Prop where
  calls : ∀ (index : Nat) (call : PendingCall), state.calls[index]? = some call →
    call.Sound cfg arith
  leaders : ∀ method leader, state.pool.currentLeader method = some leader →
    leader ∈ cfg.pool.map Upstream.name

end Steps

/-! ### Runs -/

section Runs

variable {cfg : Config} {arith : Rounding}

end Runs

end Disburse
