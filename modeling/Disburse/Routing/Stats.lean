import Disburse.Config
import Disburse.Library.Rounding
import Disburse.Library.TimedLog
import Mathlib.Data.List.Induction
import Mathlib.Logic.Function.Basic
import Mathlib.Tactic.Linarith
import Mathlib.Tactic.Positivity

/-!
Owns the rolling statistics: per-(upstream, method) averages, the per-upstream
error log and the per-upstream log of successful sendTransaction latencies.

Averages are rationals. The arithmetic that computes them is an argument: exact
unless another is given, and `.binary64` is that of the source's floats. The maps
are functions from keys; a key without an entry maps to `none`. `record` reads the
clock once, so the time of a call is its argument `now`.
-/

namespace Disburse

open Disburse.Library

structure MethodStats where
  ewmaLatencyMs : Rat
  ewmaSuccess : Rat
  samples : Nat
deriving DecidableEq, Repr

def MethodStats.default : MethodStats :=
  { ewmaLatencyMs := 0, ewmaSuccess := 1, samples := 0 }

structure StatsStore where
  methods : String × String → Option MethodStats
  errors : String → Option (TimedLog Bool)
  sendTxLatency : String → Option (TimedLog Rat)
  alpha : Rat
  window : Duration

def StatsStore.new (alpha : Rat) (rollingWindowSecs : Nat) : StatsStore :=
  { methods := fun _ => none
    errors := fun _ => none
    sendTxLatency := fun _ => none
    alpha := alpha
    window := .fromSecs rollingWindowSecs }

/-- `if success { 1.0 } else { 0.0 }` -/
def successValue (success : Bool) : Rat := if success then 1 else 0

/-- One sample: the first one seeds the averages. -/
def MethodStats.observe (alpha : Rat) (entry : MethodStats) (latencyMs : Rat)
    (success : Bool) (arith : Rounding := .exact) : MethodStats :=
  if entry.samples = 0 then
    { ewmaLatencyMs := latencyMs
      ewmaSuccess := successValue success
      samples := entry.samples + 1 }
  else
    { ewmaLatencyMs :=
        arith.add (arith.mul alpha latencyMs) (arith.mul (arith.sub 1 alpha) entry.ewmaLatencyMs)
      ewmaSuccess :=
        arith.add (arith.mul alpha (successValue success))
          (arith.mul (arith.sub 1 alpha) entry.ewmaSuccess)
      samples := entry.samples + 1 }

/-- The arguments of one `record` call, with the time it reads. -/
structure RecordCall where
  now : Instant
  upstream : String
  method : String
  latencyMs : Rat
  success : Bool
deriving DecidableEq, Repr

def RecordCall.pair (call : RecordCall) : String × String := (call.upstream, call.method)

/-- The sample of a successful sendTransaction through the upstream. -/
def RecordCall.sent (call : RecordCall) (upstream : String) : Option (Instant × Rat) :=
  if call.pair = (upstream, "sendTransaction") ∧ call.success = true then
    some (call.now, call.latencyMs)
  else none

theorem RecordCall.sent_isSome {call : RecordCall} {upstream : String} :
    (call.sent upstream).isSome = true ↔
      call.pair = (upstream, "sendTransaction") ∧ call.success = true := by
  unfold RecordCall.sent
  split <;> simp_all

namespace StatsStore

/-- The error log of an upstream; without an entry it is empty. -/
def errorLog (store : StatsStore) (upstream : String) : TimedLog Bool :=
  (store.errors upstream).getD []

def record (store : StatsStore) (now : Instant) (upstream method : String) (latencyMs : Rat)
    (success : Bool) (arith : Rounding := .exact) : StatsStore :=
  let entry := (store.methods (upstream, method)).getD .default
  let latencyLog := (store.sendTxLatency upstream).getD []
  { store with
    methods := Function.update store.methods (upstream, method)
      (some (entry.observe store.alpha latencyMs success arith))
    errors := Function.update store.errors upstream
      (some (pushPruned store.window now (store.errorLog upstream) (!success)))
    sendTxLatency :=
      if method = "sendTransaction" ∧ success = true then
        Function.update store.sendTxLatency upstream
          (some (pushPruned store.window now latencyLog latencyMs))
      else store.sendTxLatency }

def get (store : StatsStore) (upstream method : String) : Option MethodStats :=
  store.methods (upstream, method)

/-- Fraction of failures in an error log; an empty log counts as healthy. -/
def logRate (log : TimedLog Bool) : Rat :=
  if log.isEmpty then 0 else (log.countP fun entry => entry.2) / log.length

def errorRate (store : StatsStore) (upstream : String) : Rat :=
  match store.errors upstream with
  | some log => logRate log
  | none => 0

theorem errorRate_eq (store : StatsStore) (upstream : String) :
    store.errorRate upstream = logRate (store.errorLog upstream) := by
  unfold errorRate errorLog
  cases store.errors upstream <;> rfl

/-- The rate of a log exceeds a threshold exactly when its failures exceed that
share of its entries. -/
theorem lt_logRate_iff {log : TimedLog Bool} (nonempty : log ≠ []) (threshold : Rat) :
    threshold < logRate log ↔ threshold * log.length < log.countP fun entry => entry.2 := by
  have positive : (0 : Rat) < log.length := by
    exact_mod_cast List.length_pos_iff.mpr nonempty
  unfold logRate
  rw [List.isEmpty_eq_false_iff.mpr nonempty, if_neg Bool.false_ne_true, lt_div_iff₀ positive]

def sendTxP50 (store : StatsStore) (upstream : String) : Option Rat :=
  match store.sendTxLatency upstream with
  | some log =>
      let sorted := (log.map Prod.snd).mergeSort (· ≤ ·)
      sorted[sorted.length / 2]?
  | none => none

/-- Number of `record` calls made for a pair. -/
def samplesOf (store : StatsStore) (pair : String × String) : Nat :=
  ((store.methods pair).map MethodStats.samples).getD 0

/-- A sequence of `record` calls. -/
def run (store : StatsStore) (calls : List RecordCall) (arith : Rounding := .exact) :
    StatsStore :=
  calls.foldl (fun current call =>
    current.record call.now call.upstream call.method call.latencyMs call.success arith) store

/-! ### What one record changes -/

section Record

variable (store : StatsStore) (now : Instant) (upstream method : String) (latencyMs : Rat)
  (success : Bool) (arith : Rounding)

@[simp] theorem record_alpha :
    (store.record now upstream method latencyMs success arith).alpha = store.alpha := rfl

theorem record_methods_self :
    (store.record now upstream method latencyMs success arith).methods (upstream, method) =
      some (((store.methods (upstream, method)).getD .default).observe store.alpha latencyMs
        success arith) := by
  simp [record]

theorem record_methods_other {pair : String × String} (other : pair ≠ (upstream, method)) :
    (store.record now upstream method latencyMs success arith).methods pair =
      store.methods pair := by
  simp [record, Function.update_of_ne other]

theorem record_errorLog (name : String) :
    (store.record now upstream method latencyMs success arith).errorLog name =
      if name = upstream then pushPruned store.window now (store.errorLog upstream) (!success)
      else store.errorLog name := by
  by_cases same : name = upstream
  · subst same
    simp [errorLog, record]
  · simp [errorLog, record, same]

theorem observe_samples (alpha : Rat) (entry : MethodStats) :
    (entry.observe alpha latencyMs success arith).samples = entry.samples + 1 := by
  unfold MethodStats.observe
  split <;> rfl

theorem record_samplesOf (pair : String × String) :
    (store.record now upstream method latencyMs success arith).samplesOf pair =
      store.samplesOf pair + if pair = (upstream, method) then 1 else 0 := by
  by_cases same : pair = (upstream, method)
  · subst same
    simp only [samplesOf, record_methods_self, Option.map_some, Option.getD_some,
      observe_samples, ↓reduceIte]
    cases store.methods (upstream, method) <;> rfl
  · simp only [samplesOf, record_methods_other _ _ _ _ _ _ _ same, same, ↓reduceIte,
      Nat.add_zero]

end Record

/-! ### Runs of records -/

section Runs

variable (store : StatsStore) (calls : List RecordCall) (arith : Rounding)

theorem run_nil : store.run [] arith = store := rfl

theorem run_snoc (call : RecordCall) :
    store.run (calls ++ [call]) arith = (store.run calls arith).record call.now call.upstream
      call.method call.latencyMs call.success arith := by
  rw [run, List.foldl_append]
  rfl

theorem run_alpha : (store.run calls arith).alpha = store.alpha := by
  induction calls using List.reverseRecOn with
  | nil => rfl
  | append_singleton calls call inductionHypothesis =>
      rw [run_snoc, record_alpha, inductionHypothesis]

theorem run_window : (store.run calls arith).window = store.window := by
  induction calls using List.reverseRecOn with
  | nil => rfl
  | append_singleton calls call inductionHypothesis =>
      rw [run_snoc]
      exact inductionHypothesis

end Runs

/-- The calls made for one pair, in order. -/
def callsOn (pair : String × String) (calls : List RecordCall) : List RecordCall :=
  calls.filter fun call => call.pair == pair

/-- What one call does to the entry of its own pair. -/
def observeCall (arith : Rounding) (alpha : Rat) (entry : Option MethodStats)
    (call : RecordCall) : Option MethodStats :=
  some ((entry.getD .default).observe alpha call.latencyMs call.success arith)

theorem callsOn_snoc (pair : String × String) (calls : List RecordCall) (call : RecordCall) :
    callsOn pair (calls ++ [call]) =
      if call.pair = pair then callsOn pair calls ++ [call] else callsOn pair calls := by
  unfold callsOn
  rw [List.filter_append]
  by_cases same : call.pair = pair <;> simp [same]

/-- The entry of a pair depends on the calls for that pair alone. -/
theorem run_methods (store : StatsStore) (calls : List RecordCall) (arith : Rounding)
    (pair : String × String) :
    (store.run calls arith).methods pair =
      (callsOn pair calls).foldl (observeCall arith store.alpha) (store.methods pair) := by
  induction calls using List.reverseRecOn with
  | nil => rfl
  | append_singleton calls call inductionHypothesis =>
      rw [run_snoc, callsOn_snoc]
      by_cases same : call.pair = pair
      · subst same
        rw [if_pos rfl, List.foldl_append, ← inductionHypothesis]
        have own := record_methods_self (store.run calls arith) call.now call.upstream call.method
          call.latencyMs call.success arith
        rw [run_alpha] at own
        exact own
      · rw [if_neg same, ← inductionHypothesis]
        exact record_methods_other _ _ _ _ _ _ _ (Ne.symm same)

/-- What any records leave in the entry of a pair. -/
structure Averages (arith : Rounding) (entry : MethodStats) : Prop where
  sampled : 0 < entry.samples
  latency : 0 ≤ entry.ewmaLatencyMs
  success : 0 ≤ entry.ewmaSuccess
  stored : arith.Stored entry.ewmaSuccess

theorem averages_observe {arith : Rounding} {alpha : Rat} (alphaPos : 0 < alpha)
    (alphaLt : alpha < 1) {entry : MethodStats}
    (before : entry.samples = 0 ∨ Averages arith entry) {latencyMs : Rat}
    (latency : 0 ≤ latencyMs) (success : Bool) :
    Averages arith (entry.observe alpha latencyMs success arith) := by
  have value : 0 ≤ successValue success := by
    cases success <;> simp [successValue]
  unfold MethodStats.observe
  by_cases first : entry.samples = 0
  · rw [if_pos first]
    refine ⟨Nat.succ_pos _, latency, value, ?_⟩
    cases success with
    | true => exact arith.round_one
    | false => exact arith.round_zero
  · have averages := before.resolve_left first
    have rest : 0 ≤ arith.sub 1 alpha := Rounding.round_nonneg (by linarith)
    rw [if_neg first]
    refine ⟨Nat.succ_pos _, ?_, ?_, arith.stored_round _⟩
    · exact Rounding.round_nonneg (add_nonneg
        (Rounding.round_nonneg (mul_nonneg alphaPos.le latency))
        (Rounding.round_nonneg (mul_nonneg rest averages.latency)))
    · exact Rounding.round_nonneg (add_nonneg
        (Rounding.round_nonneg (mul_nonneg alphaPos.le value))
        (Rounding.round_nonneg (mul_nonneg rest averages.success)))

/-- The entry of a pair after any run of records from a new store. -/
theorem run_averages {arith : Rounding} {alpha : Rat} (alphaPos : 0 < alpha) (alphaLt : alpha < 1)
    (windowSecs : Nat) {calls : List RecordCall}
    (latencies : ∀ call ∈ calls, 0 ≤ call.latencyMs) {pair : String × String}
    {entry : MethodStats}
    (found : ((new alpha windowSecs).run calls arith).methods pair = some entry) :
    Averages arith entry := by
  induction calls using List.reverseRecOn generalizing entry with
  | nil => cases found
  | append_singleton calls call inductionHypothesis =>
      have earlier : ∀ other ∈ calls, 0 ≤ other.latencyMs :=
        fun other member => latencies other (List.mem_append_left _ member)
      rw [run_snoc] at found
      by_cases own : pair = call.pair
      · rw [own] at found
        have recorded := record_methods_self ((new alpha windowSecs).run calls arith) call.now
          call.upstream call.method call.latencyMs call.success arith
        rw [run_alpha] at recorded
        change _ = some entry at found
        rw [RecordCall.pair, recorded, Option.some_inj] at found
        rw [← found]
        refine averages_observe alphaPos alphaLt ?_ (latencies call (by simp)) _
        cases before : ((new alpha windowSecs).run calls arith).methods
            (call.upstream, call.method) with
        | none => exact .inl rfl
        | some average => exact .inr (inductionHypothesis earlier (own ▸ before))
      · rw [record_methods_other _ _ _ _ _ _ _ own] at found
        exact inductionHypothesis earlier found

/-! ### The sendTransaction log -/

/-- Only a sample of the upstream changes its log: it is pushed, and the log is pruned. -/
theorem record_sendTxLatency (store : StatsStore) (call : RecordCall) (arith : Rounding)
    (upstream : String) :
    (store.record call.now call.upstream call.method call.latencyMs call.success
        arith).sendTxLatency upstream =
      match call.sent upstream with
      | some sample => some (pushPruned store.window sample.1
          ((store.sendTxLatency upstream).getD []) sample.2)
      | none => store.sendTxLatency upstream := by
  unfold RecordCall.sent
  by_cases own : call.pair = (upstream, "sendTransaction") ∧ call.success = true
  · have named := own.1
    rw [RecordCall.pair, Prod.mk.injEq] at named
    rw [if_pos own]
    simp only [record, named.1, named.2, own.2, and_self, ↓reduceIte, Function.update_self]
  · rw [if_neg own]
    simp only [record]
    split
    · rename_i sending
      have other : upstream ≠ call.upstream := by
        rintro rfl
        exact own ⟨by rw [RecordCall.pair, sending.1], sending.2⟩
      rw [Function.update_of_ne other]
    · rfl

/-- An upstream has a log once it has a sample, and the log is never empty. -/
theorem run_sendTxLatency (alpha : Rat) (windowSecs : Nat) (calls : List RecordCall)
    (arith : Rounding) (upstream : String) :
    match ((new alpha windowSecs).run calls arith).sendTxLatency upstream with
    | none => ¬ ∃ call ∈ calls, (call.sent upstream).isSome = true
    | some log => log ≠ [] ∧ ∃ call ∈ calls, (call.sent upstream).isSome = true := by
  induction calls using List.reverseRecOn with
  | nil => simp [run_nil, new]
  | append_singleton calls call inductionHypothesis =>
      rw [run_snoc, record_sendTxLatency]
      cases found : call.sent upstream with
      | some sample => exact ⟨pushPruned_ne_nil _ _ _ _, call, by simp, by simp [found]⟩
      | none =>
          simpa only [List.mem_append, List.mem_singleton, or_and_right, exists_or,
            exists_eq_left, found, Option.isSome_none, Bool.false_eq_true, or_false]
            using inductionHypothesis

/-- An upstream has a p50 once a sendTransaction through it has succeeded. -/
theorem run_sendTxP50_isSome (alpha : Rat) (windowSecs : Nat) (calls : List RecordCall)
    (arith : Rounding) (upstream : String) :
    (((new alpha windowSecs).run calls arith).sendTxP50 upstream).isSome = true ↔
      ∃ call ∈ calls, call.pair = (upstream, "sendTransaction") ∧ call.success = true := by
  have logged := run_sendTxLatency alpha windowSecs calls arith upstream
  simp only [RecordCall.sent_isSome] at logged
  unfold sendTxP50
  cases found : ((new alpha windowSecs).run calls arith).sendTxLatency upstream with
  | none =>
      rw [found] at logged
      simpa using logged
  | some log =>
      rw [found] at logged
      have positive : 0 < log.length := List.length_pos_iff.mpr logged.1
      simp only [isSome_getElem?, List.length_mergeSort, List.length_map]
      exact ⟨fun _ => logged.2, fun _ => by simpa using Nat.div_lt_self positive (by omega)⟩

end StatsStore

end Disburse
