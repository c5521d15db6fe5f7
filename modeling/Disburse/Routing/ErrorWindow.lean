import Disburse.Routing.Stats

/-!
Owns the error rate against the rolling window: after any records in the order
of time the error log of the upstream that was recorded last holds its records
inside the window, whatever their methods, and the rate is that of those records.
-/

namespace Disburse

open Disburse.Library

/-- What a record enters into the error log. -/
def RecordCall.failure (call : RecordCall) : Instant × Bool := (call.now, !call.success)

/-- The calls made through an upstream, in order, whatever their methods. -/
def callsThrough (upstream : String) (calls : List RecordCall) : List RecordCall :=
  calls.filter fun call => call.upstream == upstream

/-- The calls through an upstream that are at most as old as the window. -/
def callsInWindow (window : Duration) (now : Instant) (upstream : String)
    (calls : List RecordCall) : List RecordCall :=
  calls.filter fun call => call.upstream == upstream && decide (now - call.now ≤ window)

theorem callsThrough_snoc (upstream : String) (calls : List RecordCall) (call : RecordCall) :
    callsThrough upstream (calls ++ [call]) =
      if call.upstream = upstream then callsThrough upstream calls ++ [call]
      else callsThrough upstream calls := by
  unfold callsThrough
  rw [List.filter_append]
  by_cases same : call.upstream = upstream <;> simp [same]

namespace StatsStore

/-- The error log of an upstream is pushed by the calls through it and by no others. -/
theorem run_errorLog (alpha : Rat) (windowSecs : Nat) (calls : List RecordCall)
    (upstream : String) :
    ((new alpha windowSecs).run calls).errorLog upstream =
      pushAll (Duration.fromSecs windowSecs)
        ((callsThrough upstream calls).map RecordCall.failure) := by
  induction calls using List.reverseRecOn with
  | nil => rfl
  | append_singleton calls call inductionHypothesis =>
      rw [run_snoc, record_errorLog, run_window, callsThrough_snoc]
      by_cases same : call.upstream = upstream
      · subst same
        rw [if_pos rfl, if_pos rfl, List.map_append, List.map_singleton, pushAll_snoc,
          inductionHypothesis]
        rfl
      · rw [if_neg (Ne.symm same), if_neg same, inductionHypothesis]

end StatsStore

/-- The young part of the entries of the calls through an upstream. -/
theorem recent_failures (window : Duration) (now : Instant) (upstream : String)
    (calls : List RecordCall) :
    recent window now ((callsThrough upstream calls).map RecordCall.failure) =
      (callsInWindow window now upstream calls).map RecordCall.failure := by
  unfold recent callsThrough callsInWindow
  rw [List.filter_map, List.filter_filter]
  congr 1
  apply List.filter_congr
  intro call _
  exact Bool.and_comm _ _

/-- The failures of a log are those of the calls it was entered for. -/
theorem logRate_failures {calls : List RecordCall} (nonempty : calls ≠ []) :
    StatsStore.logRate (calls.map RecordCall.failure) =
      (calls.countP fun call => !call.success) / calls.length := by
  have filled : (calls.map RecordCall.failure).isEmpty = false := by
    rw [List.isEmpty_eq_false_iff]
    simpa using nonempty
  unfold StatsStore.logRate
  rw [filled, if_neg Bool.false_ne_true, List.countP_map, List.length_map]
  rfl

/-- A share of the calls lies between none and all. -/
theorem failureShare_bounds (calls : List RecordCall) :
    0 ≤ ((calls.countP fun call => !call.success) / calls.length : Rat) ∧
      ((calls.countP fun call => !call.success) / calls.length : Rat) ≤ 1 := by
  have counted : ((calls.countP fun call => !call.success : Nat) : Rat) ≤ calls.length := by
    exact_mod_cast List.countP_le_length
  constructor
  · positivity
  · exact div_le_one_of_le₀ counted (by positivity)

/-- Right after a record in the order of time the error log of its upstream holds
the calls through it inside the window, in order, and the rate is theirs. -/
theorem run_errorRate_exact (alpha : Rat) (windowSecs : Nat) {calls : List RecordCall}
    {call : RecordCall}
    (ordered : (calls ++ [call]).Pairwise fun earlier later => earlier.now ≤ later.now) :
    let store := (StatsStore.new alpha windowSecs).run (calls ++ [call])
    let inWindow := callsInWindow (.fromSecs windowSecs) call.now call.upstream (calls ++ [call])
    store.errors call.upstream = some (inWindow.map RecordCall.failure) ∧
      store.errorRate call.upstream =
        (inWindow.countP fun other => !other.success) / inWindow.length ∧
      0 ≤ store.errorRate call.upstream ∧ store.errorRate call.upstream ≤ 1 := by
  intro store inWindow
  have own : callsThrough call.upstream (calls ++ [call]) =
      callsThrough call.upstream calls ++ [call] := by
    rw [callsThrough_snoc, if_pos rfl]
  have log : store.errorLog call.upstream = inWindow.map RecordCall.failure := by
    have times : ((callsThrough call.upstream calls ++ [call]).map RecordCall.failure).Pairwise
        fun earlier later => earlier.1 ≤ later.1 := by
      rw [← own, List.pairwise_map]
      exact ordered.filter _
    rw [List.map_append, List.map_singleton] at times
    calc store.errorLog call.upstream
        = pushAll (Duration.fromSecs windowSecs)
            ((callsThrough call.upstream calls).map RecordCall.failure ++ [call.failure]) := by
          rw [StatsStore.run_errorLog, own, List.map_append, List.map_singleton]
      _ = recent (Duration.fromSecs windowSecs) call.now
            ((callsThrough call.upstream (calls ++ [call])).map RecordCall.failure) := by
          rw [pushAll_eq_recent times, own, List.map_append, List.map_singleton]
          rfl
      _ = inWindow.map RecordCall.failure := recent_failures _ _ _ _
  have present : call ∈ inWindow := by
    simp [inWindow, callsInWindow]
  have nonempty : inWindow ≠ [] := List.ne_nil_of_mem present
  have rate : store.errorRate call.upstream =
      (inWindow.countP fun other => !other.success) / inWindow.length := by
    rw [StatsStore.errorRate_eq, log, logRate_failures nonempty]
  refine ⟨?_, rate, ?_⟩
  · -- a log without an entry in the map reads as empty
    have filled : inWindow.map RecordCall.failure ≠ [] := by simpa using nonempty
    rw [StatsStore.errorLog] at log
    cases found : store.errors call.upstream with
    | none =>
        rw [found] at log
        exact absurd log.symm filled
    | some entries =>
        rw [found, Option.getD_some] at log
        rw [log]
  · rw [rate]
    exact failureShare_bounds inWindow

/-- A failure leaves the window of a minute, another stays in the rate. -/
theorem run_errorRate_exact_minute :
    let old : RecordCall := ⟨0, "a", "getSlot", 5, false⟩
    let young : RecordCall := ⟨Duration.fromSecs 10, "a", "getBalance", 5, false⟩
    let other : RecordCall := ⟨Duration.fromSecs 20, "b", "getSlot", 5, false⟩
    let last : RecordCall := ⟨Duration.fromSecs 61, "a", "getSlot", 5, true⟩
    ((StatsStore.new (1 / 5) 60).run [old, young, other, last]).errorRate "a" = 1 / 2 := by
  intro old young other last
  have ordered : ([old, young, other] ++ [last]).Pairwise fun earlier later =>
      earlier.now ≤ later.now := by decide +kernel
  have exact := (run_errorRate_exact (1 / 5) 60 ordered).2.1
  refine exact.trans ?_
  have kept : callsInWindow (.fromSecs 60) last.now last.upstream
      ([old, young, other] ++ [last]) = [young, last] := by decide +kernel
  rw [kept]
  norm_num [young, last]

end Disburse
