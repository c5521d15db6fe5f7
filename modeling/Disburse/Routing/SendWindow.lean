import Disburse.Library.Rank
import Disburse.Routing.Stats

/-!
Owns the p50 of sendTransaction against the rolling window: what the log of an
upstream holds after any records, and when a p50 that is read later is that of
the samples still inside the window.

The log is pruned when a sendTransaction through the upstream succeeds, at no
other time.
-/

namespace Disburse

open Disburse.Library

/-! ### Samples -/

/-- All samples of an upstream, oldest first. -/
def sentHistory (upstream : String) (calls : List RecordCall) : TimedLog Rat :=
  calls.filterMap fun call => call.sent upstream

/-- The samples that were inside the window when the last of them was recorded. -/
def retained (window : Duration) (history : TimedLog Rat) : TimedLog Rat :=
  match history.getLast? with
  | none => []
  | some last => recent window last.1 history

/-- The latency of rank ⌊n/2⌋ among the samples. -/
def middleLatency (samples : TimedLog Rat) : Option Rat :=
  ranked (samples.length / 2) (samples.map Prod.snd)

/-- The latency is of rank ⌊n/2⌋ among the samples: at most as many are below it,
more are not above it. -/
def Splits (samples : TimedLog Rat) (latency : Rat) : Prop :=
  HasRank (samples.length / 2) (samples.map Prod.snd) latency

theorem middleLatency_eq_some {samples : TimedLog Rat} {latency : Rat} :
    middleLatency samples = some latency ↔ Splits samples latency :=
  ranked_eq_some_iff

theorem middleLatency_isSome {samples : TimedLog Rat} (nonempty : samples ≠ []) :
    ∃ latency, middleLatency samples = some latency := by
  have positive := List.length_pos_iff.mpr nonempty
  have inside : samples.length / 2 < ((samples.map Prod.snd).mergeSort (· ≤ ·)).length := by
    rw [List.length_mergeSort, List.length_map]
    omega
  exact ⟨_, List.getElem?_eq_getElem inside⟩

/-! ### The log of an upstream -/

/-- The entry of an upstream in the latency map, by its samples so far. -/
inductive SendLog (window : Duration) : TimedLog Rat → Option (TimedLog Rat) → Prop where
  | missing : SendLog window [] none
  | pruned (earlier : TimedLog Rat) (last : Instant × Rat) {log : TimedLog Rat}
      (trails : Trails window last.1 (earlier ++ [last]) log)
      (kept : log = recent window last.1 (earlier ++ [last])) :
      SendLog window (earlier ++ [last]) (some log)

/-- A sample that is not older than the others is pushed. -/
theorem SendLog.push {window : Duration} {history : TimedLog Rat} {log : Option (TimedLog Rat)}
    (sendLog : SendLog window history log) {now : Instant}
    (past : ∀ sample ∈ history, sample.1 ≤ now) (latencyMs : Rat) :
    SendLog window (history ++ [(now, latencyMs)])
      (some (pushPruned window now (log.getD []) latencyMs)) := by
  cases sendLog with
  | missing =>
      have trails : Trails window now ([] : TimedLog Rat) [] := .nil
      exact .pruned [] (now, latencyMs) (trails.push le_rfl latencyMs)
        (trails.pushPruned_eq_recent le_rfl latencyMs)
  | pruned earlier last trails kept =>
      have passed : last.1 ≤ now := past last (by simp)
      exact .pruned _ (now, latencyMs) (trails.push passed latencyMs)
        (trails.pushPruned_eq_recent passed latencyMs)

theorem SendLog.retained {window : Duration} {history : TimedLog Rat}
    {log : Option (TimedLog Rat)} (sendLog : SendLog window history log) :
    log.getD [] = Disburse.retained window history := by
  cases sendLog with
  | missing => rfl
  | pruned earlier last trails kept =>
      rw [Disburse.retained, List.getLast?_concat]
      exact kept

theorem sentHistory_snoc (upstream : String) (calls : List RecordCall) (call : RecordCall) :
    sentHistory upstream (calls ++ [call]) =
      sentHistory upstream calls ++ (call.sent upstream).toList := by
  unfold sentHistory
  rw [List.filterMap_append]
  cases found : call.sent upstream <;> simp [found]

/-- A sample carries the time of its record. -/
theorem sentHistory_times {upstream : String} {calls : List RecordCall} {sample : Instant × Rat}
    (member : sample ∈ sentHistory upstream calls) : ∃ call ∈ calls, call.now = sample.1 := by
  obtain ⟨call, inside, found⟩ := List.mem_filterMap.mp member
  rw [RecordCall.sent, Option.ite_none_right_eq_some, Option.some_inj] at found
  exact ⟨call, inside, by rw [← found.2]⟩

/-- After records in the order of time the log is pruned to the last sample. -/
theorem run_sendLog (alpha : Rat) (windowSecs : Nat) (upstream : String) {calls : List RecordCall}
    (ordered : calls.Pairwise fun earlier later => earlier.now ≤ later.now) :
    SendLog (.fromSecs windowSecs) (sentHistory upstream calls)
      (((StatsStore.new alpha windowSecs).run calls).sendTxLatency upstream) := by
  induction calls using List.reverseRecOn with
  | nil => exact .missing
  | append_singleton calls call inductionHypothesis =>
      obtain ⟨before, -, last⟩ := List.pairwise_append.mp ordered
      have sendLog := inductionHypothesis before
      have window := StatsStore.run_window (StatsStore.new alpha windowSecs) calls .exact
      rw [StatsStore.run_snoc, StatsStore.record_sendTxLatency, sentHistory_snoc, window]
      cases found : call.sent upstream with
      | none => simpa using sendLog
      | some sample =>
          have timed : sample.1 = call.now := by
            rw [RecordCall.sent, Option.ite_none_right_eq_some, Option.some_inj] at found
            rw [← found.2]
          refine sendLog.push (fun other member => ?_) sample.2
          obtain ⟨earlier, inside, same⟩ := sentHistory_times member
          rw [timed, ← same]
          exact last earlier inside call (by simp)

/-- The p50 after any records is that of the samples inside the window of the last one. -/
theorem run_sendTxP50 (alpha : Rat) (windowSecs : Nat) (upstream : String)
    {calls : List RecordCall}
    (ordered : calls.Pairwise fun earlier later => earlier.now ≤ later.now) :
    ((StatsStore.new alpha windowSecs).run calls).sendTxP50 upstream =
      middleLatency (retained (.fromSecs windowSecs) (sentHistory upstream calls)) := by
  have log := (run_sendLog alpha windowSecs upstream ordered).retained
  rw [← log, StatsStore.sendTxP50]
  cases ((StatsStore.new alpha windowSecs).run calls).sendTxLatency upstream with
  | none => simp [middleLatency, ranked]
  | some log => simp [middleLatency, ranked]

theorem retained_subset {window : Duration} {history : TimedLog Rat} {sample : Instant × Rat}
    (member : sample ∈ retained window history) : sample ∈ history := by
  unfold retained at member
  cases found : history.getLast? with
  | none => simp [found] at member
  | some last =>
      rw [found] at member
      exact List.mem_of_mem_filter member

/-! ### Reading later -/

/-- What is inside the window at a later time is part of what the log retains. -/
theorem recent_eq_filter_retained (window : Duration) {now : Instant} {history : TimedLog Rat}
    (past : ∀ sample ∈ history, sample.1 ≤ now) :
    recent window now history =
      (retained window history).filter fun sample => now - sample.1 ≤ window := by
  unfold retained
  cases found : history.getLast? with
  | none => simp [List.getLast?_eq_none_iff.mp found, recent]
  | some last =>
      have passed : last.1 ≤ now := past last (List.mem_of_getLast? found)
      unfold recent
      rw [List.filter_filter]
      refine List.filter_congr fun sample _ => ?_
      have older : last.1 - sample.1 ≤ now - sample.1 := Nat.sub_le_sub_right passed _
      rw [Bool.eq_iff_iff, Bool.and_eq_true, decide_eq_true_iff, decide_eq_true_iff]
      constructor
      · intro young
        exact ⟨young, older.trans young⟩
      · intro both
        exact both.1

/-- The p50 read at a time is that of the samples inside the window. -/
def ReadsWindow (alpha : Rat) (windowSecs : Nat) (upstream : String) (now : Instant)
    (calls : List RecordCall) : Prop :=
  ((StatsStore.new alpha windowSecs).run calls).sendTxP50 upstream =
    middleLatency (recent (Duration.fromSecs windowSecs) now (sentHistory upstream calls))

/-- The samples of the log that have left the window at a later time. -/
def expired (window : Duration) (now : Instant) (history : TimedLog Rat) : TimedLog Rat :=
  (retained window history).filter fun sample => window < now - sample.1

/-- The samples that left the window do not outweigh the young ones around a latency:
of all together at most half are below it and less than half are above it. -/
structure Balanced (young old : TimedLog Rat) (latency : Rat) : Prop where
  below : 2 * ((young.map Prod.snd).countP (· < latency) +
    (old.map Prod.snd).countP (· < latency)) ≤ young.length + old.length
  above : 2 * ((young.map Prod.snd).countP (latency < ·) +
    (old.map Prod.snd).countP (latency < ·)) < young.length + old.length

theorem retained_perm (window : Duration) {now : Instant} {history : TimedLog Rat}
    (past : ∀ sample ∈ history, sample.1 ≤ now) :
    (retained window history).Perm (recent window now history ++ expired window now history) := by
  rw [recent_eq_filter_retained window past]
  have parts := List.filter_append_perm (fun sample => decide (now - sample.1 ≤ window))
    (retained window history)
  have old : expired window now history =
      (retained window history).filter fun sample => !decide (now - sample.1 ≤ window) := by
    refine List.filter_congr fun sample _ => ?_
    rw [Bool.eq_iff_iff, Bool.not_eq_true', decide_eq_true_iff, decide_eq_false_iff_not, not_le]
  rw [old]
  exact parts.symm

theorem splits_retained_iff (window : Duration) {now : Instant} {history : TimedLog Rat}
    (past : ∀ sample ∈ history, sample.1 ≤ now) (latency : Rat) :
    Splits (retained window history) latency ↔
      Balanced (recent window now history) (expired window now history) latency := by
  have parts := retained_perm window past
  unfold Splits
  rw [hasRank_perm (parts.map Prod.snd), List.map_append, hasRank_append_iff, parts.length_eq,
    List.length_append, List.length_map, List.length_map]
  constructor
  · rintro ⟨below, above⟩
    exact ⟨by omega, by omega⟩
  · intro balanced
    have below := balanced.below
    have above := balanced.above
    exact ⟨by omega, by omega⟩

theorem middleLatency_eq_none {samples : TimedLog Rat} :
    middleLatency samples = none ↔ samples = [] := by
  constructor
  · intro missing
    by_contra nonempty
    obtain ⟨latency, middle⟩ := middleLatency_isSome nonempty
    rw [missing] at middle
    cases middle
  · rintro rfl
    simp [middleLatency, ranked]

theorem sentHistory_past {upstream : String} {calls : List RecordCall} {now : Instant}
    (past : ∀ call ∈ calls, call.now ≤ now) :
    ∀ sample ∈ sentHistory upstream calls, sample.1 ≤ now := by
  intro sample member
  obtain ⟨call, inside, same⟩ := sentHistory_times member
  exact same ▸ past call inside

/-- The p50 of given latencies is that of the window exactly when the samples that
have left it balance around the middle of the others; where no other is left there
must be none of them. -/
theorem readsWindow_iff (alpha : Rat) (windowSecs : Nat) (upstream : String)
    {calls : List RecordCall}
    (ordered : calls.Pairwise fun earlier later => earlier.now ≤ later.now)
    {now : Instant} (past : ∀ call ∈ calls, call.now ≤ now) :
    ReadsWindow alpha windowSecs upstream now calls ↔
      match middleLatency (recent (Duration.fromSecs windowSecs) now
        (sentHistory upstream calls)) with
      | none => expired (.fromSecs windowSecs) now (sentHistory upstream calls) = []
      | some latency =>
          Balanced (recent (Duration.fromSecs windowSecs) now (sentHistory upstream calls))
            (expired (.fromSecs windowSecs) now (sentHistory upstream calls)) latency := by
  have pastSamples : ∀ sample ∈ sentHistory upstream calls, sample.1 ≤ now :=
    sentHistory_past past
  have parts := retained_perm (.fromSecs windowSecs) pastSamples
  rw [ReadsWindow, run_sendTxP50 alpha windowSecs upstream ordered]
  cases young : middleLatency (recent (Duration.fromSecs windowSecs) now
    (sentHistory upstream calls)) with
  | none =>
      rw [middleLatency_eq_none] at young
      rw [young, List.nil_append] at parts
      rw [middleLatency_eq_none]
      constructor
      · intro empty
        exact (empty ▸ parts.symm).eq_nil
      · intro empty
        exact (empty ▸ parts).eq_nil
  | some latency =>
      exact middleLatency_eq_some.trans (splits_retained_iff _ pastSamples latency)

/-- While no sample has left the window the log is what is inside it. -/
theorem readsWindow_of_none (alpha : Rat) (windowSecs : Nat) (upstream : String)
    {calls : List RecordCall}
    (ordered : calls.Pairwise fun earlier later => earlier.now ≤ later.now)
    {now : Instant} (past : ∀ call ∈ calls, call.now ≤ now)
    (none : expired (.fromSecs windowSecs) now (sentHistory upstream calls) = []) :
    ReadsWindow alpha windowSecs upstream now calls := by
  have pastSamples : ∀ sample ∈ sentHistory upstream calls, sample.1 ≤ now :=
    sentHistory_past past
  have young : recent (Duration.fromSecs windowSecs) now (sentHistory upstream calls) =
      retained (.fromSecs windowSecs) (sentHistory upstream calls) := by
    rw [recent_eq_filter_retained _ pastSamples, List.filter_eq_self]
    intro sample member
    have fresh := List.filter_eq_nil_iff.mp none sample member
    rw [decide_eq_true_iff, not_lt] at fresh
    exact decide_eq_true fresh
  rw [ReadsWindow, run_sendTxP50 alpha windowSecs upstream ordered, young]

/-! ### Other latencies of the same calls -/

/-- What a call records besides its latency. -/
def RecordCall.event (call : RecordCall) : Instant × String × String × Bool :=
  (call.now, call.upstream, call.method, call.success)

/-- The times of the samples of an upstream. -/
def sentTimes (upstream : String) (calls : List RecordCall) : List Instant :=
  (sentHistory upstream calls).map Prod.fst

/-- No sample that was inside the window at the last one has left it since. -/
def NoneLeft (window : Duration) (now : Instant) (times : List Instant) : Prop :=
  ∀ last, times.getLast? = some last →
    ∀ time ∈ times, last - time ≤ window → now - time ≤ window

theorem sentTimes_eq (upstream : String) (calls : List RecordCall) :
    sentTimes upstream calls = (calls.map RecordCall.event).filterMap fun event =>
      if (event.2.1, event.2.2.1) = (upstream, "sendTransaction") ∧ event.2.2.2 = true then
        some event.1
      else none := by
  rw [sentTimes, sentHistory, List.map_filterMap, List.filterMap_map]
  refine List.filterMap_congr fun call _ => ?_
  unfold RecordCall.sent
  by_cases own : call.pair = (upstream, "sendTransaction") ∧ call.success = true
  · rw [if_pos own]
    exact (if_pos own).symm
  · rw [if_neg own]
    exact (if_neg own).symm

section Events

variable {calls other : List RecordCall}

theorem ordered_of_events (same : other.map RecordCall.event = calls.map RecordCall.event)
    (ordered : calls.Pairwise fun earlier later => earlier.now ≤ later.now) :
    other.Pairwise fun earlier later => earlier.now ≤ later.now := by
  have events : (calls.map RecordCall.event).Pairwise fun earlier later => earlier.1 ≤ later.1 :=
    List.pairwise_map.mpr ordered
  rw [← same, List.pairwise_map] at events
  exact events

theorem past_of_events (same : other.map RecordCall.event = calls.map RecordCall.event)
    {now : Instant} (past : ∀ call ∈ calls, call.now ≤ now) : ∀ call ∈ other, call.now ≤ now := by
  intro call member
  have event := List.mem_map_of_mem (f := RecordCall.event) member
  rw [same] at event
  obtain ⟨first, inside, equal⟩ := List.mem_map.mp event
  have time : first.now = call.now := congrArg Prod.fst equal
  exact time ▸ past first inside

end Events

/-- What has left the window depends on the times alone. -/
theorem expired_eq_nil_iff (window : Duration) (now : Instant) (history : TimedLog Rat) :
    expired window now history = [] ↔ NoneLeft window now (history.map Prod.fst) := by
  unfold expired NoneLeft retained
  rw [List.getLast?_map, List.filter_eq_nil_iff]
  cases history.getLast? with
  | none => simp
  | some last => simp [recent]

theorem recent_length (window : Duration) (now : Instant) (history : TimedLog Rat) :
    (recent window now history).length =
      (history.map Prod.fst).countP fun time => decide (now - time ≤ window) := by
  rw [recent, List.countP_map, List.countP_eq_length_filter]
  rfl

/-- The calls with latencies by their place. -/
def relabel (latency : Nat → Rat) (calls : List RecordCall) : List RecordCall :=
  calls.mapIdx fun place call => { call with latencyMs := latency place }

section Relabel

variable {latency : Nat → Rat} {calls : List RecordCall}

theorem relabel_event : (relabel latency calls).map RecordCall.event =
    calls.map RecordCall.event := by
  refine List.ext_getElem (by simp [relabel]) fun place first second => ?_
  simp [relabel, RecordCall.event]

theorem relabel_latency (nonnegative : ∀ place, 0 ≤ latency place) :
    ∀ call ∈ relabel latency calls, 0 ≤ call.latencyMs := by
  intro call member
  obtain ⟨place, inside, rfl⟩ := List.mem_mapIdx.mp member
  exact nonnegative place

/-- Samples of relabelled calls stand in the order of time, and their latencies in
that of the labels. -/
theorem relabel_sorted (latency : Nat → Rat) (order : Rat → Rat → Prop)
    (labels : ∀ first second : Nat, first < second → order (latency first) (latency second))
    (ordered : calls.Pairwise fun earlier later => earlier.now ≤ later.now) (upstream : String) :
    (sentHistory upstream (relabel latency calls)).Pairwise fun earlier later =>
      earlier.1 ≤ later.1 ∧ order earlier.2 later.2 := by
  have whole : (relabel latency calls).Pairwise fun earlier later =>
      earlier.now ≤ later.now ∧ order earlier.latencyMs later.latencyMs := by
    rw [List.pairwise_iff_getElem] at ordered ⊢
    intro first second firstInside secondInside before
    simp only [relabel, List.getElem_mapIdx, List.length_mapIdx] at firstInside secondInside ⊢
    exact ⟨ordered first second firstInside secondInside before, labels first second before⟩
  refine whole.filterMap _ fun earlier later both first firstSent second secondSent => ?_
  rw [RecordCall.sent, Option.ite_none_right_eq_some, Option.some_inj] at firstSent secondSent
  rw [← firstSent.2, ← secondSent.2]
  exact both

end Relabel

section Extremes

variable {young old : TimedLog Rat} {latency : Rat}

/-- Of different latencies the lower half may be joined by one more at most. -/
theorem Balanced.few_lower (balanced : Balanced young old latency)
    (middle : middleLatency young = some latency) (different : (young.map Prod.snd).Nodup)
    (lower : ∀ former ∈ old, ∀ sample ∈ young, former.2 < sample.2) :
    old.length ≤ young.length % 2 := by
  have splits := middleLatency_eq_some.mp middle
  have half := splits.countP_lt different
  obtain ⟨sample, inside, same⟩ := List.mem_map.mp splits.mem
  have all : (old.map Prod.snd).countP (· < latency) = old.length := by
    rw [List.countP_map, List.countP_eq_length]
    intro former member
    simpa [same] using lower former member sample inside
  have below := balanced.below
  omega

/-- Of different latencies the upper half may be joined by one more at most, and
only where it is the smaller. -/
theorem Balanced.few_higher (balanced : Balanced young old latency)
    (middle : middleLatency young = some latency) (different : (young.map Prod.snd).Nodup)
    (higher : ∀ former ∈ old, ∀ sample ∈ young, sample.2 < former.2) :
    old.length + young.length % 2 ≤ 1 := by
  have splits := middleLatency_eq_some.mp middle
  have half := splits.countP_lt different
  have once := List.nodup_iff_count_le_one.mp different latency
  have upTo := countP_le_eq (young.map Prod.snd) latency
  have parts := countP_le_add_countP_gt (young.map Prod.snd) latency
  rw [List.length_map] at parts
  obtain ⟨sample, inside, same⟩ := List.mem_map.mp splits.mem
  have all : (old.map Prod.snd).countP (latency < ·) = old.length := by
    rw [List.countP_map, List.countP_eq_length]
    intro former member
    simpa [same] using higher former member sample inside
  have above := balanced.above
  omega

end Extremes

theorem recent_nodup {window : Duration} {now : Instant} {history : TimedLog Rat}
    {order : Rat → Rat → Prop} (irreflexive : ∀ first second, order first second → first ≠ second)
    (sorted : history.Pairwise fun earlier later => earlier.1 ≤ later.1 ∧
      order earlier.2 later.2) :
    ((recent window now history).map Prod.snd).Nodup := by
  refine List.pairwise_map.mpr ((sorted.sublist List.filter_sublist).imp fun place => ?_)
  exact irreflexive _ _ place.2

/-- Samples that have left the window stand before those inside it. -/
theorem expired_before {window : Duration} {now : Instant} {history : TimedLog Rat}
    {order : Rat → Rat → Prop}
    (sorted : history.Pairwise fun earlier later => earlier.1 ≤ later.1 ∧
      order earlier.2 later.2)
    {former sample : Instant × Rat} (old : former ∈ expired window now history)
    (young : sample ∈ recent window now history) : order former.2 sample.2 := by
  have passed := (List.mem_filter.mp old).2
  obtain ⟨inside, fresh⟩ := List.mem_filter.mp young
  rw [decide_eq_true_iff] at passed fresh
  have before : former.1 < sample.1 := lt_of_not_ge fun after =>
    absurd passed (not_lt.mpr ((Nat.sub_le_sub_left after now).trans fresh))
  have both : history.Pairwise fun first second =>
      (first.1 < second.1 → order first.2 second.2) ∧
        (second.1 < first.1 → order second.2 first.2) :=
    sorted.imp fun place => ⟨fun _ => place.2, fun after => absurd after (not_lt.mpr place.1)⟩
  have symmetric : Std.Symm fun first second : Instant × Rat =>
      (first.1 < second.1 → order first.2 second.2) ∧
        (second.1 < first.1 → order second.2 first.2) := ⟨fun _ _ pair => ⟨pair.2, pair.1⟩⟩
  have other : former ≠ sample := by
    rintro rfl
    exact lt_irrefl _ before
  have member := retained_subset (List.mem_of_mem_filter old)
  exact (both.forall member inside other).1 before

/-- Where a sample has left the window, latencies that grow or fall with time move
the middle. -/
theorem exists_not_readsWindow (alpha : Rat) (windowSecs : Nat) (upstream : String)
    {calls : List RecordCall}
    (ordered : calls.Pairwise fun earlier later => earlier.now ≤ later.now)
    {now : Instant} (past : ∀ call ∈ calls, call.now ≤ now)
    (left : ¬ NoneLeft (.fromSecs windowSecs) now (sentTimes upstream calls)) :
    ∃ other : List RecordCall, other.map RecordCall.event = calls.map RecordCall.event ∧
      (∀ call ∈ other, 0 ≤ call.latencyMs) ∧
      ¬ ReadsWindow alpha windowSecs upstream now other := by
  by_contra always
  push Not at always
  let samples (label : Nat → Rat) := sentHistory upstream (relabel label calls)
  have old : ∀ label, expired (.fromSecs windowSecs) now (samples label) ≠ [] := by
    intro label
    rw [Ne, expired_eq_nil_iff, ← sentTimes, sentTimes_eq, relabel_event, ← sentTimes_eq]
    exact left
  have balanced : ∀ label, (∀ place, 0 ≤ label place) → ∃ latency,
      middleLatency (recent (Duration.fromSecs windowSecs) now (samples label)) = some latency ∧
      Balanced (recent (Duration.fromSecs windowSecs) now (samples label))
        (expired (.fromSecs windowSecs) now (samples label)) latency := by
    intro label nonnegative
    have reads := always _ relabel_event (relabel_latency nonnegative)
    rw [readsWindow_iff alpha windowSecs upstream (ordered_of_events relabel_event ordered)
      (past_of_events relabel_event past)] at reads
    cases middle : middleLatency (recent (Duration.fromSecs windowSecs) now (samples label)) with
    | none =>
        rw [middle] at reads
        exact absurd reads (old label)
    | some latency =>
        rw [middle] at reads
        exact ⟨latency, rfl, reads⟩
  have young : ∀ first second, (recent (Duration.fromSecs windowSecs) now (samples first)).length =
      (recent (Duration.fromSecs windowSecs) now (samples second)).length := by
    intro first second
    rw [recent_length, recent_length, ← sentTimes, ← sentTimes, sentTimes_eq, sentTimes_eq,
      relabel_event, relabel_event]
  let rising : Nat → Rat := fun place => place
  let falling : Nat → Rat := fun place => 1 / (place + 1)
  have rises := relabel_sorted rising (· < ·) (fun first second before => by
    simpa [rising] using before) ordered upstream
  have falls := relabel_sorted falling (· > ·) (fun first second before =>
    one_div_lt_one_div_of_lt (by positivity) (by simpa using before)) ordered upstream
  obtain ⟨low, lowMiddle, lowBalanced⟩ := balanced rising fun place => by positivity
  obtain ⟨high, highMiddle, highBalanced⟩ := balanced falling fun place => by positivity
  have fewLower := lowBalanced.few_lower lowMiddle
    (recent_nodup (fun _ _ => ne_of_lt) rises) fun former gone sample kept =>
      expired_before rises gone kept
  have fewHigher := highBalanced.few_higher highMiddle
    (recent_nodup (fun _ _ => ne_of_gt) falls) fun former gone sample kept =>
      expired_before falls gone kept
  have lowOld := List.length_pos_iff.mpr (old rising)
  have highOld := List.length_pos_iff.mpr (old falling)
  have same := young rising falling
  omega

/-- The p50 is that of the samples inside the window whatever their latencies are
exactly when no sample of the log has left the window since the last one; with
given latencies the samples that have left may still balance around the middle. -/
theorem run_sendTxP50_recent_iff (alpha : Rat) (windowSecs : Nat) (upstream : String)
    {calls : List RecordCall}
    (ordered : calls.Pairwise fun earlier later => earlier.now ≤ later.now)
    {now : Instant} (past : ∀ call ∈ calls, call.now ≤ now) :
    ((∀ other : List RecordCall, other.map RecordCall.event = calls.map RecordCall.event →
        (∀ call ∈ other, 0 ≤ call.latencyMs) →
        ReadsWindow alpha windowSecs upstream now other) ↔
      NoneLeft (.fromSecs windowSecs) now (sentTimes upstream calls)) ∧
    (ReadsWindow alpha windowSecs upstream now calls ↔
      match middleLatency (recent (Duration.fromSecs windowSecs) now
        (sentHistory upstream calls)) with
      | none => NoneLeft (.fromSecs windowSecs) now (sentTimes upstream calls)
      | some latency =>
          Balanced (recent (Duration.fromSecs windowSecs) now (sentHistory upstream calls))
            (expired (.fromSecs windowSecs) now (sentHistory upstream calls)) latency) := by
  refine ⟨⟨fun always => ?_, fun none other same _ => ?_⟩, ?_⟩
  · by_contra left
    obtain ⟨other, same, nonnegative, wrong⟩ :=
      exists_not_readsWindow alpha windowSecs upstream ordered past left
    exact wrong (always other same nonnegative)
  · rw [sentTimes_eq, ← same, ← sentTimes_eq, sentTimes, ← expired_eq_nil_iff] at none
    exact readsWindow_of_none alpha windowSecs upstream (ordered_of_events same ordered)
      (past_of_events same past) none
  · rw [readsWindow_iff alpha windowSecs upstream ordered past]
    cases middleLatency (recent (Duration.fromSecs windowSecs) now
      (sentHistory upstream calls)) with
    | none => exact expired_eq_nil_iff _ _ _
    | some latency => exact Iff.rfl

/-- Five seconds after a success its latency is the p50, whatever it is. -/
theorem run_sendTxP50_recent_iff_fresh :
    let calls : List RecordCall := [⟨0, "a", "sendTransaction", 5, true⟩]
    ∀ other : List RecordCall, other.map RecordCall.event = calls.map RecordCall.event →
      (∀ call ∈ other, 0 ≤ call.latencyMs) →
      ReadsWindow (1 / 5) 60 "a" (Duration.fromSecs 5) other :=
  ((run_sendTxP50_recent_iff (1 / 5) 60 "a" (List.pairwise_singleton _ _)
    (by decide +kernel)).1.mpr) fun last found time member _ => by
      have times : sentTimes "a" [⟨0, "a", "sendTransaction", 5, true⟩] = [0] := by
        decide +kernel
      rw [times, List.mem_singleton] at member
      rw [member]
      decide +kernel

/-- A minute and a second after its only success an upstream still has a p50. -/
theorem run_sendTxP50_silent :
    let calls : List RecordCall := [⟨0, "a", "sendTransaction", 5, true⟩]
    let young := recent (Duration.fromSecs 60) (Duration.fromSecs 61) (sentHistory "a" calls)
    let p50 := ((StatsStore.new (1 / 5) 60).run calls).sendTxP50 "a"
    young = [] ∧ p50 = some 5 ∧ p50 ≠ middleLatency young := by
  intro calls young p50
  have log : ((StatsStore.new (1 / 5) 60).run calls).sendTxLatency "a" = some [(0, 5)] := by
    decide +kernel
  have old : young = [] := by decide +kernel
  have measured : p50 = some 5 := by
    simp only [p50, StatsStore.sendTxP50, log]
    simp
  have missing : middleLatency young = none := by simp [old, middleLatency, ranked]
  refine ⟨old, measured, ?_⟩
  rw [measured, missing]
  exact Option.some_ne_none 5

end Disburse
