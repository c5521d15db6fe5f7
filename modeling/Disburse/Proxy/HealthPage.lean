import Disburse.Library.RunRules
import Disburse.Upstream.Tip

/-!
Owns the `/health` page: what the handler answers at one moment, and its reads
one after another while the monitors and the requests go on. The tip is loaded
once; each entry then takes four reads, of the slot, the error rate, the averages
and the circuit.

Members of objects stand in the order of their map.
-/

namespace Disburse

open Disburse.Library

/-! ### The handler -/

structure HealthEntry where
  name : String
  healthy : Bool
  slot : Nat
  slotLag : Nat
  ewmaLatencyMs : Rat
  errorRate : Rat
deriving DecidableEq, Repr

def HealthEntry.json (entry : HealthEntry) : Json :=
  .object [
    ("error_rate", .number (.float entry.errorRate)),
    ("ewma_latency_ms", .number (.float entry.ewmaLatencyMs)),
    ("healthy", .bool entry.healthy),
    ("name", .string entry.name),
    ("slot", .number (.posInt entry.slot)),
    ("slot_lag", .number (.posInt entry.slotLag))]

/-- `stats.get(name, "getSlot")`, with what stands for a missing one. -/
def UpstreamPool.slotLatencyMs (pool : UpstreamPool) (name : String) : Rat :=
  ((pool.stats.get name "getSlot").map MethodStats.ewmaLatencyMs).getD 0

def HealthEntry.read (pool : UpstreamPool) (now : Instant) (tip : Nat) (name : String) :
    HealthEntry :=
  { name := name
    healthy := !pool.isDropped name now
    slot := (pool.cells name).lastSlot
    slotLag := tip - (pool.cells name).lastSlot
    ewmaLatencyMs := pool.slotLatencyMs name
    errorRate := pool.stats.errorRate name }

/-- The entry of an upstream on the `/health` page. -/
def healthEntry (pool : UpstreamPool) (now : Instant) (tip : Nat) (name : String) : Json :=
  (HealthEntry.read pool now tip name).json

def healthPage (tip : Nat) (entries : List HealthEntry) : Json :=
  .object [
    ("tip", .number (.posInt tip)),
    ("upstreams", .array (entries.map HealthEntry.json))]

def handleHealth (cfg : Config) (state : AppState) (now : Instant) : Json :=
  let tip := state.pool.tipSlot
  healthPage tip (cfg.pool.map fun upstream => .read state.pool now tip upstream.name)

/-! ### The sections of a record -/

/-- The locks that `record` takes, in its order. -/
inductive RecordSection where
  | averages
  | outcomes
  | latencies
deriving DecidableEq, Repr

namespace StatsStore

/-- What `record` does under one of its locks. -/
def recordSection (store : StatsStore) (call : RecordCall) : RecordSection → StatsStore
  | .averages =>
      let entry := (store.methods call.pair).getD .default
      { store with
        methods := Function.update store.methods call.pair
          (some (entry.observe store.alpha call.latencyMs call.success)) }
  | .outcomes =>
      { store with
        errors := Function.update store.errors call.upstream
          (some (pushPruned store.window call.now (store.errorLog call.upstream)
            (!call.success))) }
  | .latencies =>
      let latencyLog := (store.sendTxLatency call.upstream).getD []
      { store with
        sendTxLatency :=
          if call.method = "sendTransaction" ∧ call.success = true then
            Function.update store.sendTxLatency call.upstream
              (some (pushPruned store.window call.now latencyLog call.latencyMs))
          else store.sendTxLatency }

/-- `record` is its sections one after another. -/
theorem recordSections_eq_record (store : StatsStore) (call : RecordCall) :
    [RecordSection.averages, .outcomes, .latencies].foldl
        (fun current part => current.recordSection call part) store =
      store.record call.now call.upstream call.method call.latencyMs call.success := rfl

end StatsStore

/-! ### The page among the monitors and the requests -/

/-- What the handler has read of the entry that it puts together. -/
inductive EntryReads where
  | nothing
  | slotRead (slot : Nat)
  | rateRead (slot : Nat) (errorRate : Rat)
  | averagesRead (slot : Nat) (errorRate ewmaLatencyMs : Rat)

/-- A `/health` page under way: the tip once it is loaded, the finished entries,
what is read of the next one, and the upstreams still to finish. -/
structure HealthScrape where
  tips : TipState
  tip : Option Nat
  entries : List HealthEntry
  reads : EntryReads
  left : List String

/-- `monitor` moves the slots and the tip, `record` is one section of a `record`
call of a monitor or a request, and `writeCircuit` is a trip, an admission or a
settlement, with any result. -/
inductive HealthEvent where
  | monitor (event : TipEvent)
  | record (call : RecordCall) (part : RecordSection)
  | writeCircuit (name : String) (circuit : CircuitState)
  | loadTip
  | read (now : Instant)

namespace HealthScrape

def pool (scrape : HealthScrape) : UpstreamPool := scrape.tips.pool

/-- The pool after a step of a monitor or a request. -/
def setPool (scrape : HealthScrape) (pool : UpstreamPool) : HealthScrape :=
  { scrape with tips := { scrape.tips with pool := pool } }

/-- The next read of the entry of `name`; the last one finishes the entry. Only it
reads the clock. -/
def readNext (scrape : HealthScrape) (now : Instant) (tip : Nat) (name : String)
    (rest : List String) : HealthScrape :=
  match scrape.reads with
  | .nothing => { scrape with reads := .slotRead (scrape.pool.cells name).lastSlot }
  | .slotRead slot => { scrape with reads := .rateRead slot (scrape.pool.stats.errorRate name) }
  | .rateRead slot errorRate =>
      { scrape with reads := .averagesRead slot errorRate (scrape.pool.slotLatencyMs name) }
  | .averagesRead slot errorRate ewmaLatencyMs =>
      let entry : HealthEntry :=
        { name := name
          healthy := !scrape.pool.isDropped name now
          slot := slot
          slotLag := tip - slot
          ewmaLatencyMs := ewmaLatencyMs
          errorRate := errorRate }
      { scrape with entries := scrape.entries ++ [entry], reads := .nothing, left := rest }

def step (scrape : HealthScrape) : HealthEvent → Option HealthScrape
  | .monitor event => (scrape.tips.step event).map fun tips => { scrape with tips := tips }
  | .record call part =>
      some (scrape.setPool { scrape.pool with stats := scrape.pool.stats.recordSection call part })
  | .writeCircuit name circuit => some (scrape.setPool (scrape.pool.setCircuit name circuit))
  | .loadTip =>
      match scrape.tip with
      | none => some { scrape with tip := some scrape.pool.tipSlot }
      | some _ => none
  | .read now =>
      match scrape.tip, scrape.left with
      | some tip, name :: rest => some (scrape.readNext now tip name rest)
      | _, _ => none

/-- The handler before its first read. -/
def start (cfg : Config) (tips : TipState) : HealthScrape :=
  { tips := tips
    tip := none
    entries := []
    reads := .nothing
    left := cfg.pool.map Upstream.name }

def machine (cfg : Config) : Machine HealthScrape HealthEvent where
  init := start cfg (.start cfg)
  step := step

/-- The answer, once everything is read. -/
def page (scrape : HealthScrape) : Option Json :=
  match scrape.tip, scrape.left with
  | some tip, [] => some (healthPage tip scrape.entries)
  | _, _ => none

/-! ### Alone -/

theorem exec_entries (cfg : Config) (tips : TipState) (tip : Nat) (now : Instant)
    (names : List String) (entries : List HealthEntry) :
    (machine cfg).execFrom
        { tips := tips, tip := some tip, entries := entries, reads := .nothing, left := names }
        (names.flatMap fun _ => List.replicate 4 (.read now)) =
      some {
        tips := tips
        tip := some tip
        entries := entries ++ names.map (HealthEntry.read tips.pool now tip)
        reads := .nothing
        left := [] } := by
  induction names generalizing entries with
  | nil => rw [List.flatMap_nil, List.map_nil, List.append_nil, Machine.execFrom_nil]
  | cons name rest inductionHypothesis =>
      rw [List.flatMap_cons, Machine.execFrom_append]
      show (machine cfg).execFrom
        { tips := tips
          tip := some tip
          entries := entries ++ [HealthEntry.read tips.pool now tip name]
          reads := .nothing
          left := rest } _ = _
      rw [inductionHypothesis, List.map_cons, List.append_assoc, List.singleton_append]

/-- Read at one moment with nobody in between, the page is the handler's. -/
theorem exec_alone (cfg : Config) (state : AppState) (now : Instant) {tips : TipState}
    (pool : tips.pool = state.pool) :
    ((machine cfg).execFrom (start cfg tips)
        (.loadTip :: (cfg.pool.map Upstream.name).flatMap fun _ =>
          List.replicate 4 (.read now))).bind page =
      some (handleHealth cfg state now) := by
  rw [Machine.execFrom_cons]
  show ((machine cfg).execFrom
    { tips := tips
      tip := some tips.pool.tipSlot
      entries := []
      reads := .nothing
      left := cfg.pool.map Upstream.name } _).bind page = _
  rw [exec_entries, Option.bind_some, List.nil_append, List.map_map, pool]
  rfl

/-! ### What each read finds -/

/-- The event loads the tip. -/
def LoadsTip (tip : Nat) (scrape : HealthScrape) (event : HealthEvent) : Prop :=
  event = .loadTip ∧ scrape.pool.tipSlot = tip

/-- The event reads the slot of the upstream, and the lag is at most the one that
the upstream has at that moment. -/
def ReadsSlot (name : String) (slot lag : Nat) (scrape : HealthScrape) (event : HealthEvent) :
    Prop :=
  (∃ now, event = .read now) ∧ (scrape.pool.cells name).lastSlot = slot ∧
    lag ≤ scrape.pool.tipSlot - slot

def ReadsRate (name : String) (errorRate : Rat) (scrape : HealthScrape) (event : HealthEvent) :
    Prop :=
  (∃ now, event = .read now) ∧ scrape.pool.stats.errorRate name = errorRate

def ReadsAverages (name : String) (ewmaLatencyMs : Rat) (scrape : HealthScrape)
    (event : HealthEvent) : Prop :=
  (∃ now, event = .read now) ∧ scrape.pool.slotLatencyMs name = ewmaLatencyMs

def ReadsCircuit (name : String) (healthy : Bool) (scrape : HealthScrape)
    (event : HealthEvent) : Prop :=
  ∃ now, event = .read now ∧ (!scrape.pool.isDropped name now) = healthy

end HealthScrape

open HealthScrape in
/-- The reads of an entry, in their order. -/
def HealthEntry.readings (entry : HealthEntry) : List (HealthScrape → HealthEvent → Prop) :=
  [ReadsSlot entry.name entry.slot entry.slotLag, ReadsRate entry.name entry.errorRate,
    ReadsAverages entry.name entry.ewmaLatencyMs, ReadsCircuit entry.name entry.healthy]

open HealthScrape in
/-- The reads so far of an entry under way. -/
def EntryReads.readings (tip : Nat) (name : String) :
    EntryReads → List (HealthScrape → HealthEvent → Prop)
  | .nothing => []
  | .slotRead slot => [ReadsSlot name slot (tip - slot)]
  | .rateRead slot errorRate => [ReadsSlot name slot (tip - slot), ReadsRate name errorRate]
  | .averagesRead slot errorRate ewmaLatencyMs =>
      [ReadsSlot name slot (tip - slot), ReadsRate name errorRate,
        ReadsAverages name ewmaLatencyMs]

namespace HealthScrape

/-- The reads of the handler so far. -/
def readings (scrape : HealthScrape) (tip : Nat) : List (HealthScrape → HealthEvent → Prop) :=
  scrape.entries.flatMap HealthEntry.readings ++
    match scrape.left with
    | [] => []
    | name :: _ => scrape.reads.readings tip name

/-- The read that comes next. -/
def nextReading (scrape : HealthScrape) (now : Instant) (tip : Nat) (name : String) :
    HealthScrape → HealthEvent → Prop :=
  let slot := (scrape.pool.cells name).lastSlot
  match scrape.reads with
  | .nothing => ReadsSlot name slot (tip - slot)
  | .slotRead _ => ReadsRate name (scrape.pool.stats.errorRate name)
  | .rateRead _ _ => ReadsAverages name (scrape.pool.slotLatencyMs name)
  | .averagesRead _ _ _ => ReadsCircuit name (!scrape.pool.isDropped name now)

section Reads

variable {scrape : HealthScrape} {tip : Nat} {name : String} {rest : List String}

theorem readings_readNext (left : scrape.left = name :: rest) (now : Instant) :
    (scrape.readNext now tip name rest).readings tip =
      scrape.readings tip ++ [scrape.nextReading now tip name] := by
  unfold readNext nextReading
  cases reads : scrape.reads with
  | nothing => simp only [readings, left, reads, EntryReads.readings, List.append_nil]
  | slotRead slot =>
      simp only [readings, left, reads, EntryReads.readings, List.append_assoc, List.cons_append,
        List.nil_append]
  | rateRead slot errorRate =>
      simp only [readings, left, reads, EntryReads.readings, List.append_assoc, List.cons_append,
        List.nil_append]
  | averagesRead slot errorRate ewmaLatencyMs =>
      have unread : (match rest with
          | [] => []
          | name :: _ => EntryReads.nothing.readings tip name) = [] := by
        cases rest <;> rfl
      simp only [readings, left, reads]
      rw [unread]
      simp only [EntryReads.readings, HealthEntry.readings, List.flatMap_append,
        List.flatMap_cons, List.flatMap_nil, List.append_assoc, List.cons_append,
        List.nil_append, List.append_nil]

theorem nextReading_met (behind : tip ≤ scrape.pool.tipSlot) (now : Instant) (name : String) :
    scrape.nextReading now tip name scrape (.read now) := by
  unfold nextReading
  cases scrape.reads with
  | nothing => exact ⟨⟨now, rfl⟩, rfl, Nat.sub_le_sub_right behind _⟩
  | slotRead => exact ⟨⟨now, rfl⟩, rfl⟩
  | rateRead => exact ⟨⟨now, rfl⟩, rfl⟩
  | averagesRead => exact ⟨now, rfl, rfl⟩

theorem readNext_tips (now : Instant) : (scrape.readNext now tip name rest).tips = scrape.tips := by
  unfold readNext
  split <;> rfl

theorem readNext_tip (now : Instant) : (scrape.readNext now tip name rest).tip = scrape.tip := by
  unfold readNext
  split <;> rfl

variable (scrape tip name rest) in
/-- A read finishes no entry or that of `name`. -/
theorem readNext_entries (now : Instant) :
    (scrape.readNext now tip name rest).entries = scrape.entries ∧
        (scrape.readNext now tip name rest).left = scrape.left ∨
      ∃ entry : HealthEntry, entry.name = name ∧ entry.slotLag = tip - entry.slot ∧
        (scrape.readNext now tip name rest).entries = scrape.entries ++ [entry] ∧
        (scrape.readNext now tip name rest).left = rest := by
  unfold readNext
  split
  · exact Or.inl ⟨rfl, rfl⟩
  · exact Or.inl ⟨rfl, rfl⟩
  · exact Or.inl ⟨rfl, rfl⟩
  · exact Or.inr ⟨_, rfl, rfl, rfl, rfl⟩

end Reads

/-! ### Runs -/

/-- What a step does: monitors and requests move the pool and never the tip back,
the handler loads the tip, or it reads on. -/
inductive Moves (scrape : HealthScrape) : HealthEvent → HealthScrape → Prop where
  | elsewhere (event : HealthEvent) (tips : TipState)
      (kept : AtomicMax.Tracks scrape.tips.view →
        AtomicMax.Tracks tips.view ∧ scrape.pool.tipSlot ≤ tips.pool.tipSlot) :
      Moves scrape event { scrape with tips := tips }
  | loads (unloaded : scrape.tip = none) :
      Moves scrape .loadTip { scrape with tip := some scrape.pool.tipSlot }
  | reads (now : Instant) (tip : Nat) (name : String) (rest : List String)
      (loaded : scrape.tip = some tip) (left : scrape.left = name :: rest) :
      Moves scrape (.read now) (scrape.readNext now tip name rest)

theorem step_moves {scrape next : HealthScrape} {event : HealthEvent}
    (stepped : scrape.step event = some next) : scrape.Moves event next := by
  cases event with
  | monitor seen =>
      obtain ⟨tips, taken, rfl⟩ := Option.map_eq_some_iff.mp stepped
      refine .elsewhere _ tips fun tracks => ?_
      rcases TipState.view_step taken with same | ⟨turn, turned⟩
      · have tip : tips.pool.tipSlot = scrape.pool.tipSlot := congrArg AtomicMax.State.cell same
        exact ⟨same ▸ tracks, Nat.le_of_eq tip.symm⟩
      · exact tracks.step turned
  | record call part =>
      cases stepped
      exact .elsewhere _ { scrape.tips with pool := _ } fun tracks => ⟨tracks, Nat.le_refl _⟩
  | writeCircuit name circuit =>
      cases stepped
      exact .elsewhere _ { scrape.tips with pool := _ } fun tracks => ⟨tracks, Nat.le_refl _⟩
  | loadTip =>
      simp only [step] at stepped
      split at stepped
      · rename_i unloaded
        cases stepped
        exact .loads unloaded
      · cases stepped
  | read now =>
      simp only [step] at stepped
      split at stepped
      · rename_i tip name rest loaded left
        cases stepped
        exact .reads now tip name rest loaded left
      · cases stepped

/-- What holds of the page after the events of a run. -/
structure Underway (cfg : Config) (events : List HealthEvent) (scrape : HealthScrape) : Prop where
  tracks : AtomicMax.Tracks scrape.tips.view
  behind : ∀ tip, scrape.tip = some tip → tip ≤ scrape.pool.tipSlot
  unread : scrape.tip = none → scrape.entries = [] ∧ scrape.reads = .nothing
  names : scrape.entries.map HealthEntry.name ++ scrape.left = cfg.pool.map Upstream.name
  lags : ∀ tip, scrape.tip = some tip →
    ∀ entry ∈ scrape.entries, entry.slotLag = tip - entry.slot
  turns : ∀ tip, scrape.tip = some tip →
    (machine cfg).InTurn (LoadsTip tip :: scrape.readings tip) (machine cfg).init events

section Underway

variable {cfg : Config} {events : List HealthEvent} {state : HealthScrape}
  {event : HealthEvent}

theorem Underway.elsewhere {tips : TipState} (known : Underway cfg events state)
    (tracks : AtomicMax.Tracks tips.view) (grown : state.pool.tipSlot ≤ tips.pool.tipSlot) :
    Underway cfg (events ++ [event]) { state with tips := tips } where
  tracks := tracks
  behind := fun tip loaded => (known.behind tip loaded).trans grown
  unread := known.unread
  names := known.names
  lags := known.lags
  turns := fun tip loaded => (known.turns tip loaded).append [event]

theorem Underway.loads (known : Underway cfg events state) (unloaded : state.tip = none)
    (reached : (machine cfg).exec events = some state)
    (stepped : state.step .loadTip = some { state with tip := some state.pool.tipSlot }) :
    Underway cfg (events ++ [.loadTip]) { state with tip := some state.pool.tipSlot } := by
  obtain ⟨none, fresh⟩ := known.unread unloaded
  refine {
    tracks := known.tracks
    behind := fun tip loaded => Nat.le_of_eq (Option.some.inj loaded).symm
    unread := nofun
    names := known.names
    lags := fun tip loaded entry member => ?_
    turns := fun tip loaded => ?_ }
  · rw [none] at member
    cases member
  · have nothing : readings { state with tip := some state.pool.tipSlot } tip = [] := by
      simp only [readings, none, fresh, List.flatMap_nil, List.nil_append]
      cases state.left <;> rfl
    have start : (machine cfg).InTurn [] (machine cfg).init events := trivial
    rw [nothing]
    exact start.snoc reached stepped ⟨rfl, Option.some.inj loaded⟩

theorem Underway.reads {tip : Nat} {name : String} {rest : List String} {now : Instant}
    (known : Underway cfg events state) (loaded : state.tip = some tip)
    (left : state.left = name :: rest) (reached : (machine cfg).exec events = some state)
    (stepped : state.step (.read now) = some (state.readNext now tip name rest)) :
    Underway cfg (events ++ [.read now]) (state.readNext now tip name rest) := by
  have behind := known.behind tip loaded
  have sameTip {own : Nat} (shown : (state.readNext now tip name rest).tip = some own) :
      own = tip := by
    rw [readNext_tip, loaded, Option.some_inj] at shown
    exact shown.symm
  refine {
    tracks := by rw [readNext_tips]; exact known.tracks
    behind := fun own shown => ?_
    unread := fun unloaded => ?_
    names := ?_
    lags := fun own shown entry member => ?_
    turns := fun own shown => ?_ }
  · rw [sameTip shown, pool, readNext_tips]
    exact behind
  · rw [readNext_tip, loaded] at unloaded
    cases unloaded
  · have names := known.names
    rcases readNext_entries state tip name rest now with
      ⟨entries, same⟩ | ⟨entry, own, _, entries, same⟩
    · rw [entries, same, names]
    · rw [left] at names
      rw [entries, same, List.map_append, List.append_assoc, List.map_singleton, own,
        List.singleton_append, names]
  · rw [sameTip shown]
    rcases readNext_entries state tip name rest now with
      ⟨entries, _⟩ | ⟨finished, _, lag, entries, _⟩
    · rw [entries] at member
      exact known.lags tip loaded entry member
    · rw [entries, List.mem_append, List.mem_singleton] at member
      rcases member with earlier | rfl
      · exact known.lags tip loaded entry earlier
      · exact lag
  · rw [sameTip shown, readings_readNext left now, ← List.cons_append]
    exact (known.turns tip loaded).snoc reached stepped (nextReading_met behind now name)

theorem underway_of_exec (run : (machine cfg).exec events = some state) :
    Underway cfg events state := by
  apply Machine.exec_induction (machine cfg) (P := Underway cfg) _ _ run
  · exact {
      tracks := TipState.tracks ⟨[], rfl⟩
      behind := fun _ loaded => nomatch loaded
      unread := fun _ => ⟨rfl, rfl⟩
      names := rfl
      lags := fun _ loaded => nomatch loaded
      turns := fun _ loaded => nomatch loaded }
  · intro before state event next reached known stepped
    cases step_moves stepped with
    | elsewhere _ tips kept =>
        obtain ⟨tracks, grown⟩ := kept known.tracks
        exact known.elsewhere tracks grown
    | loads unloaded => exact known.loads unloaded reached stepped
    | reads now tip name rest loaded left => exact known.reads loaded left reached stepped

end Underway

/-- However monitors and requests move while the page is put together, it has one
entry for each upstream in the order of the config, and the tip and the fields of
the entries were read one after another, each at a moment of its own. No entry shows
more lag than the upstream had when its slot was read. -/
theorem page_reads {cfg : Config} {events : List HealthEvent} {scrape : HealthScrape}
    {page : Json} (run : (machine cfg).exec events = some scrape)
    (answered : scrape.page = some page) :
    ∃ tip entries, page = healthPage tip entries ∧
      entries.map HealthEntry.name = cfg.pool.map Upstream.name ∧
      (∀ entry ∈ entries, entry.slotLag = tip - entry.slot) ∧
      (machine cfg).InTurn (LoadsTip tip :: entries.flatMap HealthEntry.readings)
        (machine cfg).init events := by
  have known := underway_of_exec run
  unfold HealthScrape.page at answered
  split at answered
  · rename_i tip loaded left
    have names := known.names
    have turns := known.turns tip loaded
    rw [left, List.append_nil] at names
    simp only [readings, left, List.append_nil] at turns
    exact ⟨tip, scrape.entries, (Option.some.inj answered).symm, names, known.lags tip loaded,
      turns⟩
  · cases answered

/-- A failed poll is recorded and the circuit opened inside the first entry, and the
tip moves on between the entries. -/
def movingScrape : List HealthEvent :=
  let failed : RecordCall :=
    { now := 0, upstream := "helius", method := "getSlot", latencyMs := 40, success := false }
  [.monitor (.poll "helius" (some (.object [("result", .number (.posInt 100))]))),
    .monitor (.turn "helius"), .monitor (.turn "helius"),
    .loadTip,
    .read 0, .read 0, .record failed .averages, .record failed .outcomes,
    .read 0, .writeCircuit "helius" (.trip 0 1000000000), .read 0,
    .monitor (.poll "triton" (some (.object [("result", .number (.posInt 105))]))),
    .read 0, .read 0, .read 0, .read 0]

/-- No error is shown beside the latency of the failed poll. -/
theorem page_reads_moving :
    ∃ scrape page, (machine .deployment).exec movingScrape = some scrape ∧
      scrape.page = some page ∧
      ∃ tip entries, page = healthPage tip entries ∧
        entries.map HealthEntry.name = Config.deployment.pool.map Upstream.name ∧
        (∀ entry ∈ entries, entry.slotLag = tip - entry.slot) ∧
        (machine .deployment).InTurn (LoadsTip tip :: entries.flatMap HealthEntry.readings)
          (machine .deployment).init movingScrape := by
  have finished : (((machine .deployment).exec movingScrape).bind page).isSome = true := by
    decide +kernel
  obtain ⟨page, answered⟩ := Option.isSome_iff_exists.mp finished
  obtain ⟨scrape, run, shown⟩ := Option.bind_eq_some_iff.mp answered
  exact ⟨scrape, page, run, shown, page_reads run shown⟩

end HealthScrape

end Disburse
