import Disburse.Proxy.Freshness
import Disburse.Routing.Optimal

/-!
Owns the vote on an unknown blockhash against the slot lag. The first boolean
answer decides, whoever gives it, so a node behind the tip can overrule the
others on a hash that it has not seen.
-/

namespace Disburse

open Disburse.Library

section Vote

variable {cfg : Config} {pool : UpstreamPool} {now : Instant} {answers : Answers}

/-- The upstream is asked, when its turn comes, and answers with the boolean. -/
def Gives (pool : UpstreamPool) (now : Instant) (answers : Answers) (upstream : Upstream)
    (valid : Bool) : Prop :=
  pool.isDropped upstream.name now = false ∧ validityOf (answers upstream.name) = some valid

/-- The answer is that of an upstream within the slot lag. -/
def GivenInTime (cfg : Config) (pool : UpstreamPool) (now : Instant) (answers : Answers)
    (valid : Bool) : Prop :=
  ∃ upstream ∈ cfg.pool, ¬ Lagging cfg pool upstream.name ∧ Gives pool now answers upstream valid

/-- A laggard that answers with a boolean which no upstream within the lag gives
comes in config order after an upstream whose boolean one within the lag gives. -/
def LaggardsPreceded (cfg : Config) (pool : UpstreamPool) (now : Instant) (answers : Answers) :
    Prop :=
  ∀ before laggard after valid, cfg.pool = before ++ laggard :: after →
    Lagging cfg pool laggard.name → Gives pool now answers laggard valid →
    ¬ GivenInTime cfg pool now answers valid →
    ∃ other ∈ before, ∃ value, Gives pool now answers other value ∧
      GivenInTime cfg pool now answers value

/-- The verdict is an answer of an upstream within the slot lag. -/
def DecidedInTime (cfg : Config) (pool : UpstreamPool) (now : Instant) (answers : Answers) : Prop :=
  ∃ valid, verifyBlockhash cfg pool now answers = some valid ∧
    GivenInTime cfg pool now answers valid

theorem verifyBlockhash_gives {valid : Bool} :
    verifyBlockhash cfg pool now answers = some valid ↔
      ∃ before first after, cfg.pool = before ++ first :: after ∧
        (∀ other ∈ before, ∀ value, ¬ Gives pool now answers other value) ∧
        Gives pool now answers first valid := by
  have silent (other : Upstream) :
      (pool.isDropped other.name now = false → validityOf (answers other.name) = none) ↔
        ∀ value, ¬ Gives pool now answers other value := by
    simp only [Gives, not_and, Option.eq_none_iff_forall_ne_some]
    exact forall_comm
  rw [verifyBlockhash_eq_some]
  simp only [silent]
  constructor
  · rintro ⟨before, first, after, order, live, given, quiet⟩
    exact ⟨before, first, after, order, quiet, live, given⟩
  · rintro ⟨before, first, after, order, quiet, live, given⟩
    exact ⟨before, first, after, order, live, given, quiet⟩

/-- An upstream within the lag that gives a boolean brings about a verdict. -/
theorem verifyBlockhash_isSome {valid : Bool} (given : GivenInTime cfg pool now answers valid) :
    ∃ verdict, verifyBlockhash cfg pool now answers = some verdict := by
  obtain ⟨upstream, member, -, live, answer⟩ := given
  apply Option.isSome_iff_exists.mp
  rw [verifyBlockhash, List.findSome?_isSome_iff]
  exact ⟨upstream, List.mem_filter.mpr ⟨member, by simp [live]⟩, by rw [answer]; rfl⟩

/-- Of two cuts of a list one is earlier, or they are the same. -/
theorem cut_cases {first second : Upstream} {before before' after after' : List Upstream}
    (same : before ++ first :: after = before' ++ second :: after') :
    first ∈ before' ∨ first = second ∨ second ∈ before := by
  rcases List.append_eq_append_iff.mp same with ⟨between, rfl, cut⟩ | ⟨between, rfl, cut⟩
  · cases between with
    | nil => exact Or.inr (Or.inl (List.cons.inj cut).1)
    | cons _ _ =>
        rw [List.cons_append, List.cons.injEq] at cut
        exact Or.inl (List.mem_append_right _ (cut.1 ▸ List.mem_cons_self))
  · cases between with
    | nil => exact Or.inr (Or.inl (List.cons.inj cut).1.symm)
    | cons _ _ =>
        rw [List.cons_append, List.cons.injEq] at cut
        exact Or.inr (Or.inr (List.mem_append_right _ (cut.1 ▸ List.mem_cons_self)))

theorem Gives.unique {upstream : Upstream} {value other : Bool}
    (one : Gives pool now answers upstream value) (two : Gives pool now answers upstream other) :
    value = other :=
  Option.some_inj.mp (one.2.symm.trans two.2)

theorem decidedInTime_iff {valid : Bool} (given : GivenInTime cfg pool now answers valid) :
    DecidedInTime cfg pool now answers ↔ LaggardsPreceded cfg pool now answers := by
  constructor
  · rintro ⟨verdict, decided, inTime⟩ before laggard after value order - gives alone
    obtain ⟨quietBefore, first, _, firstOrder, quiet, firstGives⟩ :=
      verifyBlockhash_gives.mp decided
    rcases cut_cases (firstOrder.symm.trans order) with earlier | same | later
    · exact ⟨first, earlier, verdict, firstGives, inTime⟩
    · subst same
      exact absurd (firstGives.unique gives ▸ inTime) alone
    · exact absurd gives (quiet laggard later value)
  · intro preceded
    obtain ⟨verdict, decided⟩ := verifyBlockhash_isSome given
    refine ⟨verdict, decided, ?_⟩
    obtain ⟨before, first, after, order, quiet, gives⟩ := verifyBlockhash_gives.mp decided
    by_contra alone
    by_cases behind : Lagging cfg pool first.name
    · obtain ⟨other, earlier, value, answers, -⟩ :=
        preceded before first after verdict order behind gives alone
      exact quiet other earlier value answers
    · exact alone ⟨first, by rw [order]; simp, behind, gives⟩

/-- Where the upstreams within the lag agree on true, the verdict is true exactly
when no laggard that disagrees comes before them. -/
theorem vouches_iff (given : GivenInTime cfg pool now answers true)
    (agreed : ¬ GivenInTime cfg pool now answers false) :
    Vouches cfg pool now answers ↔ LaggardsPreceded cfg pool now answers := by
  rw [← decidedInTime_iff given, ← verifyBlockhash_eq_true]
  constructor
  · intro decided
    exact ⟨true, decided, given⟩
  · rintro ⟨verdict, decided, inTime⟩
    cases verdict with
    | true => exact decided
    | false => exact absurd inTime agreed

/-- A lagging upstream cannot decide exactly when each laggard that stands alone with
its boolean comes after an upstream that does not: neither the verdict nor the reply
to a sendTransaction whose blockhash is not in the cache. -/
theorem lagging_vote (external : External) {valid : Bool}
    (given : GivenInTime cfg pool now answers valid) :
    (DecidedInTime cfg pool now answers ↔ LaggardsPreceded cfg pool now answers) ∧
    ∀ (state : AppState) (request id : Json) (blockhash : String), state.pool = pool →
      state.blockhashCache.isWarmedUp now = true →
      requestBlockhash external request = some blockhash →
      state.blockhashCache.slotOf blockhash = none →
      GivenInTime cfg pool now answers true → ¬ GivenInTime cfg pool now answers false →
      ((checkBlockhashFreshness external cfg state now answers request id).2 = none ↔
        LaggardsPreceded cfg pool now answers) := by
  refine ⟨decidedInTime_iff given, ?_⟩
  rintro state request id blockhash rfl warm found uncached givenTrue agreed
  rw [← vouches_iff givenTrue agreed]
  have decision : StaleBlockhash cfg state now answers blockhash ↔
      ¬ Vouches cfg state.pool now answers := by
    rw [StaleBlockhash, uncached]
  rcases checkBlockhashFreshness_spec cfg answers id warm found with
    ⟨stale, rejected, -⟩ | ⟨accepted, passed, -⟩
  · rw [rejected]
    exact iff_of_false (Option.some_ne_none _) (decision.mp stale)
  · rw [passed]
    exact iff_of_true rfl (not_not.mp (mt decision.mpr accepted))

end Vote

/-- "helius" has not seen the blockhash, "triton" has. -/
def splitAnswers : Answers := fun name =>
  some (.object [("result", .object [("value", .bool (name == "triton"))])])

/-- "helius" has fallen 100 slots behind "triton". -/
def heliusBehind : UpstreamPool :=
  ({ UpstreamPool.fromConfig .deployment with tipSlot := 100 }).storeSlot "triton" 100

theorem lagging_vote_level :
    DecidedInTime .deployment (.fromConfig .deployment) 0 splitAnswers := by
  have given : GivenInTime .deployment (.fromConfig .deployment) 0 splitAnswers true := by
    unfold GivenInTime Lagging Gives
    decide +kernel
  apply (lagging_vote .plain given).1.mpr
  intro _ laggard _ _ _ behind
  exact absurd behind (Nat.not_lt_zero _)

/-- The node behind the tip is asked first and rejects what the other one knows. -/
theorem laggard_overrules :
    GivenInTime .deployment heliusBehind 0 splitAnswers true ∧
      ¬ GivenInTime .deployment heliusBehind 0 splitAnswers false ∧
      verifyBlockhash .deployment heliusBehind 0 splitAnswers = some false ∧
      ¬ DecidedInTime .deployment heliusBehind 0 splitAnswers := by
  have givenTrue : GivenInTime .deployment heliusBehind 0 splitAnswers true := by
    unfold GivenInTime Lagging Gives
    decide +kernel
  have agreed : ¬ GivenInTime .deployment heliusBehind 0 splitAnswers false := by
    unfold GivenInTime Lagging Gives
    decide +kernel
  have verdict : verifyBlockhash .deployment heliusBehind 0 splitAnswers = some false := by
    decide +kernel
  refine ⟨givenTrue, agreed, verdict, ?_⟩
  rintro ⟨valid, decided, inTime⟩
  rw [verdict, Option.some_inj] at decided
  exact agreed (decided ▸ inTime)

end Disburse
