import Mathlib.Data.List.Induction
import Mathlib.Data.List.TakeWhile

/-!
Owns queues of timed entries with a rolling window. A push prunes the front of
the queue; after pushes at times that do not decrease, the queue holds exactly
the entries of the whole history that are still inside the window.
-/

namespace Disburse.Library

universe u

/-- A queue of timed entries, oldest first. -/
abbrev TimedLog (α : Type u) := List (Nat × α)

variable {α : Type u}

/-- Push an entry, then pop from the front while the front is too old. -/
def pushPruned (window now : Nat) (log : TimedLog α) (value : α) : TimedLog α :=
  (log ++ [(now, value)]).dropWhile fun entry => window < now - entry.1

/-- The entries that are not too old. -/
def recent (window now : Nat) (history : TimedLog α) : TimedLog α :=
  history.filter fun entry => now - entry.1 ≤ window

/-- The queue that `pushPruned` leaves is never empty: its newest entry has age zero. -/
theorem pushPruned_ne_nil (window now : Nat) (log : TimedLog α) (value : α) :
    pushPruned window now log value ≠ [] := by
  intro empty
  have old := List.dropWhile_eq_nil_iff.mp empty (now, value) (by simp)
  simp at old

/-- In the order of time an old entry has only old entries before it, so popping
the front until it is young removes all of them. -/
theorem dropWhile_old_eq_recent (window now : Nat) {log : TimedLog α}
    (ordered : log.Pairwise fun earlier later => earlier.1 ≤ later.1) :
    log.dropWhile (fun entry => decide (window < now - entry.1)) = recent window now log := by
  unfold recent
  induction log with
  | nil => rfl
  | cons entry rest inductionHypothesis =>
      rw [List.pairwise_cons] at ordered
      by_cases old : window < now - entry.1
      · have tooOld : ¬ now - entry.1 ≤ window := Nat.not_le.mpr old
        simp only [List.dropWhile_cons, List.filter_cons, old, tooOld, decide_true, decide_false,
          ↓reduceIte, Bool.false_eq_true]
        exact inductionHypothesis ordered.2
      · have young : ∀ later ∈ entry :: rest, now - later.1 ≤ window := by
          intro later member
          rcases List.mem_cons.mp member with same | inside
          · rw [same]
            omega
          · have after := ordered.1 later inside
            omega
        have kept : (entry :: rest).filter (fun entry => now - entry.1 ≤ window) =
            entry :: rest := by
          rw [List.filter_eq_self]
          intro later member
          exact decide_eq_true (young later member)
        rw [kept, List.dropWhile_cons, if_neg (by rwa [decide_eq_true_eq])]

/-! ### A queue and its history -/

/-- The queue is what is left of a history, in the order of time and up to
`clock`, after some entries that have left the window were popped. -/
structure Trails (window clock : Nat) (history log : TimedLog α) : Prop where
  ordered : history.Pairwise fun earlier later => earlier.1 ≤ later.1
  past : ∀ entry ∈ history, entry.1 ≤ clock
  popped : ∃ old, history = old ++ log ∧ ∀ entry ∈ old, window < clock - entry.1

namespace Trails

variable {window clock now : Nat} {history log : TimedLog α}

theorem nil : Trails window clock ([] : TimedLog α) [] :=
  ⟨List.Pairwise.nil, by simp, [], rfl, by simp⟩

theorem later (trails : Trails window clock history log) (passed : clock ≤ now) :
    Trails window now history log := by
  rcases trails.popped with ⟨old, whole, aged⟩
  refine ⟨trails.ordered, fun entry member => ?_, old, whole, fun entry member => ?_⟩
  · exact (trails.past entry member).trans passed
  · have age := aged entry member
    omega

theorem ordered_push (trails : Trails window clock history log) (passed : clock ≤ now)
    (value : α) :
    (history ++ [(now, value)]).Pairwise fun earlier later => earlier.1 ≤ later.1 := by
  rw [List.pairwise_append]
  refine ⟨trails.ordered, List.pairwise_singleton _ _, fun entry member last same => ?_⟩
  rw [List.mem_singleton.mp same]
  exact (trails.past entry member).trans passed

/-- A push leaves the part of the history that is inside the window. -/
theorem pushPruned_eq_recent (trails : Trails window clock history log) (passed : clock ≤ now)
    (value : α) :
    pushPruned window now log value = recent window now (history ++ [(now, value)]) := by
  rcases trails.popped with ⟨old, whole, aged⟩
  have ordered := trails.ordered_push passed value
  rw [whole, List.append_assoc] at ordered ⊢
  have left : recent window now old = [] := by
    unfold recent
    rw [List.filter_eq_nil_iff]
    intro entry member
    have age := aged entry member
    rw [decide_eq_true_eq]
    omega
  unfold pushPruned
  rw [dropWhile_old_eq_recent window now (List.pairwise_append.mp ordered).2.1]
  unfold recent at left ⊢
  rw [List.filter_append old, left, List.nil_append]

theorem push (trails : Trails window clock history log) (passed : clock ≤ now) (value : α) :
    Trails window now (history ++ [(now, value)]) (pushPruned window now log value) := by
  refine ⟨trails.ordered_push passed value, ?_, ?_⟩
  · exact List.forall_mem_append.mpr
      ⟨(trails.later passed).past, List.forall_mem_singleton.mpr le_rfl⟩
  · rcases trails.popped with ⟨old, whole, aged⟩
    refine ⟨old ++ (log ++ [(now, value)]).takeWhile fun entry => window < now - entry.1,
      ?_, fun entry member => ?_⟩
    · unfold pushPruned
      rw [List.append_assoc, List.takeWhile_append_dropWhile, whole, List.append_assoc]
    · rcases List.mem_append.mp member with before | taken
      · have age := aged entry before
        omega
      · simpa using List.mem_takeWhile_imp taken

end Trails

/-! ### Pushes in the order of time -/

/-- The queue after pushing entries one after the other, each at its own time. -/
def pushAll (window : Nat) (entries : TimedLog α) : TimedLog α :=
  entries.foldl (fun log entry => pushPruned window entry.1 log entry.2) []

section PushAll

variable {window : Nat} {entries : TimedLog α} {last : Nat × α}

theorem pushAll_snoc (window : Nat) (entries : TimedLog α) (last : Nat × α) :
    pushAll window (entries ++ [last]) =
      pushPruned window last.1 (pushAll window entries) last.2 := by
  rw [pushAll, List.foldl_append]
  rfl

theorem trails_pushAll {now : Nat}
    (ordered : entries.Pairwise fun earlier later => earlier.1 ≤ later.1)
    (past : ∀ entry ∈ entries, entry.1 ≤ now) :
    Trails window now entries (pushAll window entries) := by
  induction entries using List.reverseRecOn generalizing now with
  | nil => exact .nil
  | append_singleton earlier last inductionHypothesis =>
      obtain ⟨before, -, below⟩ := List.pairwise_append.mp ordered
      have trails := inductionHypothesis before fun entry member =>
        below entry member last (by simp)
      rw [pushAll_snoc]
      exact (trails.push le_rfl last.2).later (past last (by simp))

/-- After pushes in the order of time the queue holds what is young at the last one. -/
theorem pushAll_eq_recent
    (ordered : (entries ++ [last]).Pairwise fun earlier later => earlier.1 ≤ later.1) :
    pushAll window (entries ++ [last]) = recent window last.1 (entries ++ [last]) := by
  obtain ⟨before, -, below⟩ := List.pairwise_append.mp ordered
  have trails : Trails window last.1 entries (pushAll window entries) :=
    trails_pushAll before fun entry member => below entry member last (by simp)
  rw [pushAll_snoc]
  exact trails.pushPruned_eq_recent le_rfl last.2

end PushAll

end Disburse.Library
