import Mathlib.Algebra.GroupWithZero.Nat
import Mathlib.Data.List.AList

/-!
Owns counters indexed by keys: a finite map to numbers, where a key without an
entry counts zero, with the sum over all keys that meet a predicate; and what
becomes of a count over a list when one entry is replaced.
-/

namespace Disburse.Library

universe u

/-- Counts by key, each key at most once. -/
abbrev Counter (K : Type u) := AList fun _ : K => Nat

namespace Counter

variable {K : Type u} [DecidableEq K]

def count (counter : Counter K) (key : K) : Nat := (counter.lookup key).getD 0

/-- Raise one key, entering it when it is new. -/
def add (counter : Counter K) (key : K) (amount : Nat) : Counter K :=
  counter.insert key (counter.count key + amount)

def totalOf (P : K → Prop) [DecidablePred P] (entries : List (Sigma fun _ : K => Nat)) : Nat :=
  (entries.map fun entry => if P entry.1 then entry.2 else 0).sum

/-- The sum over the keys that meet `P`. -/
def total (counter : Counter K) (P : K → Prop) [DecidablePred P] : Nat :=
  totalOf P counter.entries

theorem count_add (counter : Counter K) (key other : K) (amount : Nat) :
    (counter.add key amount).count other =
      counter.count other + if other = key then amount else 0 := by
  unfold count add
  by_cases same : other = key
  · subst same
    rw [AList.lookup_insert, if_pos rfl]
    rfl
  · rw [AList.lookup_insert_ne same, if_neg same, Nat.add_zero]

theorem mem_add {counter : Counter K} {key other : K} {amount : Nat} :
    other ∈ counter.add key amount ↔ other = key ∨ other ∈ counter :=
  AList.mem_insert counter

/-- Erasing a key takes its own count out of the total. -/
theorem totalOf_kerase (P : K → Prop) [DecidablePred P] (key : K) :
    ∀ entries : List (Sigma fun _ : K => Nat),
      totalOf P entries = totalOf P (entries.kerase key) +
        if P key then (entries.dlookup key).getD 0 else 0
  | [] => by simp [totalOf]
  | entry :: rest => by
      have tail := totalOf_kerase P key rest
      by_cases same : key = entry.1
      · rcases entry with ⟨_, value⟩
        subst same
        have erased : List.kerase key (⟨key, value⟩ :: rest) = rest := List.kerase_cons_eq rfl
        rw [erased, List.dlookup_cons_eq]
        show (if P key then value else 0) + totalOf P rest = _
        exact Nat.add_comm _ _
      · rw [List.kerase_cons_ne same, List.dlookup_cons_ne _ _ same]
        show (if P entry.1 then entry.2 else 0) + totalOf P rest =
          (if P entry.1 then entry.2 else 0) + totalOf P (rest.kerase key) + _
        rw [tail, Nat.add_assoc]

theorem total_add (counter : Counter K) (key : K) (amount : Nat) (P : K → Prop)
    [DecidablePred P] :
    (counter.add key amount).total P = counter.total P + if P key then amount else 0 := by
  have before : counter.total P = totalOf P (counter.entries.kerase key) +
      if P key then counter.count key else 0 := totalOf_kerase P key counter.entries
  have after : (counter.add key amount).total P =
      (if P key then counter.count key + amount else 0) +
        totalOf P (counter.entries.kerase key) := rfl
  rw [before, after]
  split <;> omega

end Counter

/-! ### Replacing one entry of a list -/

section Replaced

variable {α : Type u} {values : List α} {place : Nat} {old : α}

/-- A sum over a list follows the replacement of one entry. -/
theorem sum_map_set (weight : α → Nat) (found : values[place]? = some old) (new : α) :
    ((values.set place new).map weight).sum + weight old =
      (values.map weight).sum + weight new := by
  induction values generalizing place with
  | nil => simp at found
  | cons value rest inductionHypothesis =>
      cases place with
      | zero =>
          rw [List.getElem?_cons_zero, Option.some_inj] at found
          simp only [List.set_cons_zero, List.map_cons, List.sum_cons, found]
          omega
      | succ place =>
          rw [List.getElem?_cons_succ] at found
          have tail := inductionHypothesis found
          simp only [List.set_cons_succ, List.map_cons, List.sum_cons]
          omega

theorem countP_eq_sum_map (property : α → Bool) (values : List α) :
    values.countP property = (values.map fun value => if property value then 1 else 0).sum := by
  induction values with
  | nil => rfl
  | cons value rest inductionHypothesis =>
      rw [List.countP_cons, List.map_cons, List.sum_cons, inductionHypothesis, Nat.add_comm]

/-- So does the number of entries with a property. -/
theorem countP_set (property : α → Bool) (found : values[place]? = some old) (new : α) :
    (values.set place new).countP property + (if property old then 1 else 0) =
      values.countP property + if property new then 1 else 0 := by
  rw [countP_eq_sum_map, countP_eq_sum_map]
  exact sum_map_set _ found new

end Replaced

end Disburse.Library
