import Disburse.Library.Lru
import Mathlib.Data.Finset.Card
import Mathlib.Data.List.TakeWhile
import Mathlib.Logic.Function.Basic

/-!
Owns the order of last touches of an unbounded set of keys, and what a bounded
least-recently-used map keeps of it: the keys touched last, as many as fit, with
the values written last.
-/

namespace Disburse.Library

universe u v

variable {K : Type u} {V : Type v} [DecidableEq K]

/-- The distinct keys of a list of touches, newest first in both. -/
def recency : List K → List K
  | [] => []
  | key :: older => key :: (recency older).filter fun other => other != key

/-- The key has been touched, and since its last touch fewer than `capacity`
distinct other keys have been. -/
def Recent (capacity : Nat) (touched : List K) (key : K) : Prop :=
  key ∈ touched ∧ (touched.takeWhile fun other => other != key).toFinset.card < capacity

instance (capacity : Nat) (touched : List K) (key : K) : Decidable (Recent capacity touched key) :=
  inferInstanceAs (Decidable (_ ∧ _))

section Order

variable {touched : List K} {key : K}

theorem mem_recency : key ∈ recency touched ↔ key ∈ touched := by
  induction touched with
  | nil => rfl
  | cons newest older inductionHypothesis =>
      simp only [recency, List.mem_cons, List.mem_filter, inductionHypothesis, bne_iff_ne]
      constructor
      · rintro (same | ⟨member, -⟩)
        · exact .inl same
        · exact .inr member
      · rintro (same | member)
        · exact .inl same
        · by_cases same : key = newest
          · exact .inl same
          · exact .inr ⟨member, same⟩

theorem nodup_recency (touched : List K) : (recency touched).Nodup := by
  induction touched with
  | nil => exact List.nodup_nil
  | cons newest older inductionHypothesis =>
      rw [recency, List.nodup_cons]
      exact ⟨by simp, inductionHypothesis.filter _⟩

/-- There are as many keys in the order as distinct touched ones. -/
theorem length_recency (touched : List K) :
    (recency touched).length = touched.toFinset.card := by
  have same : (recency touched).toFinset = touched.toFinset := by
    ext key
    rw [List.mem_toFinset, List.mem_toFinset, mem_recency]
  rw [← same, List.toFinset_card_of_nodup (nodup_recency touched)]

/-- Dropping another key does not change what stands before a key. -/
theorem takeWhile_filter_other (keys : List K) {other : K} (different : key ≠ other) :
    (keys.filter fun entry => entry != other).takeWhile (fun entry => entry != key) =
      (keys.takeWhile fun entry => entry != key).filter fun entry => entry != other := by
  induction keys with
  | nil => rfl
  | cons entry rest inductionHypothesis =>
      by_cases dropped : entry = other
      · subst dropped
        simp [Ne.symm different, inductionHypothesis]
      · by_cases same : entry = key <;> simp [dropped, same, different, inductionHypothesis]

theorem takeWhile_recency (touched : List K) (key : K) :
    (recency touched).takeWhile (fun other => other != key) =
      recency (touched.takeWhile fun other => other != key) := by
  induction touched with
  | nil => rfl
  | cons newest older inductionHypothesis =>
      by_cases same : newest = key
      · simp [recency, same]
      · have others := takeWhile_filter_other (recency older) (Ne.symm same)
        rw [inductionHypothesis] at others
        simp [recency, same, others]

theorem mem_take_iff (keys : List K) (count : Nat) (key : K) :
    key ∈ keys.take count ↔
      key ∈ keys ∧ (keys.takeWhile fun other => other != key).length < count := by
  induction keys generalizing count with
  | nil => simp
  | cons first rest inductionHypothesis =>
      cases count with
      | zero => simp
      | succ count =>
          by_cases same : first = key
          · simp [same]
          · simp [same, Ne.symm same, inductionHypothesis]

/-- The first keys of the order are the recent ones. -/
theorem mem_take_recency (capacity : Nat) (touched : List K) (key : K) :
    key ∈ (recency touched).take capacity ↔ Recent capacity touched key := by
  rw [mem_take_iff, mem_recency, takeWhile_recency, length_recency, Recent]

/-- While all the touched keys fit, each of them is recent. -/
theorem recent_of_subset {capacity : Nat} {seen : Finset K} (fits : seen.card ≤ capacity)
    (all : ∀ other ∈ touched, other ∈ seen) (member : key ∈ touched) :
    Recent capacity touched key := by
  have inside : (touched.takeWhile fun other => other != key).toFinset ⊆ seen.erase key := by
    intro other earlier
    have before := List.mem_toFinset.mp earlier
    have different := List.mem_takeWhile_imp before
    exact Finset.mem_erase.mpr
      ⟨bne_iff_ne.mp different, all other (List.takeWhile_subset _ before)⟩
  have fewer : (seen.erase key).card < seen.card := Finset.card_erase_lt_of_mem (all key member)
  exact ⟨member, ((Finset.card_le_card inside).trans_lt fewer).trans_le fits⟩

/-- Dropping a key leaves room for the key that was just too old. -/
theorem take_filter_take (keys : List K) (distinct : keys.Nodup) (key : K) (count : Nat) :
    ((keys.take (count + 1)).filter fun other => other != key).take count =
      (keys.filter fun other => other != key).take count := by
  induction keys generalizing count with
  | nil => rfl
  | cons first rest inductionHypothesis =>
      obtain ⟨fresh, restDistinct⟩ := List.nodup_cons.mp distinct
      by_cases same : first = key
      · subst same
        have kept : rest.filter (fun other => other != first) = rest := by
          rw [List.filter_eq_self]
          intro other member
          exact bne_iff_ne.mpr fun equal => fresh (equal ▸ member)
        have keptTaken : (rest.take count).filter (fun other => other != first) =
            rest.take count := by
          rw [List.filter_eq_self]
          intro other member
          exact bne_iff_ne.mpr fun equal => fresh (equal ▸ List.mem_of_mem_take member)
        simp [kept, keptTaken]
      · cases count with
        | zero => rfl
        | succ count => simpa [same] using inductionHypothesis restDistinct count

end Order

/-! ### What a bounded map keeps -/

namespace Lru

/-- The map holds the recent keys in the order of their last touches. -/
def Holds (cache : Lru K V) (touched : List K) (value : K → V) : Prop :=
  cache.entries = ((recency touched).take cache.capacity).map fun key => (key, value key)

section Holds

variable {cache : Lru K V} {touched : List K} {value : K → V}

@[simp] theorem capacity_put (cache : Lru K V) (key : K) (new : V) :
    (cache.put key new).capacity = cache.capacity := rfl

theorem capacity_get (cache : Lru K V) (key : K) : (cache.get key).2.capacity = cache.capacity := by
  unfold get
  split <;> rfl

theorem holds_empty (capacity : Nat) (value : K → V) :
    (empty capacity : Lru K V).Holds [] value := by
  simp [Holds, recency, empty]

theorem lookup_map_key (keys : List K) (value : K → V) (key : K) :
    (keys.map fun other => (other, value other)).lookup key =
      if key ∈ keys then some (value key) else none := by
  induction keys with
  | nil => rfl
  | cons first rest inductionHypothesis =>
      rw [List.map_cons, List.lookup_cons, inductionHypothesis]
      by_cases same : key = first
      · subst same
        simp
      · have unequal : (key == first) = false := beq_eq_false_iff_ne.mpr same
        simp [same, unequal]

theorem Holds.peek_eq (holds : cache.Holds touched value) (key : K) :
    cache.peek key = if Recent cache.capacity touched key then some (value key) else none := by
  rw [peek, holds, lookup_map_key]
  simp only [mem_take_recency]

theorem without_map (keys : List K) (value : K → V) (key : K) :
    without (keys.map fun other => (other, value other)) key =
      (keys.filter fun other => other != key).map fun other => (other, value other) := by
  unfold without
  rw [List.filter_map]
  rfl

/-- Writing a key touches it. -/
theorem Holds.put (holds : cache.Holds touched value) (key : K) (new : V) :
    (cache.put key new).Holds (key :: touched) (Function.update value key new) := by
  obtain ⟨count, capacity⟩ := Nat.exists_eq_succ_of_ne_zero (Nat.ne_of_gt cache.capacityPos)
  have others : ∀ other ∈ ((recency touched).filter fun other => other != key).take count,
      (other, value other) = (other, Function.update value key new other) := by
    intro other member
    have different := List.of_mem_filter (List.mem_of_mem_take member)
    rw [Function.update_of_ne (bne_iff_ne.mp different)]
  change ((key, new) :: without cache.entries key).take cache.capacity =
    ((recency (key :: touched)).take cache.capacity).map _
  rw [holds, without_map, capacity, List.take_succ_cons, ← List.map_take,
    take_filter_take _ (nodup_recency touched), recency, List.take_succ_cons, List.map_cons,
    Function.update_self, List.map_congr_left others]

/-- A hit moves the key to the front, as writing its value back would. -/
theorem get_entries_of_hit {key : K} {found : V} (hit : cache.peek key = some found) :
    (cache.get key).2.entries = (cache.put key found).entries := by
  unfold get
  split
  · rename_i missing
    rw [peek, missing] at hit
    cases hit
  · rename_i stored present
    rw [peek, present, Option.some_inj] at hit
    subst hit
    have fits : ((key, stored) :: without cache.entries key).length ≤ cache.capacity :=
      (Nat.succ_le_of_lt (length_without_lt present)).trans cache.bounded
    exact (List.take_of_length_le fits).symm

/-- Reading a key that the map holds touches it, reading another changes nothing. -/
theorem Holds.get (holds : cache.Holds touched value) (key : K) :
    (cache.get key).2.Holds
      (if Recent cache.capacity touched key then key :: touched else touched) value := by
  have read := holds.peek_eq key
  by_cases recent : Recent cache.capacity touched key
  · rw [if_pos recent] at read ⊢
    have written := holds.put key (value key)
    rw [Function.update_eq_self] at written
    rw [Holds, get_entries_of_hit read, capacity_get]
    exact written
  · rw [if_neg recent] at read ⊢
    rw [Holds, capacity_get, Lru.get]
    split
    · exact holds
    · rename_i found present
      rw [peek, present] at read
      cases read

end Holds

end Lru

end Disburse.Library
