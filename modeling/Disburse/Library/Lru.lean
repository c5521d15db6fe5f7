import Mathlib.Data.List.Nodup
import Mathlib.Order.Nat

/-!
Owns a bounded map that forgets the least recently used key: reads and writes
move a key to the front, `peek` does not, and writing a new key into a full
map drops the last one.
-/

namespace Disburse.Library

universe u v

variable {K : Type u} {V : Type v} [DecidableEq K]

/-- Entries, most recently used first, with distinct keys and at most
`capacity` of them. -/
structure Lru (K : Type u) (V : Type v) where
  capacity : Nat
  entries : List (K × V)
  capacityPos : 0 < capacity
  distinct : (entries.map Prod.fst).Nodup
  bounded : entries.length ≤ capacity

namespace Lru

/-- An empty map; `capacity` entries fit, at least one. -/
def empty (capacity : Nat) : Lru K V where
  capacity := max capacity 1
  entries := []
  capacityPos := Nat.lt_of_lt_of_le Nat.zero_lt_one (Nat.le_max_right _ _)
  distinct := List.nodup_nil
  bounded := Nat.zero_le _

/-- Entries of the other keys. -/
def without (entries : List (K × V)) (key : K) : List (K × V) :=
  entries.filter fun entry => entry.1 != key

theorem without_distinct {entries : List (K × V)} (distinct : (entries.map Prod.fst).Nodup)
    (key : K) (value : V) : (((key, value) :: without entries key).map Prod.fst).Nodup := by
  rw [List.map_cons, List.nodup_cons]
  constructor
  · intro member
    obtain ⟨entry, inside, same⟩ := List.mem_map.mp member
    have differs := (List.mem_filter.mp inside).2
    rw [bne_iff_ne] at differs
    exact differs same
  · exact (List.filter_sublist.map Prod.fst).nodup distinct

/-- The value of a key, leaving the order alone. -/
def peek (cache : Lru K V) (key : K) : Option V := cache.entries.lookup key

theorem length_without_lt {entries : List (K × V)} {key : K} {value : V}
    (found : entries.lookup key = some value) :
    (without entries key).length < entries.length := by
  obtain ⟨before, after, rfl, _⟩ := List.lookup_eq_some_iff.mp found
  apply List.length_filter_lt_length_iff_exists.mpr
  exact ⟨(key, value), by simp, by simp⟩

/-- The value of a key, which becomes the most recently used one. -/
def get (cache : Lru K V) (key : K) : Option V × Lru K V :=
  match found : cache.entries.lookup key with
  | none => (none, cache)
  | some value =>
      (some value,
        { cache with
          entries := (key, value) :: without cache.entries key
          distinct := without_distinct cache.distinct key value
          bounded := (Nat.succ_le_of_lt (length_without_lt found)).trans cache.bounded })

/-- Write a key, which becomes the most recently used one. -/
def put (cache : Lru K V) (key : K) (value : V) : Lru K V :=
  { cache with
    entries := ((key, value) :: without cache.entries key).take cache.capacity
    distinct := ((List.take_sublist _ _).map Prod.fst).nodup
      (without_distinct cache.distinct key value)
    bounded := List.length_take_le _ _ }

/-! ### Reading back -/

theorem lookup_without_other (entries : List (K × V)) {key other : K} (different : other ≠ key) :
    (without entries key).lookup other = entries.lookup other := by
  induction entries with
  | nil => rfl
  | cons entry rest inductionHypothesis =>
      rcases entry with ⟨entryKey, entryValue⟩
      by_cases removed : entryKey = key
      · subst removed
        have skipped : without ((entryKey, entryValue) :: rest) entryKey =
            without rest entryKey := by
          simp [without]
        have unequal : (other == entryKey) = false := beq_eq_false_iff_ne.mpr different
        rw [skipped, inductionHypothesis, List.lookup_cons, unequal]
      · have kept : without ((entryKey, entryValue) :: rest) key =
            (entryKey, entryValue) :: without rest key := by
          simp [without, removed]
        rw [kept, List.lookup_cons, List.lookup_cons, inductionHypothesis]

theorem lookup_take (entries : List (K × V)) (count : Nat) (key : K) :
    (entries.take count).lookup key = entries.lookup key ∨
      (entries.take count).lookup key = none := by
  induction entries generalizing count with
  | nil => simp
  | cons entry rest inductionHypothesis =>
      cases count with
      | zero => exact Or.inr rfl
      | succ count =>
          rw [List.take_succ_cons, List.lookup_cons, List.lookup_cons]
          cases key == entry.1 with
          | true => exact Or.inl rfl
          | false => exact inductionHypothesis count

theorem get_fst (cache : Lru K V) (key : K) : (cache.get key).1 = cache.peek key := by
  unfold get peek
  split
  · rename_i found
    exact found.symm
  · rename_i found
    exact found.symm

/-- Reading changes the order only. -/
theorem peek_get (cache : Lru K V) (key other : K) :
    (cache.get key).2.peek other = cache.peek other := by
  unfold get
  split
  · rfl
  · rename_i value found
    change ((key, value) :: without cache.entries key).lookup other = cache.entries.lookup other
    rw [List.lookup_cons]
    by_cases same : other = key
    · subst same
      simp [found]
    · have unequal : (other == key) = false := beq_eq_false_iff_ne.mpr same
      rw [lookup_without_other _ same, unequal]

theorem peek_put_self (cache : Lru K V) (key : K) (value : V) :
    (cache.put key value).peek key = some value := by
  change (((key, value) :: without cache.entries key).take cache.capacity).lookup key = _
  obtain ⟨count, capacity⟩ := Nat.exists_eq_succ_of_ne_zero (Nat.ne_of_gt cache.capacityPos)
  rw [capacity, List.take_succ_cons, List.lookup_cons, beq_self_eq_true]

/-- Writing a key keeps the value of every other key or drops it. -/
theorem peek_put_other (cache : Lru K V) {key other : K} (value : V) (different : other ≠ key) :
    (cache.put key value).peek other = cache.peek other ∨
      (cache.put key value).peek other = none := by
  have shortened := lookup_take ((key, value) :: without cache.entries key) cache.capacity other
  have unequal : (other == key) = false := beq_eq_false_iff_ne.mpr different
  rw [List.lookup_cons, unequal, lookup_without_other _ different] at shortened
  exact shortened

end Lru

end Disburse.Library
