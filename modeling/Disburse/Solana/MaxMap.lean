import Disburse.Library.Recency
import Disburse.Solana.Cache
import Mathlib.Order.Bounds.Defs

/-!
Owns the map that the blockhash cache stands for: it keeps every slot of every
hash, and a hash counts as present while few others have been touched since its
own last touch. The cache answers every call as this map does.
-/

namespace Disburse

open Disburse.Library

/-- A call on the cache. -/
inductive CacheCall where
  | insert (blockhash : String) (slot : Nat)
  | getSlot (blockhash : String)
deriving DecidableEq, Repr

namespace BlockhashCache

def apply (cache : BlockhashCache) : CacheCall → BlockhashCache
  | .insert blockhash slot => cache.insert blockhash slot
  | .getSlot blockhash => (cache.getSlot blockhash).2

/-- A sequence of calls. -/
def run (cache : BlockhashCache) (calls : List CacheCall) : BlockhashCache :=
  calls.foldl apply cache

end BlockhashCache

/-- Touches of any number of hashes, and the slots of each. -/
structure MaxMap where
  /-- Newest first: a hash that was inserted, or read while it was present. -/
  touched : List String
  /-- The slots inserted for a hash since it last became present, newest first. -/
  slots : String → List Nat

namespace MaxMap

def empty : MaxMap := ⟨[], fun _ => []⟩

/-- The greatest slot of a present hash. -/
def getSlot (map : MaxMap) (capacity : Nat) (blockhash : String) : Option Nat :=
  if Recent capacity map.touched blockhash then (map.slots blockhash).max? else none

def apply (capacity : Nat) (map : MaxMap) : CacheCall → MaxMap
  | .insert blockhash slot =>
      let kept := if (map.getSlot capacity blockhash).isSome then map.slots blockhash else []
      { touched := blockhash :: map.touched
        slots := Function.update map.slots blockhash (slot :: kept) }
  | .getSlot blockhash =>
      if (map.getSlot capacity blockhash).isSome then
        { map with touched := blockhash :: map.touched }
      else map

def run (capacity : Nat) (calls : List CacheCall) : MaxMap :=
  calls.foldl (apply capacity) empty

/-- The greatest slot of a hash, 0 when there is none. -/
def highest (map : MaxMap) (blockhash : String) : Nat := (map.slots blockhash).max?.getD 0

theorem recent_of_isSome {capacity : Nat} {map : MaxMap} {blockhash : String}
    (present : (map.getSlot capacity blockhash).isSome = true) :
    Recent capacity map.touched blockhash := by
  by_contra old
  rw [getSlot, if_neg old] at present
  cases present

/-- The slots that an insertion keeps are those that the map answers from. -/
theorem max?_kept (capacity : Nat) (map : MaxMap) (blockhash : String) :
    (if (map.getSlot capacity blockhash).isSome then map.slots blockhash else []).max? =
      map.getSlot capacity blockhash := by
  split
  · rename_i present
    rw [getSlot, if_pos (recent_of_isSome present)]
  · rename_i absent
    exact (Option.not_isSome_iff_eq_none.mp absent).symm

/-- The cache holds the recent hashes of the map with their greatest slots. -/
structure Refines (capacity : Nat) (cache : BlockhashCache) (map : MaxMap) : Prop where
  capacity : cache.inner.capacity = capacity
  holds : cache.inner.Holds map.touched map.highest
  filled : ∀ blockhash ∈ map.touched, map.slots blockhash ≠ []

section Refines

variable {capacity : Nat} {cache : BlockhashCache} {map : MaxMap}

theorem max?_of_touched (refines : Refines capacity cache map) {blockhash : String}
    (touched : blockhash ∈ map.touched) :
    (map.slots blockhash).max? = some (map.highest blockhash) := by
  obtain ⟨slot, found⟩ := Option.isSome_iff_exists.mp
    (List.isSome_max?_of_ne_nil (refines.filled blockhash touched))
  rw [highest, found, Option.getD_some]

theorem getSlot_eq (refines : Refines capacity cache map) (blockhash : String) :
    map.getSlot capacity blockhash =
      if Recent capacity map.touched blockhash then some (map.highest blockhash) else none := by
  unfold getSlot
  split
  · rename_i recent
    exact max?_of_touched refines recent.1
  · rfl

theorem isSome_getSlot_iff (refines : Refines capacity cache map) {blockhash : String} :
    (map.getSlot capacity blockhash).isSome = true ↔
      Recent capacity map.touched blockhash := by
  constructor
  · exact recent_of_isSome
  · intro recent
    rw [getSlot_eq refines, if_pos recent]
    rfl

/-- The cache finds what the map does. -/
theorem slotOf_eq (refines : Refines capacity cache map) (blockhash : String) :
    cache.slotOf blockhash = map.getSlot capacity blockhash := by
  rw [getSlot_eq refines, BlockhashCache.slotOf, refines.holds.peek_eq, refines.capacity]

theorem refines_insert (refines : Refines capacity cache map) (blockhash : String) (slot : Nat) :
    Refines capacity (cache.insert blockhash slot)
      (map.apply capacity (.insert blockhash slot)) where
  capacity := refines.capacity
  holds := by
    have written := refines.holds.put blockhash (max ((cache.slotOf blockhash).getD 0) slot)
    have highest : (map.apply capacity (.insert blockhash slot)).highest =
        Function.update map.highest blockhash (max ((cache.slotOf blockhash).getD 0) slot) := by
      funext other
      by_cases same : other = blockhash
      · subst same
        have slots : (map.apply capacity (.insert other slot)).slots other =
            slot :: if (map.getSlot capacity other).isSome then map.slots other else [] :=
          Function.update_self _ _ _
        rw [slotOf_eq refines, Function.update_self, MaxMap.highest, slots,
          BlockhashCache.max?_cons_getD, max?_kept, Option.getD_some]
      · rw [Function.update_of_ne same]
        simp [MaxMap.highest, apply, same]
    rw [highest]
    exact written
  filled := by
    intro other touched
    by_cases same : other = blockhash
    · subst same
      simp [apply]
    · have before : other ∈ map.touched := by
        rcases List.mem_cons.mp touched with equal | member
        · exact absurd equal same
        · exact member
      simpa [apply, same] using refines.filled other before

theorem refines_getSlot (refines : Refines capacity cache map) (blockhash : String) :
    Refines capacity (cache.getSlot blockhash).2 (map.apply capacity (.getSlot blockhash)) := by
  have read := refines.holds.get blockhash
  rw [refines.capacity] at read
  have same : (cache.inner.get blockhash).2.capacity = capacity :=
    (Lru.capacity_get _ _).trans refines.capacity
  by_cases recent : Recent capacity map.touched blockhash
  · have touches : map.apply capacity (.getSlot blockhash) =
        { map with touched := blockhash :: map.touched } :=
      if_pos ((isSome_getSlot_iff refines).mpr recent)
    rw [if_pos recent] at read
    rw [touches]
    refine ⟨same, read, fun other member => ?_⟩
    rcases List.mem_cons.mp member with equal | before
    · exact equal ▸ refines.filled blockhash recent.1
    · exact refines.filled other before
  · have skips : map.apply capacity (.getSlot blockhash) = map :=
      if_neg (mt (isSome_getSlot_iff refines).mp recent)
    rw [if_neg recent] at read
    rw [skips]
    exact ⟨same, read, refines.filled⟩

/-- Every call keeps the two in step. -/
theorem refines_apply (refines : Refines capacity cache map) (call : CacheCall) :
    Refines capacity (cache.apply call) (map.apply capacity call) := by
  cases call with
  | insert blockhash slot => exact refines_insert refines blockhash slot
  | getSlot blockhash => exact refines_getSlot refines blockhash

end Refines

theorem refines_run {capacity : Nat} (positive : 0 < capacity) (warmupSecs : Nat)
    (createdAt : Instant) (calls : List CacheCall) :
    Refines capacity ((BlockhashCache.new warmupSecs capacity createdAt).run calls)
      (run capacity calls) := by
  induction calls using List.reverseRecOn with
  | nil =>
      refine ⟨Nat.max_eq_left positive, Lru.holds_empty capacity _, fun blockhash member => ?_⟩
      cases member
  | append_singleton calls call inductionHypothesis =>
      have next := refines_apply inductionHypothesis call
      rw [BlockhashCache.run, run, List.foldl_append, List.foldl_append]
      exact next

theorem run_snoc (capacity : Nat) (calls : List CacheCall) (call : CacheCall) :
    run capacity (calls ++ [call]) = (run capacity calls).apply capacity call := by
  rw [run, List.foldl_append]
  rfl

/-- A hash has been touched once it has been inserted. -/
theorem mem_touched_run {capacity : Nat} {calls : List CacheCall} {blockhash : String} :
    blockhash ∈ (run capacity calls).touched ↔ ∃ slot, .insert blockhash slot ∈ calls := by
  induction calls using List.reverseRecOn with
  | nil => simp [run, empty]
  | append_singleton calls call inductionHypothesis =>
      rw [run_snoc]
      cases call with
      | insert other slot =>
          simp only [apply, List.mem_cons, inductionHypothesis, List.mem_append,
            CacheCall.insert.injEq, List.not_mem_nil, or_false]
          constructor
          · rintro (rfl | ⟨found, member⟩)
            · exact ⟨slot, .inr ⟨rfl, rfl⟩⟩
            · exact ⟨found, .inl member⟩
          · rintro ⟨found, member | ⟨rfl, -⟩⟩
            · exact .inr ⟨found, member⟩
            · exact .inl rfl
      | getSlot other =>
          have inserted : (∃ slot, CacheCall.insert blockhash slot ∈
              calls ++ [CacheCall.getSlot other]) ↔
              ∃ slot, CacheCall.insert blockhash slot ∈ calls := by
            simp
          rw [inserted, ← inductionHypothesis, apply]
          split
          · rename_i present
            rw [List.mem_cons]
            constructor
            · rintro (rfl | member)
              · exact (recent_of_isSome present).1
              · exact member
            · exact .inr
          · rfl

/-- Every slot of a hash was inserted for it. -/
theorem inserted_of_mem_slots {capacity : Nat} {calls : List CacheCall} {blockhash : String}
    {slot : Nat} (member : slot ∈ (run capacity calls).slots blockhash) :
    .insert blockhash slot ∈ calls := by
  induction calls using List.reverseRecOn with
  | nil => cases member
  | append_singleton calls call inductionHypothesis =>
      rw [List.mem_append]
      rw [run_snoc] at member
      cases call with
      | getSlot other =>
          have same : ((run capacity calls).apply capacity (.getSlot other)).slots =
              (run capacity calls).slots := by
            rw [apply]
            split <;> rfl
          rw [same] at member
          exact Or.inl (inductionHypothesis member)
      | insert other new =>
          by_cases same : blockhash = other
          · subst same
            simp only [apply, Function.update_self, List.mem_cons] at member
            rcases member with rfl | kept
            · exact Or.inr List.mem_cons_self
            · split at kept
              · exact Or.inl (inductionHypothesis kept)
              · cases kept
          · simp only [apply, Function.update_of_ne same] at member
            exact Or.inl (inductionHypothesis member)

/-- While all inserted hashes fit, each of them is recent. -/
theorem recent_of_fits {capacity : Nat} {seen : Finset String} (fits : seen.card ≤ capacity)
    {calls : List CacheCall}
    (all : ∀ blockhash slot, .insert blockhash slot ∈ calls → blockhash ∈ seen)
    {blockhash : String} {slot : Nat} (inserted : .insert blockhash slot ∈ calls) :
    Recent capacity (run capacity calls).touched blockhash := by
  apply recent_of_subset fits _ (mem_touched_run.mpr ⟨slot, inserted⟩)
  intro other touched
  obtain ⟨found, member⟩ := mem_touched_run.mp touched
  exact all other found member

/-- While all inserted hashes fit, the map keeps every slot. -/
theorem mem_slots_iff {capacity : Nat} {seen : Finset String} (fits : seen.card ≤ capacity)
    {calls : List CacheCall}
    (all : ∀ blockhash slot, .insert blockhash slot ∈ calls → blockhash ∈ seen)
    {blockhash : String} {slot : Nat} :
    slot ∈ (run capacity calls).slots blockhash ↔ .insert blockhash slot ∈ calls := by
  refine ⟨inserted_of_mem_slots, fun inserted => ?_⟩
  induction calls using List.reverseRecOn generalizing slot with
  | nil => cases inserted
  | append_singleton calls call inductionHypothesis =>
      have earlier : ∀ blockhash slot, .insert blockhash slot ∈ calls → blockhash ∈ seen :=
        fun blockhash slot member => all blockhash slot (List.mem_append_left _ member)
      rw [run_snoc]
      cases call with
      | getSlot other =>
          have before : .insert blockhash slot ∈ calls := by simpa using inserted
          rw [apply]
          split <;> exact inductionHypothesis earlier before
      | insert other new =>
          by_cases same : blockhash = other
          · subst same
            simp only [apply, Function.update_self, List.mem_cons]
            rcases List.mem_append.mp inserted with before | last
            · have kept := inductionHypothesis earlier before
              have recent := recent_of_fits fits earlier before
              have present : ((run capacity calls).getSlot capacity blockhash).isSome = true := by
                rw [getSlot, if_pos recent]
                exact List.isSome_max?_of_mem kept
              rw [if_pos present]
              exact Or.inr kept
            · cases List.mem_singleton.mp last
              exact Or.inl rfl
          · have before : .insert blockhash slot ∈ calls := by
              simpa [same] using inserted
            simp only [apply, Function.update_of_ne same]
            exact inductionHypothesis earlier before

/-- While all inserted hashes fit, the map answers with the greatest slot of each. -/
theorem getSlot_of_fits {capacity : Nat} {seen : Finset String} (fits : seen.card ≤ capacity)
    {calls : List CacheCall}
    (all : ∀ blockhash slot, .insert blockhash slot ∈ calls → blockhash ∈ seen)
    (blockhash : String) :
    (run capacity calls).getSlot capacity blockhash =
      ((run capacity calls).slots blockhash).max? := by
  rw [getSlot]
  split
  · rfl
  · rename_i old
    have none : (run capacity calls).slots blockhash = [] := by
      apply List.eq_nil_iff_forall_not_mem.mpr
      intro slot member
      exact old (recent_of_fits fits all (inserted_of_mem_slots member))
    rw [none]
    rfl

end MaxMap

/-- The cache answers as the unbounded map does: with a hash exactly when it was
inserted and fewer than `capacity` distinct other hashes have been touched since
its last touch, and then with the greatest slot inserted since it was last absent. -/
theorem getSlot_of_run {capacity : Nat} (positive : 0 < capacity) (warmupSecs : Nat)
    (createdAt : Instant) (calls : List CacheCall) (blockhash : String) :
    let cache := (BlockhashCache.new warmupSecs capacity createdAt).run calls
    let map := MaxMap.run capacity calls
    (cache.getSlot blockhash).1 = map.getSlot capacity blockhash ∧
      ((cache.getSlot blockhash).1.isSome = true ↔
        (∃ slot, .insert blockhash slot ∈ calls) ∧
          (map.touched.takeWhile fun other => other != blockhash).toFinset.card < capacity) ∧
      ∀ slot, (cache.getSlot blockhash).1 = some slot →
        IsGreatest {inserted | inserted ∈ map.slots blockhash} slot := by
  intro cache map
  have refines : MaxMap.Refines capacity cache map :=
    MaxMap.refines_run positive warmupSecs createdAt calls
  have same : (cache.getSlot blockhash).1 = map.getSlot capacity blockhash := by
    rw [BlockhashCache.getSlot_fst, MaxMap.slotOf_eq refines]
  refine ⟨same, ?_, fun slot found => ?_⟩
  · rw [same, MaxMap.isSome_getSlot_iff refines, Recent, MaxMap.mem_touched_run]
  · rw [same] at found
    have recent := MaxMap.recent_of_isSome (Option.isSome_of_eq_some found)
    rw [MaxMap.getSlot, if_pos recent] at found
    exact List.max?_eq_some_iff.mp found

/-- With room for one hash a second one evicts the first, whose slot may then fall. -/
theorem getSlot_of_run_evicted :
    let calls : List CacheCall := [.insert "a" 5, .insert "b" 3, .insert "a" 4]
    (((BlockhashCache.new 30 1 0).run calls).getSlot "a").1 = some 4 ∧
      (((BlockhashCache.new 30 1 0).run calls).getSlot "b").1 = none := by
  intro calls
  have first := (getSlot_of_run Nat.one_pos 30 0 calls "a").1
  have second := (getSlot_of_run Nat.one_pos 30 0 calls "b").1
  exact ⟨first.trans (by decide +kernel), second.trans (by decide +kernel)⟩

end Disburse
