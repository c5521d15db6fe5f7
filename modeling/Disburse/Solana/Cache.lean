import Disburse.Config
import Disburse.Library.Lru

/-!
Owns the blockhash freshness cache: a bounded map from blockhash to slot that
keeps the highest slot inserted for a hash while the hash stays in the map.
-/

namespace Disburse

open Disburse.Library

structure BlockhashCache where
  inner : Lru String Nat
  createdAt : Instant
  warmupSecs : Nat

namespace BlockhashCache

def new (warmupSecs maxEntries : Nat) (createdAt : Instant) : BlockhashCache :=
  { inner := .empty maxEntries, createdAt := createdAt, warmupSecs := warmupSecs }

def insert (cache : BlockhashCache) (blockhash : String) (slot : Nat) : BlockhashCache :=
  let newSlot := max ((cache.inner.peek blockhash).getD 0) slot
  { cache with inner := cache.inner.put blockhash newSlot }

def getSlot (cache : BlockhashCache) (blockhash : String) : Option Nat × BlockhashCache :=
  ((cache.inner.get blockhash).1, { cache with inner := (cache.inner.get blockhash).2 })

def isWarmedUp (cache : BlockhashCache) (now : Instant) : Bool :=
  cache.warmupSecs ≤ Duration.asSecs (now - cache.createdAt)

/-- The slot stored for a hash. -/
def slotOf (cache : BlockhashCache) (blockhash : String) : Option Nat :=
  cache.inner.peek blockhash

theorem getSlot_fst (cache : BlockhashCache) (blockhash : String) :
    (cache.getSlot blockhash).1 = cache.slotOf blockhash :=
  Lru.get_fst cache.inner blockhash

@[simp] theorem slotOf_getSlot (cache : BlockhashCache) (blockhash other : String) :
    (cache.getSlot blockhash).2.slotOf other = cache.slotOf other :=
  Lru.peek_get cache.inner blockhash other

theorem slotOf_insert_self (cache : BlockhashCache) (blockhash : String) (slot : Nat) :
    (cache.insert blockhash slot).slotOf blockhash =
      some (max ((cache.slotOf blockhash).getD 0) slot) :=
  Lru.peek_put_self cache.inner blockhash _

theorem max?_cons_getD (slot : Nat) (slots : List Nat) :
    (slot :: slots).max? = some (max (slots.max?.getD 0) slot) := by
  rw [List.max?_cons]
  cases slots.max? with
  | none => simp
  | some highest => simp [Nat.max_comm]

theorem slotOf_insert_other (cache : BlockhashCache) {blockhash other : String} (slot : Nat)
    (different : other ≠ blockhash) :
    (cache.insert blockhash slot).slotOf other = cache.slotOf other ∨
      (cache.insert blockhash slot).slotOf other = none :=
  Lru.peek_put_other cache.inner _ different

end BlockhashCache

/-- What a `getLatestBlockhash` response says: the hash and its context slot,
`fallback` when the response names no slot. -/
def blockhashObserved (fallback : Nat) (body : Json) : Option (String × Nat) :=
  ((body.pointer ["result", "value", "blockhash"]).bind Json.asStr).map fun blockhash =>
    (blockhash,
      ((body.pointer ["result", "context", "slot"]).bind Json.asU64).getD fallback)

/-- Insert what the response says, if anything, into whatever is kept by `insert`. -/
def observeWith {σ : Type} (insert : σ → String → Nat → σ) (kept : σ) (fallback : Nat)
    (body : Json) : σ :=
  match blockhashObserved fallback body with
  | some (blockhash, slot) => insert kept blockhash slot
  | none => kept

def BlockhashCache.observe (cache : BlockhashCache) (fallback : Nat) (body : Json) :
    BlockhashCache :=
  observeWith insert cache fallback body

end Disburse
