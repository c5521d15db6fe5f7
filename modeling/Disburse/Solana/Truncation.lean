import Disburse.Solana.Transaction

/-!
Owns what the blockhash reader does on bytes that are not a whole transaction:
a transaction cut before the end of its blockhash, and bytes of any other kind,
with the indexing and slicing of the source as operations that can fail.
-/

namespace Disburse

/-! ### Indexing and slicing that can fail -/

/-- The two ways to leave the bounds of a byte slice. -/
inductive SliceFault where
  | index
  | range
deriving DecidableEq, Repr

/-- `bytes[cursor]` -/
def indexAt (bytes : Bytes) (cursor : Nat) : Except SliceFault UInt8 :=
  match bytes[cursor]? with
  | some byte => .ok byte
  | none => .error .index

/-- `&bytes[start..stop]` -/
def sliceRange (bytes : Bytes) (start stop : Nat) : Except SliceFault Bytes :=
  if start ≤ stop ∧ stop ≤ bytes.length then .ok ((bytes.drop start).take (stop - start))
  else .error .range

/-- `extractBlockhash` with the two unchecked accesses of the source as such. -/
def extractBlockhashChecked (external : External) (txBytes : Bytes) :
    Except SliceFault (Option String) :=
  match (getFrom txBytes 0).bind readShortvec with
  | none => .ok none
  | some (sigCount, sigBytes) =>
      let cursor := sigBytes + sigCount * 64
      if txBytes.length ≤ cursor then .ok none
      else do
        let first ← indexAt txBytes cursor
        let cursor := if first.toNat &&& 0x80 ≠ 0 then cursor + 1 else cursor
        let cursor := cursor + 3
        match (getFrom txBytes cursor).bind readShortvec with
        | none => .ok none
        | some (acctCount, acctBytes) =>
            let cursor := cursor + acctBytes + acctCount * 32
            if txBytes.length < cursor + 32 then .ok none
            else do
              let blockhash ← sliceRange txBytes cursor (cursor + 32)
              .ok (some (external.bs58Encode blockhash))

theorem indexAt_eq_ok {bytes : Bytes} {cursor : Nat} (inside : cursor < bytes.length) :
    indexAt bytes cursor = .ok bytes[cursor] := by
  rw [indexAt, List.getElem?_eq_getElem inside]

theorem sliceRange_eq_ok {bytes : Bytes} {start size : Nat}
    (inside : start + size ≤ bytes.length) :
    sliceRange bytes start (start + size) = .ok ((bytes.drop start).take size) := by
  rw [sliceRange, if_pos ⟨Nat.le_add_right start size, inside⟩, Nat.add_sub_cancel_left]

/-- The length test in front of the slice is enough for it. -/
theorem blockhashSlice_eq_ok (external : External) (bytes : Bytes) (cursor : Nat) :
    (if bytes.length < cursor + 32 then (.ok none : Except SliceFault (Option String))
      else do
        let blockhash ← sliceRange bytes cursor (cursor + 32)
        .ok (some (external.bs58Encode blockhash))) =
      .ok (if bytes.length < cursor + 32 then none
        else some (external.bs58Encode ((bytes.drop cursor).take 32))) := by
  by_cases short : bytes.length < cursor + 32
  · rw [if_pos short, if_pos short]
  · rw [if_neg short, if_neg short, sliceRange_eq_ok (Nat.not_lt.mp short)]
    rfl

/-- No access leaves the bounds, on any bytes. -/
theorem extractBlockhashChecked_eq_ok (external : External) (bytes : Bytes) :
    extractBlockhashChecked external bytes = .ok (extractBlockhash external bytes) := by
  have whole : getFrom bytes 0 = some bytes := rfl
  simp only [extractBlockhashChecked, extractBlockhash, whole, Option.bind_eq_bind,
    Option.bind_some]
  cases signatures : readShortvec bytes with
  | none => rfl
  | some count =>
      obtain ⟨sigCount, sigBytes⟩ := count
      simp only [Option.bind_some]
      by_cases inside : sigBytes + sigCount * 64 < bytes.length
      · rw [if_neg (Nat.not_le.mpr inside), dif_pos inside, indexAt_eq_ok inside]
        simp only [bind, Except.bind]
        cases tailFrom : getFrom bytes _ with
        | none => rfl
        | some suffix =>
            simp only [Option.bind_some]
            cases accounts : readShortvec suffix with
            | none => rfl
            | some count =>
                obtain ⟨acctCount, acctBytes⟩ := count
                exact blockhashSlice_eq_ok external bytes _
      · rw [if_pos (Nat.not_lt.mp inside), dif_neg inside]

/-! ### Cut transactions -/

namespace WireTransaction

/-- A transaction cut before the end of its blockhash is refused. -/
theorem extractBlockhash_take (external : External) (tx : WireTransaction) {cut : Nat}
    (before : cut < tx.serialize.length - tx.trailing.length) :
    extractBlockhash external (tx.serialize.take cut) = none := by
  cases extracted : extractBlockhash external (tx.serialize.take cut) with
  | none => rfl
  | some blockhash =>
      obtain ⟨offset, cutAt, fits, -⟩ := extractBlockhash_eq_some.mp extracted
      -- The counts that the cut left are those of the whole serialization.
      have wholeAt : BlockhashAt tx.serialize offset := by
        have appended := cutAt.append (tx.serialize.drop cut)
        rwa [List.take_append_drop] at appended
      have position := wholeAt.unique tx.blockhashAt
      have total := tx.serialize_length_blockhashStart
      rw [List.length_take] at fits
      omega

end WireTransaction

/-- Reading undoes serialization, refuses every cut that loses a byte of the
blockhash, and stays in bounds on all bytes. -/
theorem extractBlockhash_undoes_serialize (external : External) :
    (∀ tx : WireTransaction,
      extractBlockhashChecked external tx.serialize =
          .ok (some (external.bs58Encode tx.blockhash)) ∧
        ∀ cut < tx.serialize.length - tx.trailing.length,
          extractBlockhashChecked external (tx.serialize.take cut) = .ok none) ∧
      ∀ bytes fault, extractBlockhashChecked external bytes ≠ .error fault := by
  refine ⟨fun tx => ⟨?_, fun cut before => ?_⟩, fun bytes fault faulted => ?_⟩
  · rw [extractBlockhashChecked_eq_ok, extractBlockhash_serialize]
  · rw [extractBlockhashChecked_eq_ok, tx.extractBlockhash_take external before]
  · rw [extractBlockhashChecked_eq_ok] at faulted
    cases faulted

end Disburse
