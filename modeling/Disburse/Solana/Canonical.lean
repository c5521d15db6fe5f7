import Disburse.Config
import Disburse.Solana.Transaction

/-!
Owns the converse of the round trip: which byte strings the blockhash reader
accepts are serialized transactions. They are those whose two counts are
written in the shortest way; a count that ends in a superfluous zero byte is
read as well, and no transaction serializes to it.
-/

namespace Disburse

/-- The count at the front has bytes with the high bit set and then a zero byte,
which adds nothing to it. -/
def Overlong (bytes : Bytes) : Prop :=
  ∃ high rest, high ≠ [] ∧ (∀ byte ∈ high, 128 ≤ byte.toNat) ∧ bytes = high ++ 0 :: rest

/-- Neither the count of signatures nor that of accounts is overlong. -/
structure CanonicalCounts (bytes : Bytes) : Prop where
  signatures : ¬ Overlong bytes
  accounts : ∀ sigCount sigBytes first, readShortvec bytes = some (sigCount, sigBytes) →
    bytes[sigBytes + sigCount * 64]? = some first →
      ¬ Overlong (bytes.drop (accountsStart (sigBytes + sigCount * 64) first))

/-! ### What a count is read from -/

/-- The bytes of a count, by their number. -/
inductive CountBytes : Bytes → Nat → Nat → Prop where
  | one {low : UInt8} (rest : Bytes) (clear : low.toNat < 128) :
      CountBytes (low :: rest) low.toNat 1
  | two {low high : UInt8} (rest : Bytes) (set : 128 ≤ low.toNat) (clear : high.toNat < 128) :
      CountBytes (low :: high :: rest) (low.toNat % 128 + high.toNat * 128) 2
  | three {low middle high : UInt8} (rest : Bytes) (set : 128 ≤ low.toNat)
      (setMiddle : 128 ≤ middle.toNat) (clear : high.toNat < 128)
      (fits : low.toNat % 128 + middle.toNat % 128 * 128 + high.toNat * 16384 ≤ 65535) :
      CountBytes (low :: middle :: high :: rest)
        (low.toNat % 128 + middle.toNat % 128 * 128 + high.toNat * 16384) 3

/-- One byte more: it ends the count, or another one follows. -/
theorem readShortvecFrom_succ {bytes : Bytes} {val shift i remaining : Nat} {read : Nat × Nat}
    (below : val < 2 ^ shift)
    (found : readShortvecFrom bytes val shift i (remaining + 1) = some read) :
    ∃ byte, bytes[i]? = some byte ∧
      ((byte.toNat < 128 ∧ val + byte.toNat * 2 ^ shift ≤ 65535 ∧
          read = (val + byte.toNat * 2 ^ shift, i + 1)) ∨
        (128 ≤ byte.toNat ∧
          readShortvecFrom bytes (val + byte.toNat % 128 * 2 ^ shift) (shift + 7) (i + 1)
            remaining = some read)) := by
  cases lookup : bytes[i]? with
  | none => simp [readShortvecFrom, lookup] at found
  | some byte =>
      refine ⟨byte, rfl, ?_⟩
      by_cases clear : byte.toNat < 128
      · left
        by_cases fits : val + byte.toNat * 2 ^ shift ≤ 65535
        · rw [readShortvecFrom_last lookup rfl below clear fits, Option.some_inj] at found
          exact ⟨clear, fits, found.symm⟩
        · have payload : byte.toNat % 128 = byte.toNat := Nat.mod_eq_of_lt clear
          simp only [readShortvecFrom, lookup, Option.bind_eq_bind, Option.bind_some,
            (highBit_eq_zero byte).mpr clear, ↓reduceIte, payload_eq_mod, or_shift_eq_add below,
            payload] at found
          rw [if_pos (Nat.not_le.mp fits)] at found
          cases found
      · right
        rw [readShortvecFrom_more lookup rfl below (Nat.not_lt.mp clear)] at found
        exact ⟨Nat.not_lt.mp clear, found⟩

theorem readShortvec_countBytes {bytes : Bytes} {count size : Nat}
    (read : readShortvec bytes = some (count, size)) : CountBytes bytes count size := by
  obtain ⟨low, first, ended | ⟨set, more⟩⟩ := readShortvecFrom_succ (by norm_num) read
  · obtain ⟨clear, -, result⟩ := ended
    obtain ⟨rest, rfl⟩ : ∃ rest, bytes = low :: rest := List.head?_eq_some_iff.mp (by
      rw [List.head?_eq_getElem?, first])
    rw [Prod.mk.injEq] at result
    rw [result.1, result.2]
    simpa using CountBytes.one rest clear
  obtain ⟨rest, rfl⟩ : ∃ rest, bytes = low :: rest := List.head?_eq_some_iff.mp (by
    rw [List.head?_eq_getElem?, first])
  obtain ⟨middle, second, ended | ⟨setMiddle, more⟩⟩ := readShortvecFrom_succ (by omega) more
  · obtain ⟨clear, -, result⟩ := ended
    obtain ⟨rest, rfl⟩ : ∃ others, rest = middle :: others := List.head?_eq_some_iff.mp (by
      rw [List.head?_eq_getElem?]
      exact second)
    rw [Prod.mk.injEq] at result
    rw [result.1, result.2]
    simpa using CountBytes.two rest set clear
  obtain ⟨rest, rfl⟩ : ∃ others, rest = middle :: others := List.head?_eq_some_iff.mp (by
    rw [List.head?_eq_getElem?]
    exact second)
  obtain ⟨high, third, ended | ⟨-, beyond⟩⟩ := readShortvecFrom_succ (by omega) more
  · obtain ⟨clear, fits, result⟩ := ended
    obtain ⟨rest, rfl⟩ : ∃ others, rest = high :: others := List.head?_eq_some_iff.mp (by
      rw [List.head?_eq_getElem?]
      exact third)
    rw [Prod.mk.injEq] at result
    rw [result.1, result.2]
    have total : 0 + low.toNat % 128 * 2 ^ 0 + middle.toNat % 128 * 2 ^ (0 + 7) +
        high.toNat * 2 ^ (0 + 7 + 7) =
        low.toNat % 128 + middle.toNat % 128 * 128 + high.toNat * 16384 := by
      norm_num
    rw [total] at fits ⊢
    exact .three rest set setMiddle clear fits
  · cases beyond

/-! ### Overlong counts -/

theorem not_overlong_of_clear {low : UInt8} {rest : Bytes} (clear : low.toNat < 128) :
    ¬ Overlong (low :: rest) := by
  rintro ⟨high, others, filled, set, same⟩
  cases high with
  | nil => exact filled rfl
  | cons first more =>
      rw [List.cons_append, List.cons.injEq] at same
      have large := set first List.mem_cons_self
      rw [← same.1] at large
      omega

/-- Behind a byte with the high bit set the count is overlong when it ends there in
a zero, or is overlong from there on. -/
theorem overlong_cons {low : UInt8} {rest : Bytes} (set : 128 ≤ low.toNat) :
    Overlong (low :: rest) ↔ rest.head? = some 0 ∨ Overlong rest := by
  constructor
  · rintro ⟨high, others, filled, large, same⟩
    cases high with
    | nil => exact absurd rfl filled
    | cons first more =>
        rw [List.cons_append, List.cons.injEq] at same
        cases more with
        | nil => exact .inl (by rw [same.2]; rfl)
        | cons second more =>
            exact .inr ⟨second :: more, others, by simp,
              fun byte member => large byte (List.mem_cons_of_mem _ member), same.2⟩
  · rintro (ended | ⟨high, others, -, large, rfl⟩)
    · obtain ⟨others, rfl⟩ := List.head?_eq_some_iff.mp ended
      exact ⟨[low], others, by simp, by simpa using set, rfl⟩
    · refine ⟨low :: high, others, by simp, fun byte member => ?_, rfl⟩
      rcases List.mem_cons.mp member with rfl | inside
      · exact set
      · exact large byte inside

theorem ofNat_eq {value : Nat} {byte : UInt8} (same : value = byte.toNat) :
    UInt8.ofNat value = byte := by
  rw [same, UInt8.ofNat_toNat]

theorem byte_eq_zero {byte : UInt8} : byte = 0 ↔ byte.toNat = 0 := by
  rw [← UInt8.toNat_inj]
  rfl

/-- The bytes of a count are its shortest encoding unless they are overlong. -/
theorem CountBytes.shortest_iff {bytes : Bytes} {count size : Nat}
    (found : CountBytes bytes count size) :
    bytes.take size = encodeShortvec count ↔ ¬ Overlong bytes := by
  cases found with
  | @one low rest clear =>
      refine iff_of_true ?_ (not_overlong_of_clear clear)
      rw [encodeShortvec, if_pos clear, UInt8.ofNat_toNat]
      rfl
  | @two low high rest set clear =>
      have small := low.toNat_lt
      rw [overlong_cons set, List.head?_cons, Option.some_inj, byte_eq_zero]
      by_cases zero : high.toNat = 0
      · refine iff_of_false (fun same => ?_) (not_not.mpr (.inl zero))
        have lengths := congrArg List.length same
        rw [encodeShortvec, if_pos (by omega)] at lengths
        simp at lengths
      · refine iff_of_true ?_ (not_or.mpr ⟨zero, not_overlong_of_clear clear⟩)
        rw [encodeShortvec, if_neg (by omega), if_pos (by omega),
          ofNat_eq (show (low.toNat % 128 + high.toNat * 128) % 128 + 128 = low.toNat by omega),
          ofNat_eq (show (low.toNat % 128 + high.toNat * 128) / 128 = high.toNat by omega)]
        rfl
  | @three low middle high rest set setMiddle clear fits =>
      have small := low.toNat_lt
      have smallMiddle := middle.toNat_lt
      have notZero : ¬ middle.toNat = 0 := by omega
      rw [overlong_cons set, overlong_cons setMiddle, List.head?_cons, List.head?_cons,
        Option.some_inj, Option.some_inj, byte_eq_zero, byte_eq_zero]
      by_cases zero : high.toNat = 0
      · refine iff_of_false (fun same => ?_) (not_not.mpr (.inr (.inl zero)))
        have lengths := congrArg List.length same
        rw [zero, encodeShortvec] at lengths
        split at lengths
        · simp at lengths
        · rw [if_pos (by omega)] at lengths
          simp at lengths
      · refine iff_of_true ?_ (not_or.mpr ⟨notZero, not_or.mpr
          ⟨zero, not_overlong_of_clear clear⟩⟩)
        rw [encodeShortvec, if_neg (by omega), if_neg (by omega),
          ofNat_eq (show (low.toNat % 128 + middle.toNat % 128 * 128 + high.toNat * 16384) % 128
            + 128 = low.toNat by omega),
          ofNat_eq (show (low.toNat % 128 + middle.toNat % 128 * 128 + high.toNat * 16384) / 128
            % 128 + 128 = middle.toNat by omega),
          ofNat_eq (show (low.toNat % 128 + middle.toNat % 128 * 128 + high.toNat * 16384) / 16384
            = high.toNat by omega)]
        rfl

theorem CountBytes.bound {bytes : Bytes} {count size : Nat}
    (found : CountBytes bytes count size) : count ≤ 65535 := by
  cases found with
  | one rest clear => omega
  | two rest set clear => omega
  | three rest set setMiddle clear fits => exact fits

/-- A count that is not overlong stands in front as its shortest encoding. -/
theorem eq_encode_append {bytes : Bytes} {count size : Nat}
    (read : readShortvec bytes = some (count, size)) (canonical : ¬ Overlong bytes) :
    bytes = encodeShortvec count ++ bytes.drop size ∧ count ≤ 65535 := by
  have found := readShortvec_countBytes read
  rw [← found.shortest_iff.mpr canonical, List.take_append_drop]
  exact ⟨rfl, found.bound⟩

theorem not_overlong_encode {count : Nat} (bound : count ≤ 65535) (rest : Bytes) :
    ¬ Overlong (encodeShortvec count ++ rest) := by
  have found := readShortvec_countBytes (readShortvec_encode bound rest)
  exact found.shortest_iff.mp List.take_left

/-! ### Accepted bytes -/

/-- Bytes of the right length are parts of one size. -/
theorem exists_parts (size count : Nat) (bytes : Bytes) (whole : bytes.length = count * size) :
    ∃ parts : List Bytes, parts.length = count ∧ (∀ part ∈ parts, part.length = size) ∧
      parts.flatten = bytes := by
  induction count generalizing bytes with
  | zero =>
      rw [Nat.zero_mul, List.length_eq_zero_iff] at whole
      exact ⟨[], rfl, by simp, whole.symm⟩
  | succ count inductionHypothesis =>
      rw [Nat.succ_mul] at whole
      obtain ⟨parts, many, sizes, same⟩ := inductionHypothesis (bytes.drop size) (by
        rw [List.length_drop]
        omega)
      refine ⟨bytes.take size :: parts, by rw [List.length_cons, many], ?_, ?_⟩
      · intro part member
        rcases List.mem_cons.mp member with rfl | inside
        · rw [List.length_take]
          omega
        · exact sizes part inside
      · rw [List.flatten_cons, same, List.take_append_drop]

theorem take_append_drop_add (bytes : Bytes) (start size : Nat) :
    (bytes.drop start).take size ++ bytes.drop (start + size) = bytes.drop start := by
  rw [← List.drop_drop, List.take_append_drop]

theorem drop_three {bytes : Bytes} {start : Nat} (inside : start + 3 ≤ bytes.length) :
    ∃ first second third, bytes.drop start = first :: second :: third :: bytes.drop (start + 3) :=
  ⟨_, _, _, by
    rw [List.drop_eq_getElem_cons (by omega), List.drop_eq_getElem_cons (by omega),
      List.drop_eq_getElem_cons (by omega)]⟩

/-- The message before its accounts: a version byte if the first byte has its high
bit set, and the header. -/
theorem exists_header {bytes : Bytes} {cursor : Nat} {first : UInt8}
    (byte : bytes[cursor]? = some first) (inside : accountsStart cursor first ≤ bytes.length) :
    ∃ (version : Option UInt8) (header : UInt8 × UInt8 × UInt8),
      bytes.drop cursor = version.toList ++ (header.1 :: header.2.1 :: header.2.2 ::
        bytes.drop (accountsStart cursor first)) ∧
      (∀ byte, version = some byte → 128 ≤ byte.toNat) ∧
      (version = none → header.1.toNat < 128) := by
  obtain ⟨present, here⟩ := List.getElem?_eq_some_iff.mp byte
  have front : bytes.drop cursor = first :: bytes.drop (cursor + 1) := by
    rw [List.drop_eq_getElem_cons present, here]
  by_cases clear : first.toNat &&& 0x80 = 0
  · have start : accountsStart cursor first = cursor + 3 := by
      rw [accountsStart, if_neg (not_not.mpr clear)]
    rw [start] at inside ⊢
    obtain ⟨head, second, third, whole⟩ := drop_three inside
    have same : first = head := (List.cons.inj (front.symm.trans whole)).1
    refine ⟨none, (head, second, third), whole, fun byte found => (by cases found), fun _ => ?_⟩
    rw [← same]
    exact (highBit_eq_zero first).mp clear
  · have start : accountsStart cursor first = cursor + 1 + 3 := by
      rw [accountsStart, if_pos clear]
    rw [start] at inside ⊢
    obtain ⟨head, second, third, whole⟩ := drop_three inside
    refine ⟨some first, (head, second, third), ?_, fun byte found => ?_, fun missing => ?_⟩
    · rw [front, whole]
      rfl
    · rw [← Option.some_inj.mp found]
      exact Nat.not_lt.mp fun low => clear ((highBit_eq_zero first).mpr low)
    · cases missing

/-- Bytes with the blockhash in place and canonical counts are a transaction. -/
theorem exists_transaction {bytes : Bytes} {offset : Nat} (found : BlockhashAt bytes offset)
    (fits : offset + 32 ≤ bytes.length) (canonical : CanonicalCounts bytes) :
    ∃ tx : WireTransaction, bytes = tx.serialize ∧
      tx.blockhash = (bytes.drop offset).take 32 := by
  obtain ⟨sigCount, sigBytes, acctCount, acctBytes, first, signatures, byte, accounts, rfl⟩ := found
  have present := (List.getElem?_eq_some_iff.mp byte).1
  have inside := BlockhashAt.accountsStart_le accounts
  obtain ⟨signaturesFront, signatureBound⟩ := eq_encode_append signatures canonical.signatures
  obtain ⟨accountsFront, accountBound⟩ := eq_encode_append accounts
    (canonical.accounts sigCount sigBytes first signatures byte)
  obtain ⟨version, header, message, versionBit, legacyBit⟩ := exists_header byte inside
  generalize accountsStart (sigBytes + sigCount * 64) first = start at *
  obtain ⟨sigs, sigsLength, sigSizes, sigsWhole⟩ := exists_parts 64 sigCount
    ((bytes.drop sigBytes).take (sigCount * 64)) (by
      rw [List.length_take, List.length_drop]
      omega)
  obtain ⟨accts, acctsLength, acctSizes, acctsWhole⟩ := exists_parts 32 acctCount
    ((bytes.drop (start + acctBytes)).take (acctCount * 32)) (by
      rw [List.length_take, List.length_drop]
      omega)
  refine ⟨{ signatures := sigs
            version := version
            header := header
            accounts := accts
            blockhash := (bytes.drop (start + acctBytes + acctCount * 32)).take 32
            trailing := (bytes.drop (start + acctBytes + acctCount * 32)).drop 32
            signatureSize := sigSizes
            signatureCount := sigsLength ▸ signatureBound
            accountSize := acctSizes
            accountCount := acctsLength ▸ accountBound
            blockhashSize := ?_
            versionBit := versionBit
            legacyBit := legacyBit }, ?_, rfl⟩
  · rw [List.length_take, List.length_drop]
    omega
  · simp only [WireTransaction.serialize, WireTransaction.message, WireTransaction.tail]
    rw [sigsLength, acctsLength, sigsWhole, acctsWhole, List.take_append_drop,
      take_append_drop_add, ← List.drop_drop, ← accountsFront, ← message, take_append_drop_add,
      ← signaturesFront]

/-! ### Serialized transactions are canonical -/

theorem WireTransaction.canonicalCounts (tx : WireTransaction) :
    CanonicalCounts tx.serialize where
  signatures := not_overlong_encode tx.signatureCount _
  accounts := by
    intro sigCount sigBytes first signatures byte
    rw [tx.readShortvec_serialize, Option.some_inj, Prod.mk.injEq] at signatures
    rw [← signatures.1, ← signatures.2] at byte ⊢
    rw [show (encodeShortvec tx.signatures.length).length + tx.signatures.length * 64 =
      tx.messageStart from rfl] at byte ⊢
    rw [tx.serialize_drop_accountsStart byte]
    exact not_overlong_encode tx.accountCount _

/-- Accepted bytes are a serialized transaction with the blockhash that was read
exactly when neither count is overlong. -/
theorem extractBlockhash_wire_iff {external : External} {bytes : Bytes} {blockhash : String}
    (accepted : extractBlockhash external bytes = some blockhash) :
    (∃ tx : WireTransaction, bytes = tx.serialize ∧
        blockhash = external.bs58Encode tx.blockhash) ↔ CanonicalCounts bytes := by
  constructor
  · rintro ⟨tx, rfl, -⟩
    exact tx.canonicalCounts
  · intro canonical
    obtain ⟨offset, found, fits, rfl⟩ := extractBlockhash_eq_some.mp accepted
    obtain ⟨tx, whole, same⟩ := exists_transaction found fits canonical
    exact ⟨tx, whole, by rw [same]⟩

/-! ### One count, two texts -/

/-- A transaction with one signature and one account. -/
def WireTransaction.signed : WireTransaction where
  signatures := [List.replicate 64 7]
  version := none
  header := (1, 0, 0)
  accounts := [List.replicate 32 1]
  blockhash := List.replicate 32 9
  trailing := []
  signatureSize := by decide
  signatureCount := by decide
  accountSize := by decide
  accountCount := by decide
  blockhashSize := by decide
  versionBit := WireTransaction.versionBit_of_legacy
  legacyBit := by decide

theorem extractBlockhash_wire_iff_signed :
    extractBlockhash .plain WireTransaction.signed.serialize =
        some (External.plain.bs58Encode WireTransaction.signed.blockhash) ∧
      CanonicalCounts WireTransaction.signed.serialize := by
  have accepted := extractBlockhash_serialize .plain .signed
  exact ⟨accepted, (extractBlockhash_wire_iff accepted).mp ⟨.signed, rfl, rfl⟩⟩

/-- The same message and signature, with the one signature counted in two bytes. -/
def paddedTransaction : Bytes :=
  0x81 :: 0 :: (WireTransaction.signed.signatures.flatten ++ WireTransaction.signed.message)

/-- The padded bytes are accepted and no transaction serializes to them. -/
theorem paddedTransaction_accepted :
    extractBlockhash .plain paddedTransaction =
        some (External.plain.bs58Encode WireTransaction.signed.blockhash) ∧
      ∀ tx : WireTransaction, paddedTransaction ≠ tx.serialize := by
  constructor
  · have found : BlockhashAt paddedTransaction 102 :=
      ⟨1, 2, 1, 1, 1, by decide +kernel, by decide +kernel, by decide +kernel, by decide +kernel⟩
    have blockhash : WireTransaction.signed.blockhash = (paddedTransaction.drop 102).take 32 := by
      decide +kernel
    exact extractBlockhash_eq_some.mpr ⟨102, found, by decide +kernel, by rw [blockhash]⟩
  · intro tx same
    have overlong : Overlong paddedTransaction :=
      ⟨[0x81], WireTransaction.signed.signatures.flatten ++ WireTransaction.signed.message,
        by simp, by simp, rfl⟩
    rw [same] at overlong
    exact tx.canonicalCounts.signatures overlong

end Disburse
