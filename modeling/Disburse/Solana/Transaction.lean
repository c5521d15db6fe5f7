import Disburse.External
import Mathlib.Data.List.Basic
import Mathlib.Tactic.NormNum
import Mathlib.Tactic.Ring

/-!
Owns the part of the Solana wire format that the proxy reads: compact-u16
counts and the position of the recent blockhash in a serialized transaction.
`WireTransaction` is the format's own view, with the lengths as fields;
`extractBlockhash_serialize` connects the two.
-/

namespace Disburse

/-! ### Reading -/

/-- Bytes `i` to `2` of a count, with the value and shift so far. -/
def readShortvecFrom (bytes : Bytes) (val shift i : Nat) : Nat → Option (Nat × Nat)
  | 0 => none
  | remaining + 1 => do
      let b ← bytes[i]?
      let val := val ||| ((b.toNat &&& 0x7f) <<< shift)
      if b.toNat &&& 0x80 = 0 then
        if 65535 < val then none else some (val, i + 1)
      else readShortvecFrom bytes val (shift + 7) (i + 1) remaining

/-- A compact-u16 count and the number of bytes it took. -/
def readShortvec (bytes : Bytes) : Option (Nat × Nat) := readShortvecFrom bytes 0 0 0 3

/-- `bytes.get(cursor..)` -/
def getFrom (bytes : Bytes) (cursor : Nat) : Option Bytes :=
  if cursor ≤ bytes.length then some (bytes.drop cursor) else none

/-- The recent blockhash of a serialized transaction. The one unchecked index
of the source carries its bound. -/
def extractBlockhash (external : External) (txBytes : Bytes) : Option String := do
  let (sigCount, sigBytes) ← readShortvec (← getFrom txBytes 0)
  let cursor := sigBytes + sigCount * 64
  if inside : cursor < txBytes.length then
    let first := txBytes[cursor]
    let cursor := if first.toNat &&& 0x80 ≠ 0 then cursor + 1 else cursor
    let cursor := cursor + 3
    let (acctCount, acctBytes) ← readShortvec (← getFrom txBytes cursor)
    let cursor := cursor + acctBytes + acctCount * 32
    if txBytes.length < cursor + 32 then none
    else some (external.bs58Encode ((txBytes.drop cursor).take 32))
  else none

/-- Decode `params[0]` of a sendTransaction per the `encoding` option. -/
def decodeTx (external : External) (data encoding : String) : Option Bytes :=
  if encoding = "base58" then external.bs58Decode data else external.base64Decode data

/-! ### The wire format -/

/-- The shortest compact-u16 encoding of a count. -/
def encodeShortvec (count : Nat) : Bytes :=
  if count < 0x80 then [.ofNat count]
  else if count < 0x4000 then [.ofNat (count % 128 + 128), .ofNat (count / 128)]
  else [.ofNat (count % 128 + 128), .ofNat (count / 128 % 128 + 128), .ofNat (count / 16384)]

/-- A serialized transaction up to its blockhash, with anything after it.
A legacy message starts with its header, whose first byte has a clear high
bit; a versioned one with a version byte whose high bit is set. -/
structure WireTransaction where
  signatures : List Bytes
  version : Option UInt8
  header : UInt8 × UInt8 × UInt8
  accounts : List Bytes
  blockhash : Bytes
  trailing : Bytes
  signatureSize : ∀ signature ∈ signatures, signature.length = 64
  signatureCount : signatures.length ≤ 65535
  accountSize : ∀ account ∈ accounts, account.length = 32
  accountCount : accounts.length ≤ 65535
  blockhashSize : blockhash.length = 32
  versionBit : ∀ byte, version = some byte → 128 ≤ byte.toNat
  legacyBit : version = none → header.1.toNat < 128

namespace WireTransaction

/-- A legacy transaction has no version byte. -/
theorem versionBit_of_legacy : ∀ byte : UInt8, none = some byte → 128 ≤ byte.toNat := by
  simp

/-- Accounts, blockhash and what follows. -/
def tail (tx : WireTransaction) : Bytes :=
  encodeShortvec tx.accounts.length ++ (tx.accounts.flatten ++ (tx.blockhash ++ tx.trailing))

/-- The message with its optional version byte. -/
def message (tx : WireTransaction) : Bytes :=
  tx.version.toList ++ (tx.header.1 :: tx.header.2.1 :: tx.header.2.2 :: tx.tail)

def serialize (tx : WireTransaction) : Bytes :=
  encodeShortvec tx.signatures.length ++ (tx.signatures.flatten ++ tx.message)

end WireTransaction

/-! ### Counts -/

theorem payload_eq_mod (byte : UInt8) : byte.toNat &&& 0x7f = byte.toNat % 128 :=
  Nat.and_two_pow_sub_one_eq_mod byte.toNat 7

theorem highBit_eq_zero (byte : UInt8) : byte.toNat &&& 0x80 = 0 ↔ byte.toNat < 128 := by
  have table : ∀ value : Fin 256, value.val &&& 0x80 = 0 ↔ value.val < 128 := by
    decide +kernel
  exact table ⟨byte.toNat, byte.toNat_lt⟩

theorem or_shift_eq_add {val shift payload : Nat} (below : val < 2 ^ shift) :
    val ||| (payload <<< shift) = val + payload * 2 ^ shift := by
  have sum := Nat.two_pow_add_eq_or_of_lt below payload
  rw [Nat.shiftLeft_eq, Nat.or_comm, Nat.mul_comm payload, ← sum, Nat.add_comm]

/-- A byte with a clear high bit ends a count. -/
theorem readShortvecFrom_last {bytes : Bytes} {val shift i remaining value : Nat} {byte : UInt8}
    (lookup : bytes[i]? = some byte) (byteValue : byte.toNat = value) (below : val < 2 ^ shift)
    (clear : value < 128) (fits : val + value * 2 ^ shift ≤ 65535) :
    readShortvecFrom bytes val shift i (remaining + 1) =
      some (val + value * 2 ^ shift, i + 1) := by
  subst byteValue
  have payload : byte.toNat % 128 = byte.toNat := Nat.mod_eq_of_lt clear
  simp only [readShortvecFrom, lookup, Option.bind_eq_bind, Option.bind_some,
    (highBit_eq_zero byte).mpr clear, ↓reduceIte, payload_eq_mod, or_shift_eq_add below, payload]
  rw [if_neg (Nat.not_lt.mpr fits)]

/-- A byte with a set high bit is followed by another one. -/
theorem readShortvecFrom_more {bytes : Bytes} {val shift i remaining value : Nat} {byte : UInt8}
    (lookup : bytes[i]? = some byte) (byteValue : byte.toNat = value) (below : val < 2 ^ shift)
    (set : 128 ≤ value) :
    readShortvecFrom bytes val shift i (remaining + 1) =
      readShortvecFrom bytes (val + value % 128 * 2 ^ shift) (shift + 7) (i + 1) remaining := by
  subst byteValue
  have high : ¬ byte.toNat &&& 0x80 = 0 := fun zero =>
    Nat.not_lt.mpr set ((highBit_eq_zero byte).mp zero)
  simp only [readShortvecFrom, lookup, Option.bind_eq_bind, Option.bind_some, high, ↓reduceIte,
    payload_eq_mod, or_shift_eq_add below]

private theorem toNat_ofNat_of_lt {value : Nat} (below : value < 256) :
    (UInt8.ofNat value).toNat = value := by
  rw [UInt8.toNat_ofNat', Nat.mod_eq_of_lt (by simpa using below)]

/-- A count followed by anything reads back, with its own length. -/
theorem readShortvec_encode {count : Nat} (bound : count ≤ 65535) (rest : Bytes) :
    readShortvec (encodeShortvec count ++ rest) =
      some (count, (encodeShortvec count).length) := by
  unfold encodeShortvec readShortvec
  split
  · rename_i oneByte
    have byte := toNat_ofNat_of_lt (show count < 256 by omega)
    rw [readShortvecFrom_last rfl byte (by norm_num) (by omega) (by omega)]
    simp
  · split
    · rename_i above twoBytes
      have low := toNat_ofNat_of_lt (show count % 128 + 128 < 256 by omega)
      have high := toNat_ofNat_of_lt (show count / 128 < 256 by omega)
      rw [readShortvecFrom_more rfl low (by norm_num) (by omega),
        readShortvecFrom_last rfl high (by omega) (by omega) (by omega)]
      norm_num
      omega
    · rename_i above twoBytes
      have low := toNat_ofNat_of_lt (show count % 128 + 128 < 256 by omega)
      have middle := toNat_ofNat_of_lt (show count / 128 % 128 + 128 < 256 by omega)
      have high := toNat_ofNat_of_lt (show count / 16384 < 256 by omega)
      rw [readShortvecFrom_more rfl low (by norm_num) (by omega),
        readShortvecFrom_more rfl middle (by omega) (by omega),
        readShortvecFrom_last rfl high (by omega) (by omega) (by omega)]
      norm_num
      omega

/-! ### Where the blockhash is -/

/-- Offset of the account count, after the version byte and the header. -/
def accountsStart (cursor : Nat) (first : UInt8) : Nat :=
  (if first.toNat &&& 0x80 ≠ 0 then cursor + 1 else cursor) + 3

/-- The two counts of `bytes` put the blockhash at `offset`. -/
def BlockhashAt (bytes : Bytes) (offset : Nat) : Prop :=
  ∃ (sigCount sigBytes acctCount acctBytes : Nat) (first : UInt8),
    readShortvec bytes = some (sigCount, sigBytes) ∧
    bytes[sigBytes + sigCount * 64]? = some first ∧
    readShortvec (bytes.drop (accountsStart (sigBytes + sigCount * 64) first)) =
      some (acctCount, acctBytes) ∧
    offset = accountsStart (sigBytes + sigCount * 64) first + acctBytes + acctCount * 32

theorem BlockhashAt.unique {bytes : Bytes} {left right : Nat}
    (leftAt : BlockhashAt bytes left) (rightAt : BlockhashAt bytes right) : left = right := by
  obtain ⟨sigCount, sigBytes, acctCount, acctBytes, first, signatures, byte, accounts,
    rfl⟩ := leftAt
  obtain ⟨sigCount', sigBytes', acctCount', acctBytes', first', signatures', byte', accounts',
    rfl⟩ := rightAt
  cases signatures.symm.trans signatures'
  cases byte.symm.trans byte'
  cases accounts.symm.trans accounts'
  rfl

theorem readShortvecFrom_append {front : Bytes} {val shift i remaining : Nat} {count : Nat × Nat}
    (read : readShortvecFrom front val shift i remaining = some count) (rest : Bytes) :
    readShortvecFrom (front ++ rest) val shift i remaining = some count := by
  induction remaining generalizing val shift i with
  | zero => cases read
  | succ remaining inductionHypothesis =>
      unfold readShortvecFrom at read ⊢
      cases lookup : front[i]? with
      | none => simp [lookup] at read
      | some byte =>
          obtain ⟨inside, -⟩ := List.getElem?_eq_some_iff.mp lookup
          rw [List.getElem?_append_left inside, lookup]
          rw [lookup] at read
          simp only [Option.bind_eq_bind, Option.bind_some] at read ⊢
          split at read
          · rename_i last
            rw [if_pos last]
            exact read
          · rename_i more
            rw [if_neg more]
            exact inductionHypothesis read

theorem readShortvec_append {front : Bytes} {count : Nat × Nat}
    (read : readShortvec front = some count) (rest : Bytes) :
    readShortvec (front ++ rest) = some count :=
  readShortvecFrom_append read rest

theorem readShortvec_nil : readShortvec [] = none := rfl

/-- Bytes appended behind do not move the blockhash. -/
theorem BlockhashAt.append {front : Bytes} {offset : Nat} (frontAt : BlockhashAt front offset)
    (rest : Bytes) : BlockhashAt (front ++ rest) offset := by
  obtain ⟨sigCount, sigBytes, acctCount, acctBytes, first, signatures, byte, accounts, position⟩ :=
    frontAt
  obtain ⟨inside, -⟩ := List.getElem?_eq_some_iff.mp byte
  refine ⟨sigCount, sigBytes, acctCount, acctBytes, first, readShortvec_append signatures rest,
    ?_, ?_, position⟩
  · rw [List.getElem?_append_left inside]
    exact byte
  · rw [List.drop_append]
    exact readShortvec_append accounts _

theorem BlockhashAt.accountsStart_le {bytes : Bytes} {cursor : Nat} {first : UInt8}
    {count : Nat × Nat}
    (accounts : readShortvec (bytes.drop (accountsStart cursor first)) = some count) :
    accountsStart cursor first ≤ bytes.length := by
  by_contra outside
  rw [List.drop_eq_nil_of_le (by omega), readShortvec_nil] at accounts
  cases accounts

theorem getFrom_eq_some {bytes suffix : Bytes} {cursor : Nat} :
    getFrom bytes cursor = some suffix ↔ cursor ≤ bytes.length ∧ suffix = bytes.drop cursor := by
  rw [getFrom]
  split
  · rename_i inside
    simp [inside, eq_comm]
  · rename_i outside
    simp [outside]

/-- The reader succeeds exactly when the 32 bytes at the offset are there. -/
theorem extractBlockhash_eq_some {external : External} {bytes : Bytes} {blockhash : String} :
    extractBlockhash external bytes = some blockhash ↔
      ∃ offset, BlockhashAt bytes offset ∧ offset + 32 ≤ bytes.length ∧
        blockhash = external.bs58Encode ((bytes.drop offset).take 32) := by
  have whole : getFrom bytes 0 = some bytes := rfl
  simp only [extractBlockhash, whole, Option.bind_eq_bind, Option.bind_some]
  constructor
  · intro extracted
    obtain ⟨⟨sigCount, sigBytes⟩, signatures, extracted⟩ := Option.bind_eq_some_iff.mp extracted
    dsimp only at extracted
    split at extracted
    · rename_i inside
      have byte := List.getElem?_eq_getElem inside
      obtain ⟨suffix, tailFrom, read⟩ := Option.bind_eq_some_iff.mp extracted
      obtain ⟨-, rfl⟩ := getFrom_eq_some.mp tailFrom
      obtain ⟨⟨acctCount, acctBytes⟩, accounts, encoded⟩ := Option.bind_eq_some_iff.mp read
      obtain ⟨fits, found⟩ := Option.ite_none_left_eq_some.mp encoded
      refine ⟨_, ⟨sigCount, sigBytes, acctCount, acctBytes, _, signatures, byte, accounts, rfl⟩,
        Nat.not_lt.mp fits, ?_⟩
      exact (Option.some.inj found).symm
    · cases extracted
  · rintro ⟨offset, ⟨sigCount, sigBytes, acctCount, acctBytes, first, signatures, byte, accounts,
      rfl⟩, fits, rfl⟩
    have inside := BlockhashAt.accountsStart_le accounts
    obtain ⟨present, rfl⟩ := List.getElem?_eq_some_iff.mp byte
    rw [accountsStart] at inside accounts fits ⊢
    simp only [signatures, Option.bind_some, present, ↓reduceDIte, getFrom]
    rw [if_pos inside]
    simp only [Option.bind_some, accounts]
    rw [if_neg (Nat.not_lt.mpr fits)]

/-! ### Reading back a serialized transaction -/

private theorem length_flatten_of_size {parts : List Bytes} {size : Nat}
    (sizes : ∀ part ∈ parts, part.length = size) :
    parts.flatten.length = parts.length * size := by
  induction parts with
  | nil => simp
  | cons part rest inductionHypothesis =>
      have partSize := sizes part (by simp)
      have restSize := inductionHypothesis fun other member => sizes other (by simp [member])
      simp only [List.flatten_cons, List.length_append, List.length_cons, partSize, restSize]
      ring

private theorem drop_append_length {front rest : Bytes} {count : Nat}
    (size : front.length = count) : (front ++ rest).drop count = rest := by
  rw [← size, List.drop_left]

namespace WireTransaction

variable (tx : WireTransaction)

/-- Length of counts and signatures, the offset of the message. -/
def messageStart : Nat :=
  (encodeShortvec tx.signatures.length).length + tx.signatures.length * 64

theorem serialize_drop_messageStart : tx.serialize.drop tx.messageStart = tx.message := by
  rw [messageStart, serialize, ← List.append_assoc]
  apply drop_append_length
  rw [List.length_append, length_flatten_of_size tx.signatureSize]

theorem message_length : tx.message.length = tx.version.toList.length + 3 + tx.tail.length := by
  simp only [message, List.length_append, List.length_cons]
  ring

theorem serialize_length : tx.serialize.length = tx.messageStart + tx.message.length := by
  rw [messageStart, serialize, List.length_append, List.length_append,
    length_flatten_of_size tx.signatureSize]
  ring

/-- The first byte of the message tells a version byte from a header. -/
theorem message_head : ∃ first, tx.message.head? = some first ∧
    (first.toNat &&& 0x80 ≠ 0 ↔ tx.version.toList.length = 1) ∧
    (first.toNat &&& 0x80 = 0 ↔ tx.version.toList.length = 0) := by
  cases version : tx.version with
  | none =>
      refine ⟨tx.header.1, by simp [message, version], ?_⟩
      have clear := (highBit_eq_zero tx.header.1).mpr (tx.legacyBit version)
      simp [clear]
  | some byte =>
      refine ⟨byte, by simp [message, version], ?_⟩
      have high : ¬ byte.toNat &&& 0x80 = 0 := fun zero =>
        Nat.not_lt.mpr (tx.versionBit byte version) ((highBit_eq_zero byte).mp zero)
      simp [high]

theorem message_drop_header : tx.message.drop (tx.version.toList.length + 3) = tx.tail := by
  have split : tx.message =
      (tx.version.toList ++ [tx.header.1, tx.header.2.1, tx.header.2.2]) ++ tx.tail := by
    simp [message]
  rw [split]
  apply drop_append_length
  simp

theorem tail_drop_accounts :
    tx.tail.drop ((encodeShortvec tx.accounts.length).length + tx.accounts.length * 32) =
      tx.blockhash ++ tx.trailing := by
  rw [tail, ← List.append_assoc]
  apply drop_append_length
  rw [List.length_append, length_flatten_of_size tx.accountSize]

theorem tail_length :
    tx.tail.length = (encodeShortvec tx.accounts.length).length + tx.accounts.length * 32 + 32 +
      tx.trailing.length := by
  rw [tail, List.length_append, List.length_append, List.length_append,
    length_flatten_of_size tx.accountSize, tx.blockhashSize]
  ring

/-- Offset of the blockhash in the serialization. -/
def blockhashStart (tx : WireTransaction) : Nat :=
  tx.messageStart + (tx.version.toList.length + 3 +
    ((encodeShortvec tx.accounts.length).length + tx.accounts.length * 32))

theorem serialize_drop_blockhashStart :
    tx.serialize.drop tx.blockhashStart = tx.blockhash ++ tx.trailing := by
  rw [blockhashStart, ← List.drop_drop, tx.serialize_drop_messageStart, ← List.drop_drop,
    tx.message_drop_header, tx.tail_drop_accounts]

theorem serialize_length_blockhashStart :
    tx.serialize.length = tx.blockhashStart + 32 + tx.trailing.length := by
  rw [tx.serialize_length, tx.message_length, tx.tail_length, blockhashStart]
  ring

/-- The byte behind the signatures tells where the count of accounts is. -/
theorem accountsStart_message {first : UInt8}
    (byte : tx.serialize[tx.messageStart]? = some first) :
    accountsStart tx.messageStart first = tx.messageStart + (tx.version.toList.length + 3) := by
  obtain ⟨head, same, versioned, legacy⟩ := tx.message_head
  rw [← List.head?_drop, tx.serialize_drop_messageStart, same, Option.some_inj] at byte
  subst byte
  rw [accountsStart]
  by_cases set : head.toNat &&& 0x80 = 0
  · rw [if_neg (not_not.mpr set), legacy.mp set]
  · rw [if_pos set, versioned.mp set]

theorem serialize_drop_accountsStart {first : UInt8}
    (byte : tx.serialize[tx.messageStart]? = some first) :
    tx.serialize.drop (accountsStart tx.messageStart first) = tx.tail := by
  rw [tx.accountsStart_message byte, ← List.drop_drop, tx.serialize_drop_messageStart,
    tx.message_drop_header]

theorem readShortvec_serialize : readShortvec tx.serialize =
    some (tx.signatures.length, (encodeShortvec tx.signatures.length).length) :=
  readShortvec_encode tx.signatureCount _

theorem blockhashAt : BlockhashAt tx.serialize tx.blockhashStart := by
  obtain ⟨first, head, -, -⟩ := tx.message_head
  have byte : tx.serialize[tx.messageStart]? = some first := by
    rw [← head, ← tx.serialize_drop_messageStart, List.head?_drop]
  have afterHeader := tx.accountsStart_message byte
  have accounts : readShortvec (tx.serialize.drop (accountsStart tx.messageStart first)) =
      some (tx.accounts.length, (encodeShortvec tx.accounts.length).length) := by
    rw [tx.serialize_drop_accountsStart byte]
    exact readShortvec_encode tx.accountCount _
  refine ⟨_, _, _, _, first, tx.readShortvec_serialize, byte, accounts, ?_⟩
  have position := afterHeader
  rw [messageStart] at position
  rw [position, blockhashStart, messageStart]
  ring

end WireTransaction

/-- The reader finds the blockhash of every serialized transaction. -/
theorem extractBlockhash_serialize (external : External) (tx : WireTransaction) :
    extractBlockhash external tx.serialize = some (external.bs58Encode tx.blockhash) := by
  have total := tx.serialize_length_blockhashStart
  apply extractBlockhash_eq_some.mpr
  refine ⟨tx.blockhashStart, tx.blockhashAt, by omega, ?_⟩
  rw [tx.serialize_drop_blockhashStart, ← tx.blockhashSize, List.take_left]

end Disburse
