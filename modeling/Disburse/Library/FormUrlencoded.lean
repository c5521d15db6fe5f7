import Mathlib.Data.List.TakeWhile

/-!
Owns the form encoding of query strings: texts are written as UTF-8 with a blank as
`+` and every other byte that is not plain as a percent sign with two digits; pairs
are joined with `&`, names and values with `=`.

What is written is read back, also behind a query that was written otherwise.
-/

namespace Disburse.Library.FormUrlencoded

universe u

/-! ### Cutting a text in two -/

section Cut

variable {α : Type u} {mark : α}

/-- What stands before the first mark, and what stands behind it if there is one. -/
def cut [DecidableEq α] (mark : α) (text : List α) : List α × Option (List α) :=
  (text.takeWhile (· ≠ mark),
    if mark ∈ text then some ((text.dropWhile (· ≠ mark)).drop 1) else none)

def join (mark : α) (front : List α) : Option (List α) → List α
  | none => front
  | some back => front ++ mark :: back

theorem mem_join {front : List α} {back : Option (List α)} {other : α} :
    other ∈ join mark front back → other ∈ front ∨ other = mark ∨ other ∈ back.getD [] := by
  cases back with
  | none => exact .inl
  | some back => simp [join]

theorem cut_join [DecidableEq α] {front : List α} (absent : mark ∉ front) (back : Option (List α)) :
    cut mark (join mark front back) = (front, back) := by
  have kept : ∀ c ∈ front, decide (c ≠ mark) = true := by
    intro c member
    exact decide_eq_true (ne_of_mem_of_not_mem member absent)
  cases back with
  | none =>
      rw [join, cut, if_neg absent, List.takeWhile_eq_self_iff.mpr kept]
  | some back =>
      have present : mark ∈ front ++ mark :: back := by
        simp
      rw [join, cut, if_pos present, List.takeWhile_append_of_pos kept,
        List.dropWhile_append_of_pos kept, List.takeWhile_cons_of_neg (by simp),
        List.dropWhile_cons_of_neg (by simp), List.append_nil, List.drop_one, List.tail_cons]

end Cut

/-! ### Bytes -/

/-- The characters that stand for themselves. -/
def isPlain (c : Char) : Bool :=
  ('a' ≤ c && c ≤ 'z') || ('A' ≤ c && c ≤ 'Z') || ('0' ≤ c && c ≤ '9') ||
    c = '*' || c = '-' || c = '.' || c = '_'

def hexDigit (value : Nat) : Char := value.digitChar.toUpper

/-- The value of a digit, in either case. -/
def hexValue (c : Char) : Option Nat :=
  if c.isDigit then some (c.toNat - 48)
  else if 'A' ≤ c ∧ c ≤ 'F' then some (c.toNat - 55)
  else if 'a' ≤ c ∧ c ≤ 'f' then some (c.toNat - 87)
  else none

def encodeByte (byte : UInt8) : List Char :=
  if isPlain (.ofUInt8 byte) then [.ofUInt8 byte]
  else if byte = 32 then ['+']
  else ['%', hexDigit (byte.toNat / 16), hexDigit (byte.toNat % 16)]

/-- A percent sign without two digits stands for itself. -/
def decodeBytes : List Char → List UInt8
  | [] => []
  | '+' :: rest => 32 :: decodeBytes rest
  | '%' :: high :: low :: rest =>
      match hexValue high, hexValue low with
      | some first, some second => .ofNat (16 * first + second) :: decodeBytes rest
      | _, _ => 37 :: decodeBytes (high :: low :: rest)
  | c :: rest => String.utf8EncodeChar c ++ decodeBytes rest

theorem hexValue_hexDigit {value : Nat} (small : value < 16) :
    hexValue (hexDigit value) = some value := by
  have digits : ∀ digit : Fin 16, hexValue (hexDigit digit) = some digit.val := by
    decide +kernel
  exact digits ⟨value, small⟩

theorem isPlain_hexDigit {value : Nat} (small : value < 16) : isPlain (hexDigit value) = true := by
  have digits : ∀ digit : Fin 16, isPlain (hexDigit digit) = true := by
    decide +kernel
  exact digits ⟨value, small⟩

theorem toNat_lt_of_isPlain {c : Char} (plain : isPlain c = true) : c.toNat < 128 := by
  have ascii : ∀ {last : Char}, last.toNat < 128 → c ≤ last → c.toNat < 128 := by
    intro last small below
    exact lt_of_le_of_lt (UInt32.le_iff_toNat_le.mp below) small
  simp only [isPlain, Bool.or_eq_true, Bool.and_eq_true, decide_eq_true_eq] at plain
  rcases plain with ((((((letter | letter) | digit) | rfl) | rfl) | rfl) | rfl)
  · exact ascii (by decide) letter.2
  · exact ascii (by decide) letter.2
  · exact ascii (by decide) digit.2
  all_goals decide

theorem utf8EncodeChar_of_isPlain {byte : UInt8} (plain : isPlain (.ofUInt8 byte) = true) :
    String.utf8EncodeChar (.ofUInt8 byte) = [byte] := by
  have code : (Char.ofUInt8 byte).val.toNat = byte.toNat := rfl
  have ascii : (Char.ofUInt8 byte).val.toNat < 128 := toNat_lt_of_isPlain plain
  rw [String.utf8EncodeChar, if_pos (by omega), code]
  simp

/-- What is written is plain, a plus or a percent sign. -/
theorem written (byte : UInt8) :
    ∀ c ∈ encodeByte byte, isPlain c = true ∨ c = '+' ∨ c = '%' := by
  have below : byte.toNat < 256 := byte.toNat_lt
  unfold encodeByte
  split
  · rename_i plain
    simpa using .inl plain
  · split
    · simp
    · have high : byte.toNat / 16 < 16 := by omega
      have low : byte.toNat % 16 < 16 := by omega
      simp [isPlain_hexDigit high, isPlain_hexDigit low]

theorem decodeBytes_encodeByte (byte : UInt8) (rest : List Char) :
    decodeBytes (encodeByte byte ++ rest) = byte :: decodeBytes rest := by
  unfold encodeByte
  split
  · rename_i plain
    rw [List.singleton_append, decodeBytes, utf8EncodeChar_of_isPlain plain,
      List.singleton_append]
    · intro plus
      rw [plus] at plain
      cases plain
    · intro _ _ _ percent
      rw [percent] at plain
      cases plain
  · split
    · rename_i blank
      rw [blank, List.singleton_append, decodeBytes]
    · have below : byte.toNat < 256 := byte.toNat_lt
      have high : byte.toNat / 16 < 16 := by omega
      have low : byte.toNat % 16 < 16 := by omega
      have whole : 16 * (byte.toNat / 16) + byte.toNat % 16 = byte.toNat := by omega
      simp only [List.cons_append, List.nil_append, decodeBytes, hexValue_hexDigit high,
        hexValue_hexDigit low, whole, UInt8.ofNat_toNat]

theorem decodeBytes_flatMap (bytes : List UInt8) :
    decodeBytes (bytes.flatMap encodeByte) = bytes := by
  induction bytes with
  | nil => rfl
  | cons byte rest inductionHypothesis =>
      rw [List.flatMap_cons, decodeBytes_encodeByte, inductionHypothesis]

/-! ### Texts -/

def encode (text : String) : List Char :=
  (text.toList.flatMap String.utf8EncodeChar).flatMap encodeByte

/-- What is read of a text; `lossy` reads bytes that are not UTF-8. -/
def decode (lossy : List UInt8 → String) (text : List Char) : String :=
  match (decodeBytes text).toByteArray.utf8Decode? with
  | some chars => .ofList chars.toList
  | none => lossy (decodeBytes text)

theorem encode_written (text : String) :
    ∀ c ∈ encode text, isPlain c = true ∨ c = '+' ∨ c = '%' := by
  intro c member
  obtain ⟨byte, _, inside⟩ := List.mem_flatMap.mp member
  exact written byte c inside

theorem not_mem_encode {c : Char} (special : isPlain c = false) (notPlus : c ≠ '+')
    (notPercent : c ≠ '%') (text : String) : c ∉ encode text := by
  intro member
  rcases encode_written text c member with plain | plus | percent
  · rw [special] at plain
    cases plain
  · exact notPlus plus
  · exact notPercent percent

/-- What is written of a text is read as the text. -/
theorem decode_encode (lossy : List UInt8 → String) (text : String) :
    decode lossy (encode text) = text := by
  have bytes : decodeBytes (encode text) = text.toList.flatMap String.utf8EncodeChar :=
    decodeBytes_flatMap _
  have read : (text.toList.flatMap String.utf8EncodeChar).toByteArray.utf8Decode? =
      some text.toList.toArray := List.utf8Decode?_utf8Encode
  unfold decode
  rw [bytes, read]
  exact String.ofList_toList

/-! ### Pairs -/

/-- A pair of a query; without a `=` its value is empty. -/
def pairOf (lossy : List UInt8 → String) (part : List Char) : String × String :=
  (decode lossy (cut '=' part).1, decode lossy ((cut '=' part).2.getD []))

/-- The pairs of a query. -/
def pairs (lossy : List UInt8 → String) (query : List Char) : List (String × String) :=
  ((query.splitOn '&').filter (· ≠ [])).map (pairOf lossy)

def encodePair (name value : String) : List Char := join '=' (encode name) (some (encode value))

/-- A query with one more pair. -/
def appendPair (query : List Char) (name value : String) : List Char :=
  if query = [] then encodePair name value else join '&' query (some (encodePair name value))

theorem not_mem_encodePair {c : Char} (special : isPlain c = false) (notPlus : c ≠ '+')
    (notPercent : c ≠ '%') (notEqual : c ≠ '=') (name value : String) :
    c ∉ encodePair name value := by
  intro member
  rcases mem_join member with inName | equal | inValue
  · exact not_mem_encode special notPlus notPercent name inName
  · exact notEqual equal
  · exact not_mem_encode special notPlus notPercent value inValue

theorem pairOf_encodePair (lossy : List UInt8 → String) (name value : String) :
    pairOf lossy (encodePair name value) = (name, value) := by
  have absent : '=' ∉ encode name := not_mem_encode (by decide) (by decide) (by decide) name
  rw [pairOf, encodePair, cut_join absent, Option.getD_some, decode_encode, decode_encode]

theorem pairs_encodePair (lossy : List UInt8 → String) (name value : String) :
    pairs lossy (encodePair name value) = [(name, value)] := by
  have whole : (encodePair name value).splitOn '&' = [encodePair name value] :=
    List.splitOn_eq_singleton
      (not_mem_encodePair (by decide) (by decide) (by decide) (by decide) name value)
  have kept : [encodePair name value].filter (· ≠ []) = [encodePair name value] := by
    simp [encodePair, join]
  rw [pairs, whole, kept, List.map_singleton, pairOf_encodePair]

@[simp] theorem pairs_nil (lossy : List UInt8 → String) : pairs lossy [] = [] := rfl

/-- One more pair is read behind the pairs of any query. -/
theorem pairs_appendPair (lossy : List UInt8 → String) (query : List Char) (name value : String) :
    pairs lossy (appendPair query name value) = pairs lossy query ++ [(name, value)] := by
  unfold appendPair
  split
  · rename_i empty
    rw [empty, pairs_nil, List.nil_append, pairs_encodePair]
  · rw [← pairs_encodePair lossy name value, pairs, join, List.splitOn_append_cons_self,
      List.filter_append, List.map_append]
    rfl

/-- The characters of a query that was written here. -/
def isFormChar (c : Char) : Bool := isPlain c || c = '+' || c = '%' || c = '=' || c = '&'

theorem isFormChar_encode (text : String) : ∀ c ∈ encode text, isFormChar c = true := by
  intro c member
  rcases encode_written text c member with plain | plus | percent
  · simp [isFormChar, plain]
  · simp [isFormChar, plus]
  · simp [isFormChar, percent]

theorem isFormChar_join {mark : Char} {front back : List Char} (form : isFormChar mark = true)
    (inFront : ∀ c ∈ front, isFormChar c = true) (inBack : ∀ c ∈ back, isFormChar c = true) :
    ∀ c ∈ join mark front (some back), isFormChar c = true := by
  intro c member
  rcases mem_join member with before | here | behind
  · exact inFront c before
  · rw [here, form]
  · exact inBack c behind

theorem isFormChar_appendPair {query : List Char} (form : ∀ c ∈ query, isFormChar c = true)
    (name value : String) : ∀ c ∈ appendPair query name value, isFormChar c = true := by
  have pair : ∀ c ∈ encodePair name value, isFormChar c = true :=
    isFormChar_join (by decide) (isFormChar_encode name) (isFormChar_encode value)
  unfold appendPair
  split
  · exact pair
  · exact isFormChar_join (by decide) form pair

end Disburse.Library.FormUrlencoded
