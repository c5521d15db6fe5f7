import Disburse.Library.JsonText

/-!
Owns the occurrences of a byte pattern `"word":` in JSON texts. The word is one
of letters. The pattern can only be found where a key of an object, at any
depth, is spelled out as the word, or ends in an escaped quote and the word, and
its colon follows at once.
-/

namespace Disburse.Library

/-- A byte of a letter. -/
def letterByte (c : Char) : UInt8 := UInt8.ofNat c.toNat

def isLetterByte (b : UInt8) : Bool :=
  (65 ≤ b.toNat && b.toNat ≤ 90) || (97 ≤ b.toNat && b.toNat ≤ 122)

/-- The bytes of the word in quotes with a colon behind. -/
def keyPattern (word : List Char) : List UInt8 := 34 :: (word.map letterByte ++ [34, 58])

/-- A word of letters, with at least one. -/
structure IsWord (word : List Char) : Prop where
  nonempty : word ≠ []
  alphabetic : word.all Char.isAlpha = true

theorem IsWord.letters {word : List Char} (isWord : IsWord word) :
    ∀ c ∈ word, c.isAlpha = true :=
  List.all_eq_true.mp isWord.alphabetic

/-! ### Keys -/

namespace StringText

/-- The literal is the word, each letter standing for itself. -/
def spells : StringText → List Char → Bool
  | [], [] => true
  | .plain c _ :: units, letter :: word => c = letter && spells units word
  | _, _ => false

/-- Somewhere an escaped quote stands before exactly the word. -/
def quotesThenSpells (word : List Char) : StringText → Bool
  | [] => false
  | unit :: units => (unit = .escape .quote && spells units word) || quotesThenSpells word units

/-- The literal ends as the pattern of the word does. -/
def endsAsKey (word : List Char) (units : StringText) : Bool :=
  units.spells word || units.quotesThenSpells word

end StringText

mutual

/-- Some member at some depth has a key that ends as the word, with the colon at
once behind it. -/
def JsonText.hasTightKey (word : List Char) : JsonText → Bool
  | .array _ elements => elements.hasTightKey word
  | .object _ members => members.hasTightKey word
  | .null | .bool _ | .number _ | .string _ => false

def Elements.hasTightKey (word : List Char) : Elements → Bool
  | .nil => false
  | .cons _ value _ rest => value.hasTightKey word || rest.hasTightKey word

def Members.hasTightKey (word : List Char) : Members → Bool
  | .nil => false
  | .cons _ key beforeColon _ value _ rest =>
      (beforeColon.isEmpty && key.endsAsKey word) || value.hasTightKey word ||
        rest.hasTightKey word

end

/-! ### Letters -/

theorem letterByte_toNat {c : Char} (letter : c.isAlpha = true) :
    (letterByte c).toNat = c.toNat ∧
      ((65 ≤ c.toNat ∧ c.toNat ≤ 90) ∨ (97 ≤ c.toNat ∧ c.toNat ≤ 122)) := by
  have inCase : (c.isUpper || c.isLower) = true := letter
  have range : (65 ≤ c.toNat ∧ c.toNat ≤ 90) ∨ (97 ≤ c.toNat ∧ c.toNat ≤ 122) := by
    rcases (Bool.or_eq_true _ _).mp inCase with upper | lower
    · have between : 'A'.val ≤ c.val ∧ c.val ≤ 'Z'.val := of_decide_eq_true upper
      exact .inl ⟨UInt32.le_iff_toNat_le.mp between.1, UInt32.le_iff_toNat_le.mp between.2⟩
    · have both : (decide ('a'.val ≤ c.val) && decide (c.val ≤ 'z'.val)) = true := lower
      have between : 'a'.val ≤ c.val ∧ c.val ≤ 'z'.val := by
        simpa only [Bool.and_eq_true, decide_eq_true_eq] using both
      exact .inr ⟨UInt32.le_iff_toNat_le.mp between.1, UInt32.le_iff_toNat_le.mp between.2⟩
  unfold letterByte
  rw [UInt8.toNat_ofNat']
  omega

theorem letterByte_ne {letter : Char} (alpha : letter.isAlpha = true) {b : UInt8}
    (other : isLetterByte b = false) : letterByte letter ≠ b := by
  intro same
  have code := letterByte_toNat alpha
  rw [same] at code
  simp [isLetterByte] at other
  omega

theorem letterByte_inj {c letter : Char} (ascii : c.toNat < 128) (alpha : letter.isAlpha = true)
    (same : letterByte letter = letterByte c) : c = letter := by
  have codes := congrArg UInt8.toNat same
  have letterCode := letterByte_toNat alpha
  unfold letterByte at codes letterCode
  rw [UInt8.toNat_ofNat', UInt8.toNat_ofNat'] at codes
  apply Char.toNat_inj.mp
  omega

/-! ### Bytes without a quote -/

theorem infix_skip_byte {word : List Char} {b : UInt8} (other : b ≠ 34) (rest : List UInt8) :
    keyPattern word <:+: b :: rest ↔ keyPattern word <:+: rest := by
  rw [List.infix_cons_iff]
  constructor
  · intro found
    rcases found with start | later
    · rw [keyPattern, List.cons_prefix_cons] at start
      exact absurd start.1.symm other
    · exact later
  · exact Or.inr

/-- Bytes that hold no quote can be skipped. -/
theorem infix_skip {word : List Char} {bytes rest : List UInt8} (unquoted : 34 ∉ bytes) :
    keyPattern word <:+: bytes ++ rest ↔ keyPattern word <:+: rest := by
  induction bytes with
  | nil => rfl
  | cons b bytes inductionHypothesis =>
      rw [List.mem_cons, not_or] at unquoted
      rw [List.cons_append, infix_skip_byte (Ne.symm unquoted.1), inductionHypothesis unquoted.2]

theorem Blanks.unquoted (blanks : Blanks) : 34 ∉ blanks.bytes := by
  intro member
  obtain ⟨blank, _, quote⟩ := List.mem_map.mp member
  cases blank <;> cases quote

theorem Digit.byte_ne : ∀ digit : Digit, digit.byte ≠ 34 := by decide

theorem Digits.unquoted (digits : Digits) : 34 ∉ digits.bytes := by
  intro member
  obtain ⟨digit, _, quote⟩ := List.mem_map.mp member
  exact digit.byte_ne quote

theorem Exponent.unquoted (exponent : Exponent) : 34 ∉ exponent.bytes := by
  have digits := exponent.digits.unquoted
  unfold Exponent.bytes
  dsimp only
  cases exponent.upperCase <;> cases exponent.sign <;> simpa using digits

theorem NumberText.unquoted (number : NumberText) : 34 ∉ number.bytes := by
  have sign : (34 : UInt8) ∉ if number.negative then [(45 : UInt8)] else [] := by
    cases number.negative <;> decide
  have fraction : 34 ∉ number.fraction.elim [] fun digits => 46 :: digits.bytes := by
    cases number.fraction with
    | none => exact List.not_mem_nil
    | some digits => simpa using digits.unquoted
  have exponent : 34 ∉ number.exponent.elim [] Exponent.bytes := by
    cases number.exponent with
    | none => exact List.not_mem_nil
    | some exponent => exact exponent.unquoted
  unfold NumberText.bytes
  dsimp only
  rw [List.mem_append, List.mem_append, List.mem_append]
  rintro (((inside | inside) | inside) | inside)
  · exact sign inside
  · exact number.whole.unquoted inside
  · exact fraction inside
  · exact exponent inside

/-! ### Pieces of a string -/

theorem HexDigit.byte_ne (digit : HexDigit) : digit.byte ≠ 34 := by
  rcases digit with ⟨value, upperCase⟩
  revert value upperCase
  decide

theorem HexQuad.unquoted (quad : HexQuad) : 34 ∉ quad.bytes := by
  have digit := fun digit : HexDigit => (digit.byte_ne).symm
  simp [HexQuad.bytes, digit]

/-- A character that stands for itself is its own byte, or bytes that no letter has. -/
theorem utf8EncodeChar_cases (c : Char) :
    (c.toNat < 128 ∧ String.utf8EncodeChar c = [letterByte c]) ∨
      128 ≤ c.toNat ∧ ∀ b ∈ String.utf8EncodeChar c, 128 ≤ b.toNat := by
  have code : c.val.toNat = c.toNat := rfl
  by_cases ascii : c.toNat < 128
  · refine Or.inl ⟨ascii, ?_⟩
    rw [String.utf8EncodeChar, code, if_pos (by omega)]
    rfl
  · refine Or.inr ⟨by omega, ?_⟩
    rw [String.utf8EncodeChar, code, if_neg (by omega)]
    split
    · simp only [List.mem_cons, List.not_mem_nil, or_false, forall_eq_or_imp, forall_eq,
        UInt8.toNat_ofNat']
      omega
    · split
      · simp only [List.mem_cons, List.not_mem_nil, or_false, forall_eq_or_imp, forall_eq,
          UInt8.toNat_ofNat']
        omega
      · simp only [List.mem_cons, List.not_mem_nil, or_false, forall_eq_or_imp, forall_eq,
          UInt8.toNat_ofNat']
        omega

theorem quote_ne_letterByte {c : Char} (ascii : c.toNat < 128) (other : c.toNat ≠ 34) :
    34 ≠ letterByte c := by
  intro same
  have codes := congrArg UInt8.toNat same
  unfold letterByte at codes
  rw [UInt8.toNat_ofNat'] at codes
  have quote : (34 : UInt8).toNat = 34 := rfl
  omega

/-- Only the escaped quote has the byte of a quote. -/
theorem StringUnit.unquoted {unit : StringUnit} (other : unit ≠ .escape .quote) :
    34 ∉ unit.bytes := by
  cases unit with
  | plain c allowed =>
      intro member
      rcases utf8EncodeChar_cases c with ⟨ascii, bytes⟩ | ⟨_, high⟩
      · rw [StringUnit.bytes, bytes, List.mem_singleton] at member
        have same := congrArg UInt8.toNat member
        unfold letterByte at same
        rw [UInt8.toNat_ofNat'] at same
        have quote : (34 : UInt8).toNat = 34 := rfl
        have notQuote := allowed.1
        omega
      · exact absurd (high 34 member) (by decide)
  | escape short =>
      cases short with
      | quote => exact absurd rfl other
      | backslash | slash | backspace | formFeed | newline | carriageReturn | tab => decide
  | unicode quad scalar => simpa [StringUnit.bytes] using quad.unquoted
  | pair high low leading trailing =>
      simpa [StringUnit.bytes] using And.intro high.unquoted low.unquoted

/-- A piece is one byte that stands for itself, or starts with a byte that is
neither a letter nor a quote. -/
theorem StringUnit.starts (unit : StringUnit) :
    (∃ c allowed, unit = .plain c allowed ∧ c.toNat < 128 ∧ unit.bytes = [letterByte c]) ∨
      (∀ c allowed, unit = .plain c allowed → 128 ≤ c.toNat) ∧
        ∃ b tail, unit.bytes = b :: tail ∧ b ≠ 34 ∧ isLetterByte b = false := by
  have escaped : ∀ tail, unit.bytes = 92 :: tail →
      ∃ b tail, unit.bytes = b :: tail ∧ b ≠ 34 ∧ isLetterByte b = false :=
    fun tail bytes => ⟨92, tail, bytes, by decide, by decide⟩
  cases unit with
  | plain c allowed =>
      rcases utf8EncodeChar_cases c with ⟨ascii, bytes⟩ | ⟨notAscii, high⟩
      · exact Or.inl ⟨c, allowed, rfl, ascii, bytes⟩
      · refine Or.inr ⟨fun other _ same => ?_, ?_⟩
        · cases same
          exact notAscii
        · cases bytes : String.utf8EncodeChar c with
          | nil => exact absurd bytes String.utf8EncodeChar_ne_nil
          | cons b tail =>
              have above := high b (by rw [bytes]; exact List.mem_cons_self)
              refine ⟨b, tail, bytes, ?_, ?_⟩
              · rintro rfl
                exact absurd above (by decide)
              · simp [isLetterByte]
                omega
  | escape short => exact Or.inr ⟨fun c allowed same => (by cases same), escaped _ rfl⟩
  | unicode quad scalar => exact Or.inr ⟨fun c allowed same => (by cases same), escaped _ rfl⟩
  | pair high low leading trailing =>
      exact Or.inr ⟨fun c allowed same => (by cases same), escaped _ rfl⟩

/-! ### String literals -/

namespace StringText

@[simp] theorem closing_nil : closing [] = [34] := rfl

@[simp] theorem closing_cons (unit : StringUnit) (units : StringText) :
    closing (unit :: units) = unit.bytes ++ closing units := by
  simp [closing]

/-- The word, a quote and a colon stand in front exactly when the rest of the
literal spells the word and the colon is the next byte. -/
theorem prefix_closing_iff {word : List Char} (letters : ∀ c ∈ word, c.isAlpha = true)
    (units : StringText) (rest : List UInt8) :
    word.map letterByte ++ [34, 58] <+: units.closing ++ rest ↔
      units.spells word = true ∧ rest.head? = some 58 := by
  induction units generalizing word with
  | nil =>
      cases word with
      | nil =>
          cases rest with
          | nil => simp [spells]
          | cons b rest => simp [spells, eq_comm]
      | cons letter word =>
          have alpha := letters letter List.mem_cons_self
          have differs := letterByte_ne alpha (b := 34) (by decide)
          simp [spells, differs]
  | cons unit units inductionHypothesis =>
      rw [closing_cons, List.append_assoc]
      rcases unit.starts with ⟨c, allowed, rfl, ascii, bytes⟩ |
        ⟨notAscii, b, tail, bytes, notQuote, notLetter⟩
      · rw [bytes, List.singleton_append]
        cases word with
        | nil =>
            have notQuote := quote_ne_letterByte ascii allowed.1
            simp [spells, notQuote]
        | cons letter word =>
            have alpha := letters letter List.mem_cons_self
            have tail := @inductionHypothesis word
              fun other member => letters other (List.mem_cons_of_mem _ member)
            rw [List.map_cons, List.cons_append, List.cons_prefix_cons, tail, spells]
            simp only [Bool.and_eq_true, decide_eq_true_eq, and_assoc]
            refine and_congr_left fun _ => ⟨letterByte_inj ascii alpha, fun same => by rw [same]⟩
      · rw [bytes, List.cons_append]
        have refused : spells (unit :: units) word = false := by
          cases word with
          | nil => cases unit <;> rfl
          | cons letter word =>
              have alpha := letters letter List.mem_cons_self
              cases unit with
              | plain c allowed =>
                  have differs : c ≠ letter := by
                    rintro rfl
                    have low := letterByte_toNat alpha
                    have code := notAscii c allowed rfl
                    omega
                  simp [spells, differs]
              | escape | unicode | pair => rfl
        cases word with
        | nil =>
            simp [refused, Ne.symm notQuote]
        | cons letter word =>
            have differs := letterByte_ne (letters letter List.mem_cons_self) notLetter
            simp [refused, differs]

/-- From inside a literal on, the pattern stands at an escaped quote with the
word behind it, or after the literal. -/
theorem infix_closing_iff {word : List Char} (isWord : IsWord word) (units : StringText)
    {rest : List UInt8} (follow : ∀ b ∈ rest.head?, isLetterByte b = false) :
    keyPattern word <:+: units.closing ++ rest ↔
      (units.quotesThenSpells word = true ∧ rest.head? = some 58) ∨
        keyPattern word <:+: rest := by
  induction units with
  | nil =>
      rw [closing_nil, List.singleton_append, List.infix_cons_iff]
      have start : ¬ keyPattern word <+: 34 :: rest := by
        intro found
        rw [keyPattern, List.cons_prefix_cons] at found
        cases word with
        | nil => exact isWord.nonempty rfl
        | cons letter word =>
            rcases found.2 with ⟨behind, same⟩
            rw [List.map_cons, List.cons_append, List.cons_append] at same
            have alpha := isWord.letters letter List.mem_cons_self
            refine letterByte_ne alpha (follow (letterByte letter) ?_) rfl
            rw [← same]
            rfl
      simp [quotesThenSpells, start]
  | cons unit units inductionHypothesis =>
      rw [closing_cons, List.append_assoc, quotesThenSpells]
      by_cases quote : unit = .escape .quote
      · subst quote
        show keyPattern word <:+: [92] ++ (34 :: (closing units ++ rest)) ↔ _
        rw [infix_skip (by decide), List.infix_cons_iff, inductionHypothesis, keyPattern,
          List.cons_prefix_cons, prefix_closing_iff isWord.letters]
        simp [or_assoc, or_and_right]
      · rw [infix_skip (StringUnit.unquoted quote), inductionHypothesis]
        simp [quote]

/-- A whole literal. -/
theorem infix_bytes_iff {word : List Char} (isWord : IsWord word) (units : StringText)
    {rest : List UInt8} (follow : ∀ b ∈ rest.head?, isLetterByte b = false) :
    keyPattern word <:+: units.bytes ++ rest ↔
      (units.endsAsKey word = true ∧ rest.head? = some 58) ∨ keyPattern word <:+: rest := by
  rw [bytes, List.cons_append, List.infix_cons_iff, infix_closing_iff isWord units follow,
    keyPattern, List.cons_prefix_cons, prefix_closing_iff isWord.letters, endsAsKey]
  simp [or_assoc, or_and_right]

end StringText

/-! ### Texts -/

/-- What can follow a value in a text: nothing, white space, a comma or a
closing bracket. -/
def Delimited (rest : List UInt8) : Prop :=
  ∀ b ∈ rest.head?, b ∈ ([32, 9, 10, 13, 44, 93, 125] : List UInt8)

theorem Delimited.nil : Delimited [] := by
  intro b found
  cases found

theorem Delimited.blanks (blanks : Blanks) {rest : List UInt8} (delimited : Delimited rest) :
    Delimited (blanks.bytes ++ rest) := by
  cases blanks with
  | nil => exact delimited
  | cons blank blanks =>
      intro b found
      cases found
      cases blank <;> decide

theorem Delimited.not_letter {rest : List UInt8} (delimited : Delimited rest) :
    ∀ b ∈ rest.head?, isLetterByte b = false := by
  intro b found
  have letterless : ∀ other ∈ ([32, 9, 10, 13, 44, 93, 125] : List UInt8),
      isLetterByte other = false := by decide +kernel
  exact letterless b (delimited b found)

theorem Delimited.cons {b : UInt8} (listed : b ∈ ([44, 93, 125] : List UInt8))
    (rest : List UInt8) : Delimited (b :: rest) := by
  intro other found
  cases found
  exact List.mem_of_mem_drop (i := 4) listed

theorem Delimited.elements (elements : Elements) {rest : List UInt8} (delimited : Delimited rest) :
    Delimited (elements.comma ++ (elements.bytes ++ rest)) := by
  cases elements with
  | nil => exact delimited
  | cons => exact Delimited.cons (by decide) _

theorem Delimited.members (members : Members) {rest : List UInt8} (delimited : Delimited rest) :
    Delimited (members.comma ++ (members.bytes ++ rest)) := by
  cases members with
  | nil => exact delimited
  | cons => exact Delimited.cons (by decide) _

theorem Elements.comma_unquoted (elements : Elements) : 34 ∉ elements.comma := by
  cases elements <;> simp [Elements.comma]

theorem Members.comma_unquoted (members : Members) : 34 ∉ members.comma := by
  cases members <;> simp [Members.comma]

section Scan

variable {word : List Char}

/-- The key of a member with its colon. -/
theorem StringText.infix_key_iff (isWord : IsWord word) (key : StringText)
    (beforeColon : Blanks) (rest : List UInt8) :
    keyPattern word <:+: key.bytes ++ (beforeColon.bytes ++ 58 :: rest) ↔
      (beforeColon.isEmpty && key.endsAsKey word) = true ∨ keyPattern word <:+: rest := by
  have notLetter : ∀ b ∈ (beforeColon.bytes ++ 58 :: rest).head?, isLetterByte b = false := by
    intro b found
    cases beforeColon with
    | nil =>
        cases found
        decide
    | cons blank blanks =>
        cases found
        cases blank <;> decide
  have colon : (beforeColon.bytes ++ 58 :: rest).head? = some 58 ↔ beforeColon.isEmpty = true := by
    cases beforeColon with
    | nil => simp [Blanks.bytes]
    | cons blank blanks => cases blank <;> simp [Blanks.bytes, Blank.byte]
  have behind : keyPattern word <:+: beforeColon.bytes ++ 58 :: rest ↔
      keyPattern word <:+: rest := by
    rw [infix_skip beforeColon.unquoted, infix_skip_byte (by decide)]
  rw [key.infix_bytes_iff isWord notLetter, colon, behind, Bool.and_eq_true, and_comm]

mutual

/-- In a text with something behind it the pattern stands at a tight key or
behind the text. -/
theorem JsonText.infix_iff (isWord : IsWord word) (text : JsonText) (rest : List UInt8)
    (delimited : Delimited rest) :
    keyPattern word <:+: text.bytes ++ rest ↔
      text.hasTightKey word = true ∨ keyPattern word <:+: rest := by
  have leaf : 34 ∉ text.bytes → text.hasTightKey word = false →
      (keyPattern word <:+: text.bytes ++ rest ↔
        text.hasTightKey word = true ∨ keyPattern word <:+: rest) := by
    intro unquoted keyless
    rw [infix_skip unquoted, keyless]
    simp
  cases text with
  | null => exact leaf (by simp [JsonText.bytes]) rfl
  | bool value => exact leaf (by cases value <;> simp [JsonText.bytes]) rfl
  | number text => exact leaf text.unquoted rfl
  | string units =>
      have noColon : rest.head? ≠ some 58 := by
        intro colon
        exact absurd (delimited 58 colon) (by decide)
      rw [JsonText.bytes, units.infix_bytes_iff isWord delimited.not_letter, JsonText.hasTightKey]
      simp [noColon]
  | array blanks elements =>
      have inner := elements.infix_iff isWord (93 :: rest) (Delimited.cons (by decide) rest)
      rw [JsonText.bytes, JsonText.hasTightKey, List.cons_append, List.append_assoc,
        List.append_assoc, List.singleton_append]
      rw [infix_skip_byte (by decide), infix_skip blanks.unquoted, inner,
        infix_skip_byte (by decide)]
  | object blanks members =>
      have inner := members.infix_iff isWord (125 :: rest) (Delimited.cons (by decide) rest)
      rw [JsonText.bytes, JsonText.hasTightKey, List.cons_append, List.append_assoc,
        List.append_assoc, List.singleton_append]
      rw [infix_skip_byte (by decide), infix_skip blanks.unquoted, inner,
        infix_skip_byte (by decide)]

theorem Elements.infix_iff (isWord : IsWord word) (elements : Elements) (rest : List UInt8)
    (delimited : Delimited rest) :
    keyPattern word <:+: elements.bytes ++ rest ↔
      elements.hasTightKey word = true ∨ keyPattern word <:+: rest := by
  cases elements with
  | nil => simp [Elements.bytes, Elements.hasTightKey]
  | cons before value after others =>
      have follow := (Delimited.elements others delimited).blanks after
      have first := value.infix_iff isWord _ follow
      have later := others.infix_iff isWord rest delimited
      simp only [Elements.bytes, List.append_assoc]
      rw [infix_skip before.unquoted, first, infix_skip after.unquoted,
        infix_skip others.comma_unquoted, later, Elements.hasTightKey, Bool.or_eq_true, or_assoc]

theorem Members.infix_iff (isWord : IsWord word) (members : Members) (rest : List UInt8)
    (delimited : Delimited rest) :
    keyPattern word <:+: members.bytes ++ rest ↔
      members.hasTightKey word = true ∨ keyPattern word <:+: rest := by
  cases members with
  | nil => simp [Members.bytes, Members.hasTightKey]
  | cons before key beforeColon afterColon value after others =>
      have follow := (Delimited.members others delimited).blanks after
      have first := value.infix_iff isWord _ follow
      have later := others.infix_iff isWord rest delimited
      simp only [Members.bytes, List.append_assoc, List.cons_append]
      rw [infix_skip before.unquoted, key.infix_key_iff isWord, infix_skip afterColon.unquoted,
        first, infix_skip after.unquoted, infix_skip others.comma_unquoted, later,
        Members.hasTightKey, Bool.or_eq_true, Bool.or_eq_true, or_assoc, or_assoc]

end

/-- The pattern occurs in a text exactly when some key of it is tight. -/
theorem JsonDocument.infix_iff (isWord : IsWord word) (document : JsonDocument) :
    keyPattern word <:+: document.bytes ↔ document.root.hasTightKey word = true := by
  have root := document.root.infix_iff isWord document.after.bytes
    (by simpa using Delimited.blanks document.after Delimited.nil)
  have behind : ¬ keyPattern word <:+: document.after.bytes := by
    intro found
    rw [← List.append_nil document.after.bytes, infix_skip document.after.unquoted] at found
    simp [keyPattern] at found
  rw [JsonDocument.bytes, infix_skip document.before.unquoted, root, or_iff_left behind]

end Scan

end Disburse.Library
