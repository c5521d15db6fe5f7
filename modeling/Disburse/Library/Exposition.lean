import Mathlib.Data.Multiset.AddSub
import Mathlib.Data.Multiset.Filter
import Mathlib.Algebra.BigOperators.Group.Multiset.Basic

/-!
Owns the text format in which metrics are exposed: a parser that reads a page
character by character, a writer of sample lines, and what a page says whose
label values were written with or without escapes.

A line is blank, a comment or one sample: a name, labels in braces with their
values in quotes, a number and perhaps a timestamp. In a label value a
backslash, a quote and a line feed are written with a backslash.
-/

namespace Disburse.Library.Exposition

universe u

/-! ### Samples -/

/-- A sample; the order of its labels means nothing. -/
structure Sample (V : Type u) where
  name : String
  labels : Multiset (String × String)
  value : V
  timestamp : Option Int
deriving DecidableEq

/-- How a reader takes numbers. It reads a plain natural number as that number. -/
structure Numerals (V : Type u) where
  value : List Char → Option V
  timestamp : List Char → Option Int
  ofNat : Nat → V
  value_repr : ∀ number : Nat, value number.repr.toList = some (ofNat number)

/-- Plain decimals. -/
def Numerals.decimal : Numerals Nat where
  value := fun text =>
    if text.all Char.isDigit = true ∧ text ≠ [] then some (Nat.ofDigitChars 10 text 0) else none
  timestamp := fun text =>
    if text.all Char.isDigit = true ∧ text ≠ [] then some (Nat.ofDigitChars 10 text 0) else none
  ofNat := id
  value_repr := by
    intro number
    have digits : (Nat.toDigits 10 number).all Char.isDigit = true :=
      List.all_eq_true.mpr fun c member =>
        Nat.isDigit_of_mem_toDigits (by decide) (by decide) member
    rw [Nat.toList_repr, if_pos ⟨digits, Nat.toDigits_ne_nil⟩]
    simp

/-! ### Reading -/

def isBlank (c : Char) : Bool := c = ' ' || c = '\t'

def isLabelStart (c : Char) : Bool := c.isAlpha || c = '_'

def isLabelChar (c : Char) : Bool := c.isAlphanum || c = '_'

def isNameStart (c : Char) : Bool := isLabelStart c || c = ':'

def isNameChar (c : Char) : Bool := isLabelChar c || c = ':'

/-- What has been read of a sample before its number. -/
structure Draft where
  name : List Char
  labels : List (List Char × List Char)
deriving DecidableEq, Repr

/-- Where in a line the reader is. -/
inductive Reading where
  | start
  | comment
  | name (text : List Char)
  | afterName (draft : Draft)
  /-- Before the name of a label, or the closing brace. -/
  | label (draft : Draft)
  | labelName (draft : Draft) (label : List Char)
  | afterLabelName (draft : Draft) (label : List Char)
  | beforeValue (draft : Draft) (label : List Char)
  | value (draft : Draft) (label text : List Char)
  /-- After a backslash in a label value. -/
  | escape (draft : Draft) (label text : List Char)
  | afterValue (draft : Draft)
  | beforeNumber (draft : Draft)
  | number (draft : Draft) (digits : List Char)
  | afterNumber (draft : Draft) (digits : List Char)
  | timestamp (draft : Draft) (digits stamp : List Char)
  | afterTimestamp (draft : Draft) (digits stamp : List Char)
deriving DecidableEq, Repr

/-- One character of a line. -/
def feed : Reading → Char → Option Reading
  | .start, c =>
      if isBlank c then some .start
      else if c = '#' then some .comment
      else if isNameStart c then some (.name [c])
      else none
  | .comment, _ => some .comment
  | .name text, c =>
      if isNameChar c then some (.name (text ++ [c]))
      else if c = '\x7b' then some (.label { name := text, labels := [] })
      else if isBlank c then some (.afterName { name := text, labels := [] })
      else none
  | .afterName draft, c =>
      if isBlank c then some (.afterName draft)
      else if c = '\x7b' then some (.label draft)
      else some (.number draft [c])
  | .label draft, c =>
      if isBlank c then some (.label draft)
      else if c = '\x7d' then some (.beforeNumber draft)
      else if isLabelStart c then some (.labelName draft [c])
      else none
  | .labelName draft label, c =>
      if isLabelChar c then some (.labelName draft (label ++ [c]))
      else if c = '=' then some (.beforeValue draft label)
      else if isBlank c then some (.afterLabelName draft label)
      else none
  | .afterLabelName draft label, c =>
      if isBlank c then some (.afterLabelName draft label)
      else if c = '=' then some (.beforeValue draft label)
      else none
  | .beforeValue draft label, c =>
      if isBlank c then some (.beforeValue draft label)
      else if c = '\"' then some (.value draft label [])
      else none
  | .value draft label text, c =>
      if c = '\"' then some (.afterValue { draft with labels := draft.labels ++ [(label, text)] })
      else if c = '\\' then some (.escape draft label text)
      else some (.value draft label (text ++ [c]))
  | .escape draft label text, c =>
      if c = '\\' then some (.value draft label (text ++ ['\\']))
      else if c = '\"' then some (.value draft label (text ++ ['\"']))
      else if c = 'n' then some (.value draft label (text ++ ['\n']))
      else none
  | .afterValue draft, c =>
      if isBlank c then some (.afterValue draft)
      else if c = ',' then some (.label draft)
      else if c = '\x7d' then some (.beforeNumber draft)
      else none
  | .beforeNumber draft, c =>
      if isBlank c then some (.beforeNumber draft) else some (.number draft [c])
  | .number draft digits, c =>
      if isBlank c then some (.afterNumber draft digits)
      else some (.number draft (digits ++ [c]))
  | .afterNumber draft digits, c =>
      if isBlank c then some (.afterNumber draft digits) else some (.timestamp draft digits [c])
  | .timestamp draft digits stamp, c =>
      if isBlank c then some (.afterTimestamp draft digits stamp)
      else some (.timestamp draft digits (stamp ++ [c]))
  | .afterTimestamp draft digits stamp, c =>
      if isBlank c then some (.afterTimestamp draft digits stamp) else none

section Read

variable {V : Type u} (numerals : Numerals V)

/-- The sample of a draft; each label is named once. -/
def Draft.sample (draft : Draft) (digits : List Char) (timestamp : Option Int) :
    Option (Sample V) :=
  if (draft.labels.map Prod.fst).Nodup then
    (numerals.value digits).map fun value =>
      { name := String.ofList draft.name
        labels := draft.labels.map fun label => (String.ofList label.1, String.ofList label.2)
        value := value
        timestamp := timestamp }
  else none

/-- What a line says, at its end. -/
def finish : Reading → Option (List (Sample V))
  | .start | .comment => some []
  | .number draft digits | .afterNumber draft digits =>
      (draft.sample numerals digits none).map fun sample => [sample]
  | .timestamp draft digits stamp | .afterTimestamp draft digits stamp =>
      (numerals.timestamp stamp).bind fun timestamp =>
        (draft.sample numerals digits (some timestamp)).map fun sample => [sample]
  | _ => none

/-- The samples of a text, and where in its last line it ends. -/
def run : Reading → List Char → Option (List (Sample V) × Reading)
  | reading, [] => some ([], reading)
  | reading, c :: rest =>
      if c = '\n' then
        (finish numerals reading).bind fun done =>
          (run .start rest).map fun more => (done ++ more.1, more.2)
      else (feed reading c).bind fun next => run next rest

/-- The samples of a page, whose last line is ended too. -/
def parse (page : String) : Option (List (Sample V)) :=
  (run numerals .start page.toList).bind fun read =>
    if read.2 = .start then some read.1 else none

end Read

/-! ### Writing -/

/-- A label value as it has to be written. -/
def escape : List Char → List Char
  | [] => []
  | c :: rest =>
      if c = '\\' then '\\' :: '\\' :: escape rest
      else if c = '\"' then '\\' :: '\"' :: escape rest
      else if c = '\n' then '\\' :: 'n' :: escape rest
      else c :: escape rest

/-- A sample to write. -/
structure Line where
  name : String
  labels : List (String × String)
  count : Nat
deriving DecidableEq, Repr

section Write

variable (quote : List Char → List Char)

def labelText (label : String × String) : List Char :=
  label.1.toList ++ '=' :: '\"' :: quote label.2.toList ++ ['\"']

def labelsText : List (String × String) → List Char
  | [] => []
  | [label] => labelText quote label
  | label :: next :: rest => labelText quote label ++ ',' :: labelsText (next :: rest)

/-- The line, with its label values written by `quote`. -/
def Line.text (line : Line) : List Char :=
  line.name.toList ++ '\x7b' :: labelsText quote line.labels ++
    '\x7d' :: ' ' :: line.count.repr.toList ++ ['\n']

end Write

/-- What a line says. -/
def Line.sample {V : Type u} (numerals : Numerals V) (line : Line) : Sample V :=
  { name := line.name
    labels := line.labels
    value := numerals.ofNat line.count
    timestamp := none }

/-! ### Reading in parts -/

section Parts

variable {V : Type u} {numerals : Numerals V}

theorem run_append (first second : List Char) (reading : Reading) :
    run numerals reading (first ++ second) =
      (run numerals reading first).bind fun read =>
        (run numerals read.2 second).map fun more => (read.1 ++ more.1, more.2) := by
  induction first generalizing reading with
  | nil => simp [run]
  | cons c rest inductionHypothesis =>
      rw [List.cons_append, run, run]
      split
      · cases finish numerals reading with
        | none => rfl
        | some done =>
            simp only [Option.bind_some, inductionHypothesis]
            cases run numerals .start rest with
            | none => rfl
            | some read => simp [Function.comp_def]
      · cases feed reading c with
        | none => rfl
        | some next => simp only [Option.bind_some, inductionHypothesis]

/-- After a line feed a line starts. -/
theorem run_ended {reading last : Reading} {body : List Char} {samples : List (Sample V)}
    (read : run numerals reading (body ++ ['\n']) = some (samples, last)) : last = .start := by
  rw [run_append, Option.bind_eq_some_iff] at read
  obtain ⟨⟨done, next⟩, _, ended⟩ := read
  rw [Option.map_eq_some_iff] at ended
  obtain ⟨more, step, same⟩ := ended
  simp only [run, ↓reduceIte, Option.map_some, Option.bind_eq_some_iff] at step
  obtain ⟨_, _, here⟩ := step
  rw [← Option.some_inj.mp here] at same
  exact (congrArg Prod.snd same).symm

theorem run_cons {reading next : Reading} {c : Char} (inLine : c ≠ '\n')
    (fed : feed reading c = some next) (rest : List Char) :
    run numerals reading (c :: rest) = run numerals next rest := by
  rw [run, if_neg inLine, fed, Option.bind_some]

/-- Characters that a state collects. -/
theorem run_collect (state : List Char → Reading) {collected : Char → Bool}
    (step : ∀ text c, collected c = true →
      c ≠ '\n' ∧ feed (state text) c = some (state (text ++ [c])))
    {more : List Char} (each : ∀ c ∈ more, collected c = true) (text rest : List Char) :
    run numerals (state text) (more ++ rest) = run numerals (state (text ++ more)) rest := by
  induction more generalizing text with
  | nil => rw [List.nil_append, List.append_nil]
  | cons c others inductionHypothesis =>
      obtain ⟨inLine, fed⟩ := step text c (each c List.mem_cons_self)
      rw [List.cons_append, run_cons inLine fed,
        inductionHypothesis (fun other member => each other (List.mem_cons_of_mem _ member)),
        List.append_assoc, List.singleton_append]

end Parts

/-! ### The round trip -/

def IsName (text : List Char) : Prop :=
  ∃ first others, text = first :: others ∧ isNameStart first = true ∧
    ∀ c ∈ others, isNameChar c = true

def IsLabel (text : List Char) : Prop :=
  ∃ first others, text = first :: others ∧ isLabelStart first = true ∧
    ∀ c ∈ others, isLabelChar c = true

instance (text : List Char) : Decidable (IsName text) :=
  match text with
  | [] => isFalse (by simp [IsName])
  | first :: others =>
      decidable_of_iff (isNameStart first = true ∧ others.all isNameChar = true)
        (by simp [IsName])

instance (text : List Char) : Decidable (IsLabel text) :=
  match text with
  | [] => isFalse (by simp [IsLabel])
  | first :: others =>
      decidable_of_iff (isLabelStart first = true ∧ others.all isLabelChar = true)
        (by simp [IsLabel])

/-- A line that the format can hold, whatever its label values are. -/
structure Line.WellFormed (line : Line) : Prop where
  name : IsName line.name.toList
  labels : ∀ label ∈ line.labels, IsLabel label.1.toList
  distinct : (line.labels.map Prod.fst).Nodup

theorem Line.wellFormed_of_names {line : Line} {names : List String}
    (name : IsName line.name.toList) (same : line.labels.map Prod.fst = names)
    (labels : ∀ label ∈ names, IsLabel label.toList) (distinct : names.Nodup) :
    line.WellFormed where
  name := name
  labels := by
    intro label member
    exact labels label.1 (same ▸ List.mem_map_of_mem member)
  distinct := same ▸ distinct

/-- The draft of a line when its labels have been read. -/
def Draft.ofLine (line : Line) : Draft :=
  { name := line.name.toList
    labels := line.labels.map fun label => (label.1.toList, label.2.toList) }

section RoundTrip

variable {V : Type u} {numerals : Numerals V}

theorem ne_of_accepted {accepted : Char → Bool} {c other : Char} (yes : accepted c = true)
    (no : accepted other = false) : c ≠ other := by
  rintro rfl
  rw [yes] at no
  cases no

theorem not_blank {accepted : Char → Bool} {c : Char} (yes : accepted c = true)
    (space : accepted ' ' = false) (tab : accepted '\t' = false) : isBlank c = false := by
  simp [isBlank, ne_of_accepted yes space, ne_of_accepted yes tab]

theorem run_name {text : List Char} (isName : IsName text) (rest : List Char) :
    run numerals .start (text ++ rest) = run numerals (.name text) rest := by
  obtain ⟨first, others, rfl, start, each⟩ := isName
  have fed : feed .start first = some (.name [first]) := by
    simp [feed, start, not_blank start (by decide) (by decide),
      ne_of_accepted start (by decide : isNameStart '#' = false)]
  rw [List.cons_append, run_cons (ne_of_accepted start (by decide)) fed]
  exact run_collect Reading.name
    (fun text c accepted => ⟨ne_of_accepted accepted (by decide), by simp [feed, accepted]⟩)
    each [first] rest

theorem run_value (draft : Draft) (label : List Char) (more text rest : List Char) :
    run numerals (.value draft label text) (escape more ++ rest) =
      run numerals (.value draft label (text ++ more)) rest := by
  induction more generalizing text with
  | nil => simp [escape]
  | cons c others inductionHypothesis =>
      have next := inductionHypothesis (text ++ [c])
      rw [List.append_assoc, List.singleton_append] at next
      rw [escape]
      split
      · rename_i same
        subst same
        rw [List.cons_append, run_cons (by decide) rfl, List.cons_append,
          run_cons (by decide) rfl, next]
      · split
        · rename_i same
          subst same
          rw [List.cons_append, run_cons (by decide) rfl, List.cons_append,
            run_cons (by decide) rfl, next]
        · split
          · rename_i same
            subst same
            rw [List.cons_append, run_cons (by decide) rfl, List.cons_append,
              run_cons (by decide) rfl, next]
          · rename_i notSlash notQuote inLine
            have fed : feed (.value draft label text) c =
                some (.value draft label (text ++ [c])) := by
              simp [feed, notSlash, notQuote]
            rw [List.cons_append, run_cons inLine fed, next]

theorem run_label {label : String × String} (isLabel : IsLabel label.1.toList) (draft : Draft)
    (rest : List Char) :
    run numerals (.label draft) (labelText escape label ++ rest) =
      run numerals (.afterValue { draft with
        labels := draft.labels ++ [(label.1.toList, label.2.toList)] }) rest := by
  obtain ⟨first, others, same, start, each⟩ := isLabel
  have fed : feed (.label draft) first = some (.labelName draft [first]) := by
    simp [feed, start, not_blank start (by decide) (by decide),
      ne_of_accepted start (by decide : isLabelStart '\x7d' = false)]
  have collect : ∀ rest, run numerals (.labelName draft [first]) (others ++ rest) =
      run numerals (.labelName draft ([first] ++ others)) rest :=
    run_collect (Reading.labelName draft)
      (fun text c accepted => ⟨ne_of_accepted accepted (by decide), by simp [feed, accepted]⟩)
      each [first]
  rw [labelText, same]
  simp only [List.cons_append, List.append_assoc]
  rw [run_cons (ne_of_accepted start (by decide)) fed, collect, run_cons (by decide) rfl,
    run_cons (by decide) rfl, run_value, run_cons (by decide) rfl]
  rfl

/-- The labels of a line, up to the closing brace. -/
theorem run_labels {labels : List (String × String)}
    (each : ∀ label ∈ labels, IsLabel label.1.toList) (draft : Draft) (rest : List Char) :
    run numerals (.label draft) (labelsText escape labels ++ '\x7d' :: rest) =
      run numerals (.beforeNumber { draft with labels := draft.labels ++
        (labels.map fun label => (label.1.toList, label.2.toList)) }) rest := by
  induction labels generalizing draft with
  | nil =>
      rw [labelsText, List.nil_append, run_cons (by decide) rfl, List.map_nil, List.append_nil]
  | cons label others inductionHypothesis =>
      have first := each label List.mem_cons_self
      cases others with
      | nil =>
          rw [labelsText, run_label first, run_cons (by decide) rfl]
          rfl
      | cons next others =>
          rw [labelsText, List.append_assoc, run_label first, List.cons_append,
            run_cons (by decide) rfl,
            inductionHypothesis fun label member => each label (List.mem_cons_of_mem _ member)]
          simp only [List.append_assoc, List.singleton_append, List.map_cons]

/-- The number of a line and its end, from wherever a digit begins the number. -/
theorem run_number {reading : Reading} {draft : Draft}
    (begins : ∀ c, c.isDigit = true → feed reading c = some (.number draft [c])) (count : Nat) :
    run numerals reading (count.repr.toList ++ ['\n']) =
      (draft.sample numerals count.repr.toList none).map fun sample => ([sample], .start) := by
  have digits : ∀ c ∈ count.repr.toList, c.isDigit = true := by
    intro c member
    rw [Nat.toList_repr] at member
    exact Nat.isDigit_of_mem_toDigits (by decide) (by decide) member
  have filled : count.repr.toList ≠ [] := by
    rw [Nat.toList_repr]
    exact Nat.toDigits_ne_nil
  obtain ⟨first, others, same⟩ := List.exists_cons_of_ne_nil filled
  rw [same] at digits ⊢
  have isDigit := digits first List.mem_cons_self
  have collect : run numerals (.number draft [first]) (others ++ ['\n']) =
      run numerals (.number draft ([first] ++ others)) ['\n'] :=
    run_collect (Reading.number draft)
      (fun text c accepted => ⟨ne_of_accepted accepted (by decide : Char.isDigit '\n' = false),
        by simp [feed, not_blank accepted (by decide) (by decide)]⟩)
      (fun c member => digits c (List.mem_cons_of_mem _ member)) [first] ['\n']
  rw [List.cons_append, run_cons (ne_of_accepted isDigit (by decide)) (begins first isDigit),
    collect]
  simp only [run, finish, ↓reduceIte, Option.map_some, List.append_nil, List.singleton_append]
  cases draft.sample numerals (first :: others) none <;> rfl

theorem sample_ofLine {line : Line} (distinct : (line.labels.map Prod.fst).Nodup) :
    (Draft.ofLine line).sample numerals line.count.repr.toList none =
      some (line.sample numerals) := by
  have same : (Draft.ofLine line).labels.map Prod.fst =
      (line.labels.map Prod.fst).map String.toList := by
    simp [Draft.ofLine]
  have unique : ((Draft.ofLine line).labels.map Prod.fst).Nodup := by
    rw [same]
    exact distinct.map fun _ _ => String.toList_injective
  rw [Draft.sample, if_pos unique, numerals.value_repr, Option.map_some]
  simp [Draft.ofLine, Line.sample, Function.comp_def]

/-- An escaped line reads as the sample it was written for. -/
theorem run_escaped {line : Line} (wellFormed : line.WellFormed) :
    run numerals .start (line.text escape) = some ([line.sample numerals], .start) := by
  have begins : ∀ c, c.isDigit = true →
      feed (.beforeNumber (.ofLine line)) c = some (.number (.ofLine line) [c]) := by
    intro c digit
    simp [feed, not_blank digit (by decide) (by decide)]
  have number : run numerals (.beforeNumber (.ofLine line)) (line.count.repr.toList ++ ['\n']) =
      some ([line.sample numerals], .start) := by
    rw [run_number begins, sample_ofLine wellFormed.distinct]
    rfl
  rw [Line.text]
  simp only [List.append_assoc, List.cons_append]
  rw [run_name wellFormed.name, run_cons (by decide) rfl, run_labels wellFormed.labels,
    run_cons (by decide) rfl]
  exact number

/-- A line without labels. -/
theorem run_bare {name : List Char} (isName : IsName name) (count : Nat) :
    run numerals .start (name ++ ' ' :: count.repr.toList ++ ['\n']) =
      some ([(Line.mk (String.ofList name) [] count).sample numerals], .start) := by
  have begins : ∀ c, c.isDigit = true → feed (.afterName { name := name, labels := [] }) c =
      some (.number { name := name, labels := [] } [c]) := by
    intro c digit
    simp [feed, not_blank digit (by decide) (by decide),
      ne_of_accepted digit (by decide : Char.isDigit '\x7b' = false)]
  rw [List.append_assoc, List.cons_append, run_name isName, run_cons (by decide) rfl,
    run_number begins, Draft.sample, numerals.value_repr]
  rfl

theorem run_comment {body : List Char} (inLine : '\n' ∉ body) :
    run numerals .start ('#' :: body ++ ['\n']) = some ([], .start) := by
  have skip : ∀ {text : List Char}, '\n' ∉ text →
      run numerals .comment (text ++ ['\n']) = some ([], .start) := by
    intro text
    induction text with
    | nil => exact fun _ => rfl
    | cons c rest inductionHypothesis =>
        intro fresh
        rw [List.mem_cons, not_or] at fresh
        rw [List.cons_append, run_cons (Ne.symm fresh.1) rfl, inductionHypothesis fresh.2]
  rw [List.cons_append, run_cons (by decide) rfl]
  exact skip inLine

/-- A page of escaped lines reads as the samples they were written for, whatever
the label values are. -/
theorem parse_escaped (lines : List Line) (wellFormed : ∀ line ∈ lines, line.WellFormed) :
    parse numerals (String.ofList (lines.flatMap (Line.text escape))) =
      some (lines.map (Line.sample numerals)) := by
  have read : run numerals .start (lines.flatMap (Line.text escape)) =
      some (lines.map (Line.sample numerals), .start) := by
    induction lines with
    | nil => rfl
    | cons line rest inductionHypothesis =>
        rw [List.flatMap_cons, run_append, run_escaped (wellFormed line List.mem_cons_self),
          Option.bind_some,
          inductionHypothesis fun line member => wellFormed line (List.mem_cons_of_mem _ member)]
        rfl
  rw [parse, String.toList_ofList, read]
  rfl

end RoundTrip

end Disburse.Library.Exposition
