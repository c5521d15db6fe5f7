import Disburse.Library.Exposition
import Mathlib.Algebra.BigOperators.Group.List.Basic
import Mathlib.Algebra.Order.BigOperators.Group.List
import Mathlib.Algebra.Order.Ring.Nat

/-!
Owns pages of the exposition format whose label values are written without
escapes. Such a page says what it was written for exactly when no label value
has a character that needs an escape.

The argument counts. Every line written begins with the name of its family, so
a page with as many samples of the families as lines has the samples on the
first line of each; and a special character in a value that was read stands for
at least one backslash in the text, a backslash for two.
-/

namespace Disburse.Library.Exposition

universe u

/-! ### Plain values -/

/-- No character that needs an escape. -/
def Plain (text : List Char) : Prop := ∀ c ∈ text, c ≠ '\\' ∧ c ≠ '\"' ∧ c ≠ '\n'

instance (text : List Char) : Decidable (Plain text) :=
  List.decidableBAll _ text

theorem escape_of_plain {text : List Char} (plain : Plain text) : escape text = text := by
  induction text with
  | nil => rfl
  | cons c rest inductionHypothesis =>
      obtain ⟨notSlash, notQuote, inLine⟩ := plain c List.mem_cons_self
      rw [escape, if_neg notSlash, if_neg notQuote, if_neg inLine,
        inductionHypothesis fun other member => plain other (List.mem_cons_of_mem _ member)]

/-- The backslashes that a character of a value takes at least: two for a
backslash, one for another special character. -/
def weight (c : Char) : Nat := if c = '\\' then 2 else if c = '\"' ∨ c = '\n' then 1 else 0

def weightOf (text : List Char) : Nat := (text.map weight).sum

@[simp] theorem weightOf_nil : weightOf [] = 0 := rfl

@[simp] theorem weightOf_cons (c : Char) (rest : List Char) :
    weightOf (c :: rest) = weight c + weightOf rest := rfl

@[simp] theorem weightOf_append (first second : List Char) :
    weightOf (first ++ second) = weightOf first + weightOf second := by
  simp [weightOf]

theorem weightOf_eq_zero {text : List Char} : weightOf text = 0 ↔ Plain text := by
  unfold weightOf Plain
  rw [List.sum_eq_zero_iff]
  constructor
  · intro zero c member
    have own := zero (weight c) (List.mem_map_of_mem member)
    unfold weight at own
    split at own
    · cases own
    · split at own
      · cases own
      · rename_i notSlash other
        rw [not_or] at other
        exact ⟨notSlash, other⟩
  · intro plain amount member
    obtain ⟨c, inside, rfl⟩ := List.mem_map.mp member
    obtain ⟨notSlash, notQuote, inLine⟩ := plain c inside
    rw [weight, if_neg notSlash, if_neg (not_or.mpr ⟨notQuote, inLine⟩)]

theorem count_le_weightOf (text : List Char) : 2 * text.count '\\' ≤ weightOf text := by
  induction text with
  | nil => rfl
  | cons c rest inductionHypothesis =>
      rw [List.count_cons, weightOf_cons]
      by_cases slash : c = '\\'
      · subst slash
        have two : weight '\\' = 2 := rfl
        simp only [BEq.rfl, ↓reduceIte]
        omega
      · simp only [beq_iff_eq, slash, ↓reduceIte]
        omega

/-! ### What a text can say -/

namespace Draft

def weight (draft : Draft) : Nat := (draft.labels.map fun label => weightOf label.2).sum

@[simp] theorem weight_snoc (draft : Draft) (label text : List Char) :
    ({ draft with labels := draft.labels ++ [(label, text)] } : Draft).weight =
      draft.weight + weightOf text := by
  simp [weight]

end Draft

namespace Reading

/-- The draft of the sample that is being read. -/
def draft : Reading → Option Draft
  | .start | .comment | .name _ => none
  | .afterName draft | .label draft | .labelName draft _ | .afterLabelName draft _
  | .beforeValue draft _ | .value draft _ _ | .escape draft _ _ | .afterValue draft
  | .beforeNumber draft | .number draft _ | .afterNumber draft _ | .timestamp draft _ _
  | .afterTimestamp draft _ _ => some draft

/-- The weight of the value that is being read. -/
def pending : Reading → Nat
  | .value _ _ text => weightOf text
  | .escape _ _ text => weightOf text + 1
  | _ => 0

/-- A sample of this name is being read, for at most so many backslashes. -/
def Within (name : List Char) (slashes : Nat) (reading : Reading) : Prop :=
  ∃ draft, reading.draft = some draft ∧ draft.name = name ∧
    draft.weight + reading.pending ≤ slashes

end Reading

/-- The backslash that was read pays for one, what follows it for the rest. -/
theorem Reading.Within.unescape {name label text : List Char} {slashes amount : Nat}
    {draft : Draft} {special : Char}
    (within : (Reading.escape draft label text).Within name slashes)
    (paid : weight special ≤ amount + 1) :
    (Reading.value draft label (text ++ [special])).Within name (slashes + amount) := by
  obtain ⟨own, same, rfl, bound⟩ := within
  cases same
  refine ⟨_, rfl, rfl, ?_⟩
  simp only [Reading.pending, weightOf_append, weightOf_cons, weightOf_nil] at bound ⊢
  omega

theorem feed_within {name : List Char} {slashes : Nat} {reading next : Reading} {c : Char}
    (within : reading.Within name slashes) (inLine : c ≠ '\n')
    (fed : feed reading c = some next) :
    next.Within name (slashes + if c = '\\' then 1 else 0) := by
  obtain ⟨draft, same, rfl, bound⟩ := within
  cases reading with
  | start => cases same
  | comment => cases same
  | name => cases same
  | value own label text =>
      cases same
      simp only [feed] at fed
      split at fed
      · cases fed
        refine ⟨_, rfl, rfl, ?_⟩
        simp only [Draft.weight_snoc, Reading.pending] at bound ⊢
        omega
      · split at fed
        · rename_i slash
          cases fed
          refine ⟨_, rfl, rfl, ?_⟩
          simp only [Reading.pending, slash, ↓reduceIte] at bound ⊢
          omega
        · rename_i notQuote notSlash
          cases fed
          have light : weight c = 0 := by
            rw [weight, if_neg notSlash, if_neg (not_or.mpr ⟨notQuote, inLine⟩)]
          refine ⟨_, rfl, rfl, ?_⟩
          simp only [Reading.pending, weightOf_append, weightOf_cons, weightOf_nil, light]
            at bound ⊢
          omega
  | escape own label text =>
      have here : (Reading.escape own label text).Within draft.name slashes :=
        ⟨draft, same, rfl, bound⟩
      simp only [feed] at fed
      split at fed
      · rename_i slash
        cases fed
        exact here.unescape (by rw [if_pos slash]; decide)
      · split at fed
        · cases fed
          exact here.unescape (Nat.le_add_left 1 _)
        · split at fed
          · cases fed
            exact here.unescape (Nat.le_add_left 1 _)
          · cases fed
  -- elsewhere the draft stays, and a value that begins is empty
  | _ =>
      cases same
      simp only [Reading.pending] at bound
      simp only [feed] at fed
      grind [Reading.Within, Reading.draft, Reading.pending, weightOf_nil]

section Run

variable {V : Type u} {numerals : Numerals V}

def Sample.weight (sample : Sample V) : Nat :=
  (sample.labels.map fun label => weightOf label.2.toList).sum

theorem sample_weight {draft : Draft} {digits : List Char} {timestamp : Option Int}
    {sample : Sample V} (read : draft.sample numerals digits timestamp = some sample) :
    sample.name = String.ofList draft.name ∧ sample.weight = draft.weight := by
  rw [Draft.sample, Option.ite_none_right_eq_some] at read
  obtain ⟨value, _, rfl⟩ := Option.map_eq_some_iff.mp read.2
  refine ⟨rfl, ?_⟩
  simp [Sample.weight, Draft.weight, Function.comp_def]

/-- At the end of the line there is one sample, of this name. -/
theorem finish_within {name : List Char} {slashes : Nat} {reading : Reading}
    (within : reading.Within name slashes) {done : List (Sample V)}
    (finished : finish numerals reading = some done) :
    ∃ sample, done = [sample] ∧ sample.name = String.ofList name ∧ sample.weight ≤ slashes := by
  obtain ⟨draft, same, rfl, bound⟩ := within
  have light : draft.weight ≤ slashes := Nat.le_of_add_right_le bound
  cases reading with
  | number own digits =>
      cases same
      obtain ⟨sample, read, rfl⟩ := Option.map_eq_some_iff.mp finished
      obtain ⟨named, weighed⟩ := sample_weight read
      exact ⟨sample, rfl, named, weighed ▸ light⟩
  | afterNumber own digits =>
      cases same
      obtain ⟨sample, read, rfl⟩ := Option.map_eq_some_iff.mp finished
      obtain ⟨named, weighed⟩ := sample_weight read
      exact ⟨sample, rfl, named, weighed ▸ light⟩
  | timestamp own digits stamp =>
      cases same
      obtain ⟨time, _, mapped⟩ := Option.bind_eq_some_iff.mp finished
      obtain ⟨sample, read, rfl⟩ := Option.map_eq_some_iff.mp mapped
      obtain ⟨named, weighed⟩ := sample_weight read
      exact ⟨sample, rfl, named, weighed ▸ light⟩
  | afterTimestamp own digits stamp =>
      cases same
      obtain ⟨time, _, mapped⟩ := Option.bind_eq_some_iff.mp finished
      obtain ⟨sample, read, rfl⟩ := Option.map_eq_some_iff.mp mapped
      obtain ⟨named, weighed⟩ := sample_weight read
      exact ⟨sample, rfl, named, weighed ▸ light⟩
  | start => cases same
  | comment => cases same
  | _ => cases finished

/-- The first line of a text that begins inside a sample says one sample. -/
theorem run_within {name : List Char} {slashes : Nat} {reading : Reading} {text : List Char}
    (within : reading.Within name slashes) {samples : List (Sample V)}
    (read : run numerals reading text = some (samples, .start)) :
    ∃ sample more, samples = sample :: more ∧ sample.name = String.ofList name ∧
      sample.weight ≤ slashes + text.count '\\' := by
  induction text generalizing reading slashes with
  | nil =>
      obtain ⟨draft, same, _⟩ := within
      rw [run, Option.some_inj, Prod.mk.injEq] at read
      rw [read.2] at same
      cases same
  | cons c rest inductionHypothesis =>
      rw [run] at read
      split at read
      · obtain ⟨done, finished, mapped⟩ := Option.bind_eq_some_iff.mp read
        obtain ⟨more, _, same⟩ := Option.map_eq_some_iff.mp mapped
        obtain ⟨sample, rfl, named, light⟩ := finish_within within finished
        rw [Prod.mk.injEq] at same
        exact ⟨sample, more.1, same.1.symm, named, Nat.le_add_right_of_le light⟩
      · rename_i inLine
        obtain ⟨next, fed, tail⟩ := Option.bind_eq_some_iff.mp read
        obtain ⟨sample, more, same, named, light⟩ :=
          inductionHypothesis (feed_within within inLine fed) tail
        refine ⟨sample, more, same, named, ?_⟩
        rw [List.count_cons]
        simp only [beq_iff_eq]
        omega

end Run

/-! ### A raw line -/

/-- The backslashes in the label values of a line. -/
def Line.slashes (line : Line) : Nat :=
  (line.labels.map fun label => label.2.toList.count '\\').sum

/-- The label values of a line need no escapes. -/
def Line.Plain (line : Line) : Prop :=
  ∀ label ∈ line.labels, Exposition.Plain label.2.toList

theorem labelsText_of_plain {labels : List (String × String)}
    (plain : ∀ label ∈ labels, Plain label.2.toList) :
    labelsText id labels = labelsText escape labels := by
  have own : ∀ label ∈ labels, labelText id label = labelText escape label := by
    intro label member
    rw [labelText, labelText, escape_of_plain (plain label member)]
    rfl
  clear plain
  induction labels with
  | nil => rfl
  | cons label others inductionHypothesis =>
      have first := own label List.mem_cons_self
      have tail := inductionHypothesis fun other member =>
        own other (List.mem_cons_of_mem _ member)
      cases others with
      | nil => exact first
      | cons next others => rw [labelsText, labelsText, first, tail]

theorem Line.text_of_plain {line : Line} (plain : line.Plain) :
    line.text id = line.text escape := by
  rw [text, text, labelsText_of_plain plain]

theorem count_accepted {accepted : Char → Bool} (refused : accepted '\\' = false)
    {text : List Char} (each : ∀ c ∈ text, accepted c = true) : text.count '\\' = 0 := by
  rw [List.count_eq_zero]
  intro member
  exact ne_of_accepted (each _ member) refused rfl

theorem IsLabel.count {text : List Char} (isLabel : IsLabel text) : text.count '\\' = 0 := by
  obtain ⟨first, others, rfl, start, each⟩ := isLabel
  have notSlash := ne_of_accepted start (by decide : isLabelStart '\\' = false)
  rw [List.count_cons_of_ne notSlash, count_accepted (by decide) each]

theorem IsName.count {text : List Char} (isName : IsName text) : text.count '\\' = 0 := by
  obtain ⟨first, others, rfl, start, each⟩ := isName
  have notSlash := ne_of_accepted start (by decide : isNameStart '\\' = false)
  rw [List.count_cons_of_ne notSlash, count_accepted (by decide) each]

theorem count_labelText {label : String × String} (isLabel : IsLabel label.1.toList) :
    (labelText id label).count '\\' = label.2.toList.count '\\' := by
  simp [labelText, isLabel.count]

theorem count_labelsText {labels : List (String × String)}
    (each : ∀ label ∈ labels, IsLabel label.1.toList) :
    (labelsText id labels).count '\\' =
      (labels.map fun label => label.2.toList.count '\\').sum := by
  induction labels with
  | nil => rfl
  | cons label others inductionHypothesis =>
      have first := count_labelText (each label List.mem_cons_self)
      have tail := inductionHypothesis fun other member =>
        each other (List.mem_cons_of_mem _ member)
      cases others with
      | nil => simpa [labelsText] using first
      | cons next others =>
          rw [labelsText, List.count_append, first, List.count_cons_of_ne (by decide), tail]
          rfl

/-- All backslashes of a raw line are in its label values. -/
theorem Line.WellFormed.count_text {line : Line} (wellFormed : line.WellFormed) :
    (line.text id).count '\\' = line.slashes := by
  have digits : (Nat.toDigits 10 line.count).count '\\' = 0 := by
    apply count_accepted (by decide : Char.isDigit '\\' = false)
    intro c member
    exact Nat.isDigit_of_mem_toDigits (by decide) (by decide) member
  simp [text, slashes, wellFormed.name.count, count_labelsText wellFormed.labels, digits]

section Raw

variable {V : Type u} {numerals : Numerals V}

theorem run_plain {line : Line} (wellFormed : line.WellFormed) (plain : line.Plain) :
    run numerals .start (line.text id) = some ([line.sample numerals], .start) := by
  rw [Line.text_of_plain plain]
  exact run_escaped wellFormed

/-- Whatever its label values are, a raw line says a sample of its name, if
anything, and that one holds no more than the line has backslashes for. -/
theorem run_raw {line : Line} (wellFormed : line.WellFormed) {samples : List (Sample V)}
    (read : run numerals .start (line.text id) = some (samples, .start)) :
    ∃ sample more, samples = sample :: more ∧ sample.name = line.name ∧
      sample.weight ≤ line.slashes := by
  have slashes := wellFormed.count_text
  unfold Line.text at read slashes
  simp only [List.append_assoc, List.cons_append] at read slashes
  rw [run_name wellFormed.name, run_cons (by decide) rfl] at read
  rw [List.count_append, List.count_cons_of_ne (by decide)] at slashes
  have within : Reading.Within line.name.toList 0
      (.label { name := line.name.toList, labels := [] }) := ⟨_, rfl, rfl, Nat.le_refl 0⟩
  obtain ⟨sample, more, same, named, light⟩ := run_within within read
  rw [String.ofList_toList] at named
  exact ⟨sample, more, same, named, by omega⟩

end Raw

/-! ### Pages -/

/-- A piece of a page: a raw line of the families that are looked at, or any
other text. -/
inductive Block where
  | raw (line : Line)
  | other (text : List Char)

namespace Block

def text : Block → List Char
  | .raw line => line.text id
  | .other text => text

def line? : Block → Option Line
  | .raw line => some line
  | .other _ => none

end Block

def lines (blocks : List Block) : List Line := blocks.filterMap Block.line?

section Lines

variable {α : Type u} (values : List α)

@[simp] theorem lines_nil : lines [] = [] := rfl

@[simp] theorem lines_cons_raw (line : Line) (rest : List Block) :
    lines (.raw line :: rest) = line :: lines rest := rfl

@[simp] theorem lines_cons_other (text : List Char) (rest : List Block) :
    lines (.other text :: rest) = lines rest := rfl

@[simp] theorem lines_append (first second : List Block) :
    lines (first ++ second) = lines first ++ lines second :=
  List.filterMap_append

@[simp] theorem lines_map_raw (line : α → Line) :
    lines (values.map fun value => .raw (line value)) = values.map line := by
  induction values with
  | nil => rfl
  | cons value rest inductionHypothesis =>
      rw [List.map_cons, lines_cons_raw, inductionHypothesis, List.map_cons]

@[simp] theorem lines_map_other (text : α → List Char) :
    lines (values.map fun value => .other (text value)) = [] := by
  induction values with
  | nil => rfl
  | cons value rest inductionHypothesis =>
      rw [List.map_cons, lines_cons_other, inductionHypothesis]

end Lines

section Pages

variable {V : Type u} (numerals : Numerals V) (family : String → Bool)

/-- The samples of the families among others. -/
def ofFamily (samples : List (Sample V)) : List (Sample V) :=
  samples.filter fun sample => family sample.name

/-- The text reads and says nothing of the families. -/
def Harmless (text : List Char) : Prop :=
  ∃ samples, run numerals .start text = some (samples, .start) ∧ ofFamily family samples = []

theorem harmless_of_plain {numerals : Numerals V} {family : String → Bool} {line : Line}
    (wellFormed : line.WellFormed) (plain : line.Plain) (foreign : family line.name = false) :
    Harmless numerals family (line.text id) := by
  refine ⟨_, run_plain wellFormed plain, ?_⟩
  have stranger : family (line.sample numerals).name = false := foreign
  simp [ofFamily, stranger]

/-- A block that can be checked by itself: a line of a family, or a text that
ends its last line. -/
def Block.Sound : Block → Prop
  | .raw line => line.WellFormed ∧ family line.name = true
  | .other text => ∃ body, text = body ++ ['\n']

/-- The page reads, and what it says of the families is what the lines were
written for. -/
def Faithful (blocks : List Block) : Prop :=
  ∃ samples, run numerals .start (blocks.flatMap Block.text) = some (samples, .start) ∧
    (ofFamily family samples : Multiset (Sample V)) = (lines blocks).map (Line.sample numerals)

variable {numerals} {family}

theorem run_block {block : Block} (sound : block.Sound family) {reading last : Reading}
    {samples : List (Sample V)}
    (read : run numerals reading block.text = some (samples, last)) : last = .start := by
  cases block with
  | raw line => exact run_ended read
  | other text =>
      obtain ⟨body, rfl⟩ := sound
      exact run_ended read

/-- A page that reads is made of blocks that read. -/
theorem run_blocks_cons {block : Block} (sound : block.Sound family) {rest : List Block}
    {samples : List (Sample V)}
    (read : run numerals .start ((block :: rest).flatMap Block.text) = some (samples, .start)) :
    ∃ first others, samples = first ++ others ∧
      run numerals .start block.text = some (first, .start) ∧
      run numerals .start (rest.flatMap Block.text) = some (others, .start) := by
  rw [List.flatMap_cons, run_append] at read
  obtain ⟨⟨first, last⟩, firstRead, mapped⟩ := Option.bind_eq_some_iff.mp read
  obtain ⟨⟨others, finish⟩, othersRead, same⟩ := Option.map_eq_some_iff.mp mapped
  have ended := run_block sound firstRead
  subst ended
  rw [Prod.mk.injEq] at same
  dsimp only at same othersRead
  rw [same.2] at othersRead
  exact ⟨first, others, same.1.symm, firstRead, othersRead⟩

@[simp] theorem ofFamily_append (first second : List (Sample V)) :
    ofFamily family (first ++ second) = ofFamily family first ++ ofFamily family second :=
  List.filter_append ..

theorem ofFamily_cons {sample : Sample V} (counted : family sample.name = true)
    (more : List (Sample V)) :
    ofFamily family (sample :: more) = sample :: ofFamily family more := by
  simp [ofFamily, counted]

/-- The samples on the first lines of the raw lines: one for each, among those
that were read, and not heavier than the backslashes of the lines. With no
further samples the other texts are harmless. -/
theorem run_blocks {blocks : List Block} (sound : ∀ block ∈ blocks, block.Sound family)
    {samples : List (Sample V)}
    (read : run numerals .start (blocks.flatMap Block.text) = some (samples, .start)) :
    ∃ firsts : List (Sample V), firsts.Sublist (ofFamily family samples) ∧
      firsts.length = (lines blocks).length ∧
      (firsts.map Sample.weight).sum ≤ ((lines blocks).map Line.slashes).sum ∧
      ((ofFamily family samples).length = (lines blocks).length →
        ∀ text, .other text ∈ blocks → Harmless numerals family text) := by
  induction blocks generalizing samples with
  | nil =>
      exact ⟨[], List.nil_sublist _, rfl, Nat.le_refl 0, fun _ text member => by cases member⟩
  | cons block rest inductionHypothesis =>
      have own := sound block List.mem_cons_self
      obtain ⟨first, others, rfl, firstRead, othersRead⟩ := run_blocks_cons own read
      obtain ⟨firsts, inside, many, light, harmless⟩ := inductionHypothesis
        (fun other member => sound other (List.mem_cons_of_mem _ member)) othersRead
      have atLeast := inside.length_le
      rw [many] at atLeast
      cases block with
      | raw line =>
          obtain ⟨sample, more, rfl, named, lightSample⟩ := run_raw own.1 firstRead
          have counted : family sample.name = true := named ▸ own.2
          have split : ofFamily family ((sample :: more) ++ others) =
              sample :: (ofFamily family more ++ ofFamily family others) := by
            rw [ofFamily_append, ofFamily_cons counted]
            rfl
          rw [split]
          refine ⟨sample :: firsts, ?_, ?_, ?_, ?_⟩
          · exact (inside.trans (List.sublist_append_right _ _)).cons_cons sample
          · exact congrArg Nat.succ many
          · show sample.weight + (firsts.map Sample.weight).sum ≤
              line.slashes + ((lines rest).map Line.slashes).sum
            omega
          · intro asMany text member
            have lengths : (ofFamily family more).length + (ofFamily family others).length + 1 =
                (lines rest).length + 1 := by
              rw [← List.length_append]
              exact asMany
            refine harmless (by omega) text ?_
            rcases List.mem_cons.mp member with same | inRest
            · cases same
            · exact inRest
      | other text =>
          rw [ofFamily_append]
          refine ⟨firsts, inside.trans (List.sublist_append_right _ _), many, light, ?_⟩
          intro asMany own member
          rw [List.length_append] at asMany
          have asManyLines : (ofFamily family first).length + (ofFamily family others).length =
              (lines rest).length := asMany
          rcases List.mem_cons.mp member with same | inRest
          · cases same
            exact ⟨first, firstRead, List.length_eq_zero_iff.mp (by omega)⟩
          · exact harmless (by omega) own inRest

/-- Blocks that are plain or harmless say what the lines were written for. -/
theorem run_plain_blocks {blocks : List Block} (sound : ∀ block ∈ blocks, block.Sound family)
    (plain : ∀ line ∈ lines blocks, line.Plain)
    (harmless : ∀ text, .other text ∈ blocks → Harmless numerals family text) :
    ∃ samples, run numerals .start (blocks.flatMap Block.text) = some (samples, .start) ∧
      ofFamily family samples = (lines blocks).map (Line.sample numerals) := by
  induction blocks with
  | nil => exact ⟨[], rfl, rfl⟩
  | cons block rest inductionHypothesis =>
      have own := sound block List.mem_cons_self
      have tail := inductionHypothesis
        (fun other member => sound other (List.mem_cons_of_mem _ member))
      cases block with
      | raw line =>
          obtain ⟨others, othersRead, same⟩ := tail
            (fun other member => plain other (List.mem_cons_of_mem _ member))
            (fun text member => harmless text (List.mem_cons_of_mem _ member))
          refine ⟨line.sample numerals :: others, ?_, ?_⟩
          · rw [List.flatMap_cons, run_append, Block.text,
              run_plain own.1 (plain line List.mem_cons_self), Option.bind_some, othersRead]
            rfl
          · rw [ofFamily_cons own.2, same]
            rfl
      | other text =>
          obtain ⟨others, othersRead, same⟩ := tail plain
            (fun text member => harmless text (List.mem_cons_of_mem _ member))
          obtain ⟨first, firstRead, nothing⟩ := harmless text List.mem_cons_self
          refine ⟨first ++ others, ?_, ?_⟩
          · rw [List.flatMap_cons, run_append, Block.text, firstRead, Option.bind_some, othersRead]
            rfl
          · rw [ofFamily_append, nothing, List.nil_append, same]
            rfl

theorem Line.slashes_le (line : Line) : 2 * line.slashes ≤ (line.sample numerals).weight := by
  show 2 * (line.labels.map fun label => label.2.toList.count '\\').sum ≤
    (line.labels.map fun label => weightOf label.2.toList).sum
  induction line.labels with
  | nil => exact Nat.le_refl 0
  | cons label others inductionHypothesis =>
      have first := count_le_weightOf label.2.toList
      simp only [List.map_cons, List.sum_cons]
      omega

theorem Line.plain_iff (line : Line) : (line.sample numerals).weight = 0 ↔ line.Plain := by
  show (line.labels.map fun label => weightOf label.2.toList).sum = 0 ↔ _
  rw [List.sum_eq_zero_iff]
  constructor
  · intro zero label member
    exact weightOf_eq_zero.mp (zero _ (List.mem_map_of_mem member))
  · intro plain amount member
    obtain ⟨label, inside, rfl⟩ := List.mem_map.mp member
    exact weightOf_eq_zero.mpr (plain label inside)

/-- A page of raw lines and other texts is faithful exactly when the lines need
no escapes and the texts are harmless. -/
theorem faithful_iff {blocks : List Block} (sound : ∀ block ∈ blocks, block.Sound family) :
    Faithful numerals family blocks ↔ (∀ line ∈ lines blocks, line.Plain) ∧
      ∀ text, .other text ∈ blocks → Harmless numerals family text := by
  constructor
  · intro faithful
    obtain ⟨samples, read, same⟩ := faithful
    obtain ⟨firsts, inside, many, light, harmless⟩ := run_blocks sound read
    have asMany : (ofFamily family samples).length = (lines blocks).length := by
      have cards := congrArg Multiset.card same
      simpa using cards
    have all : firsts = ofFamily family samples :=
      inside.eq_of_length (many.trans asMany.symm)
    -- what was read weighs as much as what was written, so at least twice its backslashes
    have weights : (firsts.map Sample.weight).sum =
        ((lines blocks).map fun line => (line.sample numerals).weight).sum := by
      have sums := congrArg (fun read => (read.map Sample.weight).sum) same
      rw [all]
      simpa [Function.comp_def] using sums
    have heavy : 2 * ((lines blocks).map Line.slashes).sum ≤
        ((lines blocks).map fun line => (line.sample numerals).weight).sum := by
      clear weights light many asMany same
      induction lines blocks with
      | nil => exact Nat.le_refl 0
      | cons line rest inductionHypothesis =>
          have first : 2 * line.slashes ≤ (line.sample numerals).weight := line.slashes_le
          simp only [List.map_cons, List.sum_cons]
          omega
    have none : ((lines blocks).map fun line => (line.sample numerals).weight).sum = 0 := by
      omega
    refine ⟨fun line member => ?_, harmless asMany⟩
    have weightless : (line.sample numerals).weight = 0 :=
      List.sum_eq_zero_iff.mp none _ (List.mem_map_of_mem member)
    exact line.plain_iff.mp weightless
  · intro condition
    obtain ⟨samples, read, same⟩ := run_plain_blocks sound condition.1 condition.2
    exact ⟨samples, read, congrArg _ same⟩

end Pages

end Disburse.Library.Exposition
