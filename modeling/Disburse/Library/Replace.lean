import Mathlib.Data.List.Infix

/-!
Owns the replacement of a text by another in a string: the runs of characters
that are kept and the matches that are replaced, from left to right, and the
case of a text that occurs only once because a character marks it.
-/

namespace Disburse.Library

/-- `Replaces pattern replacement text result`: read from left to right, the
text is matches, which are replaced, and runs in which no match begins. -/
inductive Replaces (pattern replacement : List Char) : List Char → List Char → Prop where
  | done : Replaces pattern replacement [] []
  | found {rest result : List Char} (tail : Replaces pattern replacement rest result) :
      Replaces pattern replacement (pattern ++ rest) (replacement ++ result)
  | kept (run : List Char) {rest result : List Char}
      (none : ∀ first later, run = first ++ later → later ≠ [] → ¬ pattern <+: later ++ rest)
      (tail : Replaces pattern replacement rest result) :
      Replaces pattern replacement (run ++ rest) (run ++ result)

/-! ### `String.replace` -/

section Search

open String String.Slice String.Slice.Pattern String.Slice.Pattern.Model

/-- One step of `String.replace`. -/
def replaceStep {text : Slice} (replacement : String) (sofar : String) :
    SearchStep text → String
  | .matched _ _ => sofar ++ ToSlice.toSlice replacement
  | .rejected start stop => sofar ++ text.slice! start stop

/-- Between two positions where no match begins, none begins in the text between
them. -/
theorem no_match_between {pattern : String} {text : Slice} {start stop : text.Pos}
    {before run rest : String} (atStart : start.Splits before (run ++ rest))
    (atStop : stop.Splits (before ++ run) rest)
    (none : ∀ pos, start ≤ pos → pos < stop → ¬ MatchesAt pattern pos)
    (first later : List Char) (parts : run.toList = first ++ later) (filled : later ≠ []) :
    ¬ pattern.toList <+: later ++ rest.toList := by
  rintro ⟨tail, matched⟩
  have runParts : run = String.ofList first ++ String.ofList later := by
    rw [← String.ofList_append, ← parts, String.ofList_toList]
  have here : String.ofList later ++ rest = pattern ++ String.ofList tail := by
    apply String.toList_injective
    simp only [String.toList_append, String.toList_ofList]
    exact matched.symm
  have whole : text.copy = (before ++ String.ofList first) ++ (String.ofList later ++ rest) := by
    rw [atStart.eq_append, runParts]
    simp only [String.append_assoc]
  have valid : (before ++ String.ofList first).rawEndPos.IsValidForSlice text :=
    Pos.Raw.isValidForSlice_iff_exists_append.mpr ⟨_, _, whole, rfl⟩
  have place : (text.pos _ valid).Splits (before ++ String.ofList first)
      (String.ofList later ++ rest) := ⟨whole, by simp⟩
  have nonempty : String.ofList later ≠ "" := by simpa using filled
  have fromStart : start ≤ text.pos _ valid := by
    refine (atStart.le_iff_exists_eq_append place).mpr ⟨String.ofList first, rfl, ?_⟩
    rw [runParts, String.append_assoc]
  have beforeStop : text.pos _ valid < stop := by
    refine (place.lt_iff_exists_eq_append atStop).mpr ⟨String.ofList later, nonempty, ?_, rfl⟩
    rw [runParts, String.append_assoc]
  rw [here] at place
  exact none _ fromStart beforeStop (ForwardStringSearcher.matchesAt_iff_splits.mpr ⟨_, _, place⟩)

theorem replaces_of_search {pattern replacement : String} {text : Slice} {start : text.Pos}
    {steps : List (SearchStep text)} (search : IsValidSearchFrom pattern start steps)
    (sofar before after : String) (splits : start.Splits before after) :
    ∃ result, steps.foldl (replaceStep replacement) sofar = sofar ++ result ∧
      Replaces pattern.toList replacement.toList after.toList result.toList := by
  induction search generalizing sofar before after with
  | endPos =>
      have ended : after = "" := splits.eq_right text.splits_endPos
      subst ended
      exact ⟨"", by simp, .done⟩
  | matched found tail inductionHypothesis =>
      obtain ⟨left, right, atStart, atEnd⟩ :=
        ForwardStringSearcher.isLongestMatchAt_iff_splits.mp found
      have same : after = pattern ++ right := splits.eq_right atStart
      obtain ⟨result, folded, replaces⟩ := inductionHypothesis (sofar ++ replacement) _ _ atEnd
      refine ⟨replacement ++ result, ?_, ?_⟩
      · have whole : (ToSlice.toSlice replacement).copy = replacement := String.copy_toSlice
        rw [← String.append_assoc, ← folded]
        simp [replaceStep, whole]
      · rw [same, String.toList_append, String.toList_append]
        exact .found replaces
  | @mismatched _ start stop forward none tail inductionHypothesis =>
      obtain ⟨passed, rest, atStop⟩ : ∃ passed rest, stop.Splits passed rest :=
        ⟨_, _, stop.splits⟩
      obtain ⟨run, nonempty, rfl, rfl⟩ := (splits.lt_iff_exists_eq_append atStop).mp forward
      obtain ⟨result, folded, replaces⟩ := inductionHypothesis (sofar ++ run) _ _ atStop
      have cut : (text.slice! start stop).copy = run := by
        obtain ⟨inside, same⟩ := copy_slice_eq_iff_splits.mpr ⟨before, rest, splits, atStop⟩
        rw [← Slice.slice_eq_slice! (h := inside), same]
      refine ⟨run ++ result, ?_, ?_⟩
      · rw [← String.append_assoc, ← folded]
        simp [replaceStep, cut]
      · rw [String.toList_append, String.toList_append]
        exact .kept run.toList (no_match_between splits atStop none) replaces

/-- `String.replace` replaces the matches of a text that is not empty. -/
theorem replaces_replace {pattern : String} (nonempty : pattern ≠ "")
    (text replacement : String) :
    Replaces pattern.toList replacement.toList text.toList
      (text.replace pattern replacement).toList := by
  have search := (ForwardStringSearcher.lawfulToForwardSearcherModel
    nonempty).isValidSearchFrom_toList text.toSlice
  have atStart : text.toSlice.startPos.Splits "" text := by
    simp
  obtain ⟨result, folded, replaces⟩ :=
    @replaces_of_search _ replacement _ _ _ search "" "" text atStart
  have same : text.replace pattern replacement = result := by
    rw [← String.empty_append (s := result), ← folded, Std.Iter.foldl_toList]
    show (ToForwardSearcher.toSearcher pattern text.toSlice).fold _ "" = _
    congr 1
    funext sofar step
    cases step <;> rfl
  rw [same]
  exact replaces

end Search

/-! ### A text that is marked by a character -/

section Marked

variable {pattern replacement : List Char} {mark : Char}

/-- A text without the mark has no match. -/
theorem Replaces.of_unmarked (marked : mark ∈ pattern) {text result : List Char}
    (replaces : Replaces pattern replacement text result) (unmarked : mark ∉ text) :
    result = text := by
  induction replaces with
  | done => rfl
  | found tail => exact absurd (List.mem_append_left _ marked) unmarked
  | kept run none tail inductionHypothesis =>
      rw [List.mem_append, not_or] at unmarked
      rw [inductionHypothesis unmarked.2]

/-- Up to its first mark a text is cut in one way. -/
theorem takeWhile_unmarked {front back : List Char} (free : mark ∉ front) :
    (front ++ mark :: back).takeWhile (· != mark) = front := by
  have passes : ∀ c ∈ front, (c != mark) = true := by
    intro c member
    exact bne_iff_ne.mpr fun same => free (same ▸ member)
  rw [List.takeWhile_append_of_pos passes, List.takeWhile_cons_of_neg (by simp),
    List.append_nil]

/-- Around a marked text with no further marks there is one way to cut. -/
theorem cut_unique {before after left right : List Char} (marked : mark ∈ pattern)
    (beforeFree : mark ∉ before) (afterFree : mark ∉ after)
    (same : left ++ pattern ++ right = before ++ pattern ++ after) :
    left = before ∧ right = after := by
  have counts := congrArg (List.count mark) same
  simp only [List.count_append, List.count_eq_zero.mpr beforeFree,
    List.count_eq_zero.mpr afterFree] at counts
  have leftFree : mark ∉ left := List.count_eq_zero.mp (by omega)
  obtain ⟨first, later, rfl, fresh⟩ := List.eq_append_cons_of_mem marked
  have parts : left ++ first ++ mark :: (later ++ right) =
      before ++ first ++ mark :: (later ++ after) := by
    simpa only [List.append_assoc, List.cons_append] using same
  -- up to the first mark of the text both cuts read the same
  have leftHead : (left ++ first ++ mark :: (later ++ right)).takeWhile (· != mark) =
      left ++ first := takeWhile_unmarked (by simp [leftFree, fresh])
  rw [parts, takeWhile_unmarked (by simp [beforeFree, fresh])] at leftHead
  have sameBefore : left = before := (List.append_cancel_right leftHead).symm
  rw [sameBefore] at same
  exact ⟨sameBefore, List.append_cancel_left same⟩

/-- A text with the mark, between two without it, is replaced and nothing else is. -/
theorem Replaces.of_marked (marked : mark ∈ pattern) {before after text result : List Char}
    (beforeFree : mark ∉ before) (afterFree : mark ∉ after)
    (whole : text = before ++ pattern ++ after)
    (replaces : Replaces pattern replacement text result) :
    result = before ++ replacement ++ after := by
  induction replaces generalizing before with
  | done =>
      have inside : mark ∈ before ++ pattern ++ after := by simp [marked]
      rw [← whole] at inside
      cases inside
  | @found rest result tail inductionHypothesis =>
      have cut := @cut_unique _ _ _ _ [] _ marked beforeFree afterFree whole
      rw [← cut.1, tail.of_unmarked marked (cut.2 ▸ afterFree), cut.2]
      rfl
  | @kept run rest result none tail inductionHypothesis =>
      rw [List.append_assoc] at whole
      rcases List.append_eq_append_iff.mp whole with ⟨later, rfl, same⟩ | ⟨later, rfl, same⟩
      · rw [List.mem_append, not_or] at beforeFree
        rw [inductionHypothesis beforeFree.2 (by rw [same, List.append_assoc])]
        simp only [List.append_assoc]
      · cases later with
        | nil =>
            rw [List.nil_append] at same
            rw [@inductionHypothesis [] (by simp) same.symm]
            simp
        | cons c others =>
            refine absurd ?_ (none before (c :: others) rfl (by simp))
            rw [← same]
            exact List.prefix_append _ _

end Marked

end Disburse.Library
