import ErrorAnalysis.Value.Compare
import ErrorAnalysis.Proofs.Lexing.Insertion

/-!
# Documents of Plain Text

A plain text is cut into words at blanks, and its document shows these words with a single space between
them. To cut that text again gives the words back, whatever the blanks of the first text were: words have
no blanks in them and are not empty, so the spaces are all that it is cut at. What is known of a word in
such a document follows from its text, and whether it opens a sentence from the text of the word in front
of it. So the document comes back with the words.

## Main definitions

* `IsPlainWord`: characters that can be a word.

## Main results

* `splitWords_eq_filter_splitOnP`: words are the pieces between blanks that are not empty.
* `splitWords_append_cons`: **a blank cuts a text into two that have their own words.**
* `splitWords_intercalate`: words with spaces between them are cut into the same words.
* `Document.text_ofText`: the text of a document of plain text.
* `Document.ofText_reproduces`: **the text of such a document has the same document.**
-/

namespace ErrorAnalysis

variable {c : Char} {cs ds w : List Char} {ws : List (List Char)}

/-! ### Words -/

/-- Characters that can be a word: there are some, and none of them is blank. -/
def IsPlainWord (w : List Char) : Prop :=
  w ≠ [] ∧ ∀ c ∈ w, isBlank c = false

/-- Words are the pieces between blanks that are not empty. -/
theorem splitWords_eq_filter_splitOnP (cs : List Char) :
    splitWords cs = (cs.splitOnP isBlank).filter fun w => !w.isEmpty := by
  induction cs with
  | nil => rfl
  | cons c cs ih =>
      rw [splitWords.eq_def, List.splitOnP_cons_eq_if_modifyHead]
      dsimp only
      rw [ih]
      by_cases hc : isBlank c = true
      · rw [if_pos hc, if_pos hc]
        rfl
      rw [if_neg hc, if_neg hc]
      cases cs with
      | nil => rfl
      | cons d cs =>
          obtain ⟨w, ws, hsplit⟩ := List.exists_cons_of_ne_nil (List.splitOnP_ne_nil isBlank cs)
          rw [List.splitOnP_cons_eq_if_modifyHead, hsplit]
          by_cases hd : isBlank d = true
          · rw [if_pos hd]
            change _ = [c] :: List.filter (fun w => !w.isEmpty) ([] :: w :: ws)
            -- `c` is a word of its own, whether or not there are others
            cases List.filter (fun w => !w.isEmpty) ([] :: w :: ws) with
            | nil => rfl
            | cons => exact if_pos hd
          · rw [if_neg hd]
            exact if_neg hd

/-- **A blank cuts a text into two that have their own words.** -/
theorem splitWords_append_cons (hc : isBlank c = true) (cs ds : List Char) :
    splitWords (cs ++ c :: ds) = splitWords cs ++ splitWords ds := by
  simp only [splitWords_eq_filter_splitOnP, List.splitOnP_append_cons cs ds hc, List.filter_append]

theorem splitWords_of_isPlainWord (h : IsPlainWord w) : splitWords w = [w] := by
  rw [splitWords_eq_filter_splitOnP, List.splitOnP_eq_singleton h.2, List.filter_singleton,
    List.isEmpty_eq_false_iff.mpr h.1]
  rfl

/-- A text is cut into words. -/
theorem isPlainWord_of_mem_splitWords {cs : List Char} (hw : w ∈ splitWords cs) :
    IsPlainWord w := by
  by_cases hblank : ∃ c ∈ cs, isBlank c = true
  · obtain ⟨c, hc, hblank⟩ := hblank
    obtain ⟨as, ds, hcs⟩ := List.append_of_mem hc
    -- the texts on both sides of the blank are shorter
    rw [hcs, splitWords_append_cons hblank, List.mem_append] at hw
    exact hw.elim isPlainWord_of_mem_splitWords isPlainWord_of_mem_splitWords
  · have hword : cs ≠ [] → IsPlainWord cs := fun hne =>
      ⟨hne, fun c hc => Bool.eq_false_iff.mpr fun h => hblank ⟨c, hc, h⟩⟩
    by_cases hnil : cs = []
    · rw [hnil] at hw
      cases hw
    · rw [splitWords_of_isPlainWord (hword hnil), List.mem_singleton] at hw
      exact hw ▸ hword hnil
termination_by cs.length
decreasing_by all_goals rw [hcs, List.length_append, List.length_cons]; omega

/-- Words with spaces between them are cut into the same words. -/
theorem splitWords_intercalate (h : ∀ w ∈ ws, IsPlainWord w) :
    splitWords ([' '].intercalate ws) = ws := by
  induction ws with
  | nil => rfl
  | cons w ws ih =>
      obtain ⟨hw, hws⟩ := List.forall_mem_cons.mp h
      by_cases hnil : ws = []
      · rw [hnil, List.intercalate_singleton, splitWords_of_isPlainWord hw]
      · rw [List.intercalate_cons_of_ne_nil hnil, List.append_assoc, List.singleton_append,
          splitWords_append_cons (by decide), splitWords_of_isPlainWord hw, ih hws]
        rfl

/-! ### Spaces after words -/

theorem trimRight_append_of_ne_nil (h : trimRight ds ≠ []) :
    trimRight (cs ++ ds) = cs ++ trimRight ds := by
  rw [trimRight, List.reverse_append, trimLeft, List.dropWhile_append, if_neg, List.reverse_append,
    List.reverse_reverse]
  · rfl
  · simpa [trimRight, trimLeft] using h

theorem trimRight_of_isPlainWord (h : IsPlainWord w) : trimRight w = w :=
  trimRight_eq_self_iff.mpr fun c hc => h.2 c (List.mem_of_getLast? hc)

theorem intercalate_ne_nil (h : ∀ w ∈ ws, IsPlainWord w) (hne : ws ≠ []) :
    [' '].intercalate ws ≠ [] := by
  intro hnil
  have hwords := splitWords_intercalate h
  rw [hnil] at hwords
  exact hne hwords.symm

/-- Words with a space after each are words with spaces between them, but for the last one. -/
theorem trimRight_flatMap (h : ∀ w ∈ ws, IsPlainWord w) :
    trimRight (ws.flatMap fun w => w ++ [' ']) = [' '].intercalate ws := by
  induction ws with
  | nil => rfl
  | cons w ws ih =>
      obtain ⟨hw, hws⟩ := List.forall_mem_cons.mp h
      rw [List.flatMap_cons]
      by_cases hnil : ws = []
      · have hspace : ∀ c ∈ [' '], isBlank c = true := by decide
        rw [hnil, List.flatMap_nil, List.append_nil, trimRight_append hspace,
          trimRight_of_isPlainWord hw, List.intercalate_singleton]
      · rw [trimRight_append_of_ne_nil (ih hws ▸ intercalate_ne_nil hws hnil), ih hws,
          List.intercalate_cons_of_ne_nil hnil]

/-! ### Documents -/

namespace Document

/-- Marking where sentences start changes nothing else of the words. -/
theorem map_markSentences {β : Type} {f : Word → β}
    (hf : ∀ w : Word, f { w with opensSentence := true } = f w) (ended : Bool) (words : List Word) :
    (markSentences ended words).map f = words.map f := by
  induction words generalizing ended with
  | nil => rfl
  | cons w words ih =>
      rw [markSentences, List.map_cons, List.map_cons, ih]
      cases ended with
      | true => exact congrArg (· :: _) (hf w)
      | false => rfl

theorem toList_text_ofText (s : String) :
    (ofText s).text.toList = [' '].intercalate (splitWords s.toList) := by
  have hwords : ((ofText s).words.flatMap fun w => w.text.toList ++ if w.spaceAfter then [' '] else []) =
      (splitWords s.toList).flatMap fun w => w ++ [' '] := by
    rw [List.flatMap, ofText, ofWords, map_markSentences fun _ => rfl, List.map_map, List.flatMap]
    refine congrArg List.flatten (List.map_congr_left fun w _ => ?_)
    exact congrArg (· ++ [' ']) String.toList_ofList
  rw [text, hwords, String.toList_ofList, trimRight_flatMap fun w hw => isPlainWord_of_mem_splitWords hw]

/-- The text of a document of plain text: its words with single spaces between them. -/
theorem text_ofText (s : String) :
    (ofText s).text = joinWith " " ((splitWords s.toList).map String.ofList) := by
  apply String.toList_injective
  rw [toList_text_ofText, joinWith, String.toList_intercalate, List.map_map]
  exact congrArg _ (List.map_id'' (fun _ => String.toList_ofList) _).symm

/-- Texts of the same words have the same document. -/
theorem ofText_congr {s t : String} (h : splitWords s.toList = splitWords t.toList) :
    ofText s = ofText t := by
  rw [ofText, ofText, h]

/-- **The text of a document of plain text has the same document,** with all annotations of its words and
with the same words that open sentences. This text is made of the words of the plain text, which are the
pieces between its blanks that are not empty, with single spaces between them. -/
theorem ofText_reproduces (s : String) :
    ofText (ofText s).text = ofText s ∧
    (ofText s).text =
      joinWith " " (((s.toList.splitOnP isBlank).filter fun w => !w.isEmpty).map String.ofList) := by
  rw [← splitWords_eq_filter_splitOnP]
  refine ⟨ofText_congr ?_, text_ofText s⟩
  rw [toList_text_ofText, splitWords_intercalate fun w hw => isPlainWord_of_mem_splitWords hw]

example : (ofText "\tWho wrote\u00A0 Hamlet ?\n").text = "Who wrote Hamlet ?" := by
  decide +kernel

end Document

end ErrorAnalysis
