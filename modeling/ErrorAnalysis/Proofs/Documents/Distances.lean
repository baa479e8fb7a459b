import ErrorAnalysis.Proofs.Documents.Parts
import ErrorAnalysis.Proofs.Patterns.Composition

/-!
# Distances and Missing Lemmas

A word without a lemma has its text in lower case for one, and patterns and counts of words take it for that.
How far answers are from the words of a question is found by comparing lemmas as they are given, so that words
without one are the same as each other and differ from all the rest. What is found is what it would be with
the lemmas filled in as long as this makes no difference: no word of the question that counts and no word of
the context, one of which has no lemma, may be the same only before or only after.

## Main definitions

* `Word.shownForm`, `Word.fillIn`: the lemma of a word or what stands for it, and the word with that filled in.
* `Document.fillIn`, `Value.fillIn`: all words with their lemmas filled in.
* `Word.IsLike`: filling in does not change whether two words have the same lemma.

## Main results

* `Pattern.findAll_fillIn`: patterns do not see whether lemmas are filled in.
* `Answers.distanceOf?_fillIn`: the keys found, how many of them and how far, are the same.
* `Builtin.depDistance_fillIn`: **filling in lemmas does not change distances among words that are alike.**
-/

namespace ErrorAnalysis

variable {args args' : Args} {a : Ambient} {c d q : Document} {k w : Word} {ps : List Pattern}
  {v : Value}

/-! ### Filling in -/

namespace Word

/-- The lemma of a word, or else its text in lower case. -/
def shownForm (w : Word) : String :=
  if w.baseForm.isEmpty then lowercase w.text else w.baseForm

theorem feature?_lemma (w : Word) : w.feature? "lemma" = some w.shownForm :=
  rfl

/-- A word with its text in lower case for a lemma if it has none. -/
def fillIn (w : Word) : Word :=
  { w with baseForm := w.shownForm }

@[simp] theorem baseForm_fillIn (w : Word) : w.fillIn.baseForm = w.shownForm :=
  rfl

theorem isContent_fillIn (w : Word) : w.fillIn.isContent = w.isContent :=
  rfl

/-- What is filled in is not filled in again with anything else. -/
@[simp] theorem shownForm_fillIn (w : Word) : w.fillIn.shownForm = w.shownForm := by
  rw [shownForm, baseForm_fillIn]
  split
  · next hempty =>
      -- then there was nothing to fill in, and the text is empty as well
      rw [shownForm] at hempty ⊢
      split
      · rfl
      · next hbase => exact absurd (by rwa [if_neg hbase] at hempty) hbase
  · rfl

/-- Filling in does not change whether two words have the same lemma, one of which has none. -/
def IsLike (k w : Word) : Prop :=
  k.baseForm = "" ∨ w.baseForm = "" → (w.baseForm = k.baseForm ↔ w.shownForm = k.shownForm)

instance : Decidable (IsLike k w) :=
  inferInstanceAs (Decidable (_ → _))

theorem shownForm_of_ne (h : w.baseForm ≠ "") : w.shownForm = w.baseForm := by
  rw [shownForm, if_neg (by simpa using h)]

theorem IsLike.beq_eq (h : k.IsLike w) :
    (w.shownForm == k.shownForm) = (w.baseForm == k.baseForm) := by
  rw [Bool.eq_iff_iff, beq_iff_eq, beq_iff_eq]
  by_cases hnone : k.baseForm = "" ∨ w.baseForm = ""
  · exact (h hnone).symm
  · rw [not_or] at hnone
    rw [shownForm_of_ne hnone.1, shownForm_of_ne hnone.2]

end Word

/-- A document with the lemmas of its words filled in. -/
def Document.fillIn (d : Document) : Document :=
  { d with words := d.words.map Word.fillIn }

theorem Document.size_fillIn (d : Document) : d.fillIn.size = d.size :=
  List.length_map ..

theorem Document.position_fillIn (d : Document) : d.fillIn.position = d.position :=
  rfl

/-- A document, also that of a label, with the lemmas of its words filled in. -/
def Value.fillIn : Value → Value
  | .doc d => .doc d.fillIn
  | .label l => .label { l with doc := l.doc.map Document.fillIn }
  | v => v

theorem Value.doc?_fillIn (v : Value) : v.fillIn.doc? = v.doc?.map Document.fillIn := by
  cases v <;> rfl

/-- There is nothing to fill in where there is no document. -/
theorem Value.fillIn_of_doc?_eq_none {v : Value} (h : v.doc? = none) : v.fillIn = v := by
  cases v with
  | doc d => cases h
  | label l =>
      obtain ⟨model, text, perform, doc, metas⟩ := l
      obtain rfl : doc = none := h
      rfl
  | _ => rfl

theorem Args.document_fillIn (h : args'.function = args.function) (v : Value) :
    args'.document v.fillIn = (args.document v).map Document.fillIn := by
  rw [document, document, Value.doc?_fillIn]
  cases hdoc : v.doc? with
  | none =>
      rw [Value.fillIn_of_doc?_eq_none hdoc, invalid, invalid, h]
      rfl
  | some d => rfl

/-! ### Patterns -/

namespace Pattern

theorem accepts_fillIn (atom : Atom) (w : Word) : atom.accepts w.fillIn = atom.accepts w := by
  cases atom with
  | word s =>
      simp only [Atom.accepts, Word.feature?_lemma, Word.shownForm_fillIn]
      rfl
  | _ => rfl

theorem acceptsAll_fillIn (elements : List (List Atom)) (ws : List Word) :
    acceptsAll elements (ws.map Word.fillIn) = acceptsAll elements ws := by
  induction elements generalizing ws with
  | nil => rfl
  | cons atoms elements ih =>
      cases ws with
      | nil => rfl
      | cons w ws => simp only [List.map_cons, acceptsAll, accepts_fillIn, ih]

/-- Patterns do not see whether lemmas are filled in. -/
theorem findAll_fillIn (p : Pattern) (d : Document) : p.findAll d.fillIn = p.findAll d := by
  have hdrop (i : ℕ) : d.fillIn.words.drop i = (d.words.drop i).map Word.fillIn :=
    (List.map_drop ..).symm
  simp only [findAll, Document.size_fillIn, hdrop, acceptsAll_fillIn]

end Pattern

theorem Document.slice_fillIn (d : Document) (i j : ℕ) :
    d.fillIn.slice i j = (d.slice i j).fillIn := by
  rw [slice, slice, size_fillIn, position_fillIn]
  simp only [fillIn, List.map_drop, List.map_take]

namespace Answers

/-- The words of a question that count are the same ones. -/
theorem keyWords_fillIn (ps : List Pattern) (q : Document) :
    keyWords ps q.fillIn = (keyWords ps q).map Word.fillIn := by
  have hcontent : Word.isContent ∘ Word.fillIn = Word.isContent := funext Word.isContent_fillIn
  rw [keyWords, keyWords]
  split
  · rw [Document.fillIn, List.filter_map, hcontent]
  · simp only [Pattern.findAll_fillIn, List.map_flatMap, Document.slice_fillIn]
    rfl

/-- The words of a question that count are words of the question. -/
theorem mem_of_mem_keyWords (h : k ∈ keyWords ps q) : k ∈ q.words := by
  rw [keyWords] at h
  split at h
  · exact List.mem_of_mem_filter h
  · obtain ⟨r, -, hk⟩ := List.mem_flatMap.mp h
    exact List.mem_of_mem_take (List.mem_of_mem_drop hk)

/-! ### Distances -/

/-- A distance is asked for given answers, documents and patterns. -/
theorem distance_eq_ok : (distance args a).result = .ok v ↔ (args.get "target").labels ≠ [] ∧
    ∃ q c ps, (args.get "question").doc? = some q ∧ (args.get "context").doc? = some c ∧
      (args.get "pattern").HasPatterns ps ∧
      v = ((spans args "target").filterMap (distanceOf? c (keyWords ps q))).min?.elim .null .ofInt := by
  simp only [distance, Eval.result_ite, ne_eq, ← List.isEmpty_iff]
  split
  · next hempty =>
      simp only [Eval.result_bind, Eval.result_throw, except_bind_eq_ok, hempty, reduceCtorEq, not_true,
        false_and, exists_false]
  · next hsome =>
      simp only [Eval.result_bind, Eval.result_liftM, Eval.result_pure, except_bind_eq_ok,
        Args.document_eq_ok, Ambient.patternsOf_eq_ok, Except.ok.injEq, hsome, Bool.false_eq_true,
        not_false_iff, true_and]
      constructor
      · rintro ⟨q, hq, c, hc, ps, hps, rfl⟩
        exact ⟨q, c, ps, hq, hc, hps, rfl⟩
      · rintro ⟨q, c, ps, hq, hc, hps, rfl⟩
        exact ⟨q, hq, c, hc, ps, hps, rfl⟩

/-- The words of a context with the lemma of another word are as far from an answer as before. -/
theorem distances_fillIn (h : ∀ w ∈ c.words, k.IsLike w) (answer : ℤ × ℤ) :
    distances c.fillIn k.shownForm answer = distances c k.baseForm answer := by
  have hwords : c.fillIn.words.zipIdx = c.words.zipIdx.map (Prod.map Word.fillIn id) :=
    List.zipIdx_map
  have hsame : c.words.zipIdx.filter ((fun w => w.1.baseForm == k.shownForm) ∘ Prod.map Word.fillIn id) =
      c.words.zipIdx.filter fun w => w.1.baseForm == k.baseForm :=
    List.filter_congr fun w hw => (h w.1 (List.fst_mem_of_mem_zipIdx hw)).beq_eq
  rw [distances, distances, hwords, List.filter_map, List.map_map, hsame, Document.position_fillIn]
  exact List.map_congr_left fun w _ => by rw [Function.comp_apply, Prod.map_snd, id_eq]

/-- The keys that are found, how many of them and how far, are the same. -/
theorem distanceOf?_fillIn {keys : List Word} (h : ∀ k ∈ keys, ∀ w ∈ c.words, k.IsLike w)
    (answer : ℤ × ℤ) :
    distanceOf? c.fillIn (keys.map Word.fillIn) answer = distanceOf? c keys answer := by
  have hkeys : (keys.map Word.fillIn).filterMap (rarityAndDistance? c.fillIn answer) =
      keys.filterMap (rarityAndDistance? c answer) := by
    rw [List.filterMap_map]
    refine List.filterMap_congr fun k hk => ?_
    dsimp only [Function.comp_apply, rarityAndDistance?]
    rw [Word.baseForm_fillIn, distances_fillIn (h k hk)]
  rw [distanceOf?, distanceOf?, hkeys]

/-- How far a single word is from an answer is told by its closest occurrence. -/
theorem distanceOf?_singleton (c : Document) (k : Word) (answer : ℤ × ℤ) :
    distanceOf? c [k] answer = (distances c k.baseForm answer).min? := by
  simp only [distanceOf?, List.filterMap_cons, List.filterMap_nil, rarityAndDistance?]
  cases (distances c k.baseForm answer).min? with
  | none => simp
  | some n => simp [rarestCount]

end Answers

/-- The question and the context of other arguments are those of some, with the lemmas filled in. -/
structure Args.FillsIn (args args' : Args) : Prop where
  function : args'.function = args.function
  target : args'.get "target" = args.get "target"
  pattern : args'.get "pattern" = args.get "pattern"
  question : args'.get "question" = (args.get "question").fillIn
  context : args'.get "context" = (args.get "context").fillIn

/-- The words of the question that count are like those of the context, whatever the patterns. -/
def Args.IsComparable (args : Args) : Prop :=
  ∀ question context ps, (args.get "question").doc? = some question →
    (args.get "context").doc? = some context → (args.get "pattern").HasPatterns ps →
      ∀ k ∈ Answers.keyWords ps question, ∀ w ∈ context.words, k.IsLike w

/-- **Filling in lemmas does not change distances among words that are alike.** The answer is the same, be it
a value or an error, for the same answers and patterns and a question and a context in which all words
without a lemma have their texts in lower case instead. -/
theorem Builtin.depDistance_fillIn (a : Ambient) (hfills : args.FillsIn args')
    (hcomparable : args.IsComparable) : Builtin.depDistance.run args' a = Builtin.depDistance.run args a := by
  have hinvalid (problem : ArgumentProblem) : args'.invalid problem = args.invalid problem := by
    rw [Args.invalid, Args.invalid, hfills.function]
  have hspans : Answers.spans args' "target" = Answers.spans args "target" := by
    rw [Answers.spans, Answers.spans, hfills.target]
  simp only [run, Answers.distance, hfills.target, hfills.pattern, hfills.question, hfills.context, hinvalid,
    hspans, Args.document_fillIn hfills.function, Eval.liftM_map_bind]
  split
  · refine Eval.bind_congr fun _ hfailed => ?_
    cases hfailed
  · refine Eval.bind_congr fun q hq => Eval.bind_congr fun c hc => Eval.bind_congr fun ps hps => ?_
    rw [Eval.result_liftM, Args.document_eq_ok] at hq hc
    rw [Ambient.patternsOf_eq_ok] at hps
    have hdistance (answer : ℤ × ℤ) : Answers.distanceOf? c.fillIn (Answers.keyWords ps q.fillIn) answer =
        Answers.distanceOf? c (Answers.keyWords ps q) answer := by
      rw [Answers.keyWords_fillIn, Answers.distanceOf?_fillIn (hcomparable q c ps hq hc hps)]
    rw [funext hdistance]

/-- It is enough that all words of the question are like those of the context. -/
theorem Args.IsComparable.of_words {question context : Document}
    (hquestion : (args.get "question").doc? = some question)
    (hcontext : (args.get "context").doc? = some context)
    (h : ∀ k ∈ question.words, ∀ w ∈ context.words, k.IsLike w) : args.IsComparable := by
  intro q c ps hq hc _ k hk
  obtain rfl := Option.some.inj (hquestion.symm.trans hq)
  obtain rfl := Option.some.inj (hcontext.symm.trans hc)
  exact h k (Answers.mem_of_mem_keyWords hk)

/-- An answer that is the first word of a context. -/
def firstWord : Label :=
  ⟨"groundtruth", "It", [], some ⟨[{ text := "It" }], 0, []⟩, []⟩

theorem span?_firstWord : Answers.span? firstWord = some (0, 1) := by
  decide +kernel

/-- What is asked of the first word of a context. -/
def distanceArgs (question context : List Word) : Args where
  function := "dep_distance"
  values := [("context", .doc ⟨context, 0, []⟩), ("question", .doc ⟨question, 0, []⟩),
    ("target", .label firstWord)]

theorem fillsIn_distanceArgs (question context : List Word) : (distanceArgs question context).FillsIn
    (distanceArgs (question.map Word.fillIn) (context.map Word.fillIn)) :=
  ⟨rfl, rfl, rfl, rfl, rfl⟩

theorem distance_distanceArgs {context : List Word} (h : k.isContent = true) :
    (Builtin.depDistance.run (distanceArgs [k] context) a).result =
      .ok ((Answers.distances ⟨context, 0, []⟩ k.baseForm (0, 1)).min?.elim .null .ofInt) := by
  have hspans : Answers.spans (distanceArgs [k] context) "target" = [(0, 1)] := by
    change [firstWord].filterMap Answers.span? = _
    simp only [List.filterMap_cons, span?_firstWord, List.filterMap_nil]
  have hkeys : Answers.keyWords [] ⟨[k], 0, []⟩ = [k] := List.filter_cons_of_pos h
  refine Answers.distance_eq_ok.mpr ⟨List.cons_ne_nil _ _, _, _, [], rfl, rfl, .nil, ?_⟩
  rw [hspans, hkeys]
  cases hmin : (Answers.distances ⟨context, 0, []⟩ k.baseForm (0, 1)).min? <;>
    simp [Answers.distanceOf?_singleton, hmin]

/-- A context whose second word has a certain lemma, or none. -/
def itRainsAs (baseForm : String) : List Word :=
  [{ text := "It", baseForm := "it" }, { text := "rains", baseForm }, { text := ".", baseForm := "." }]

/-- The second word of the context has no lemma, and neither has the word of the question. They are the same
word, next to the answer. -/
theorem Builtin.depDistance_fillIn_itRains :
    (distanceArgs [{ text := "Rains" }] (itRainsAs "")).IsComparable ∧
    (Builtin.depDistance.run (distanceArgs [{ text := "Rains" }] (itRainsAs "")) {}).result =
      .ok (.ofNat 1) ∧
    (Builtin.depDistance.run (distanceArgs [{ text := "Rains", baseForm := "rains" }] (itRainsAs "rains"))
      {}).result = .ok (.ofNat 1) := by
  have hcomparable : (distanceArgs [{ text := "Rains" }] (itRainsAs "")).IsComparable :=
    .of_words rfl rfl (by decide +kernel)
  have hquestion : [{ text := "Rains" }].map Word.fillIn = [{ text := "Rains", baseForm := "rains" }] := by
    decide +kernel
  have hcontext : (itRainsAs "").map Word.fillIn = itRainsAs "rains" := by decide +kernel
  have hdistance : (Answers.distances ⟨itRainsAs "", 0, []⟩ "" (0, 1)).min? = some 1 := by decide +kernel
  have hfound : (Builtin.depDistance.run (distanceArgs [{ text := "Rains" }] (itRainsAs "")) {}).result =
      .ok (.ofNat 1) := by
    rw [distance_distanceArgs rfl, hdistance]
    rfl
  refine ⟨hcomparable, hfound, ?_⟩
  rw [← hquestion, ← hcontext, Builtin.depDistance_fillIn {} (fillsIn_distanceArgs _ _) hcomparable]
  exact hfound

/-- The word of the question has no lemma, and there is no such word in the context. There is one, next to the
answer, once the lemma is filled in. -/
theorem Builtin.not_depDistance_fillIn_itRains :
    (distanceArgs [{ text := "Rain" }] (itRainsAs "rain")).FillsIn
      (distanceArgs [{ text := "Rain", baseForm := "rain" }] (itRainsAs "rain")) ∧
    (Builtin.depDistance.run (distanceArgs [{ text := "Rain" }] (itRainsAs "rain")) {}).result =
      .ok .null ∧
    (Builtin.depDistance.run (distanceArgs [{ text := "Rain", baseForm := "rain" }] (itRainsAs "rain"))
      {}).result = .ok (.ofNat 1) := by
  have hquestion : [{ text := "Rain" }].map Word.fillIn = [{ text := "Rain", baseForm := "rain" }] := by
    decide +kernel
  have hcontext : (itRainsAs "rain").map Word.fillIn = itRainsAs "rain" := by decide +kernel
  have hbefore : (Answers.distances ⟨itRainsAs "rain", 0, []⟩ "" (0, 1)).min? = none := by decide +kernel
  have hafter : (Answers.distances ⟨itRainsAs "rain", 0, []⟩ "rain" (0, 1)).min? = some 1 := by
    decide +kernel
  refine ⟨?_, ?_, ?_⟩
  · have h := fillsIn_distanceArgs [{ text := "Rain" }] (itRainsAs "rain")
    rwa [hquestion, hcontext] at h
  · rw [distance_distanceArgs rfl, hbefore]
    rfl
  · rw [distance_distanceArgs rfl, hafter]
    rfl

end ErrorAnalysis
