import ErrorAnalysis.Proofs.Data.Maps
import ErrorAnalysis.Proofs.Functions.Failures

/-!
# Parts of Documents

When the operations that cut documents succeed, and what they yield then. They need a document behind each
item of a value and, where they are given patterns, a text behind each item that denotes one. The parts that
match patterns come document by document, by ascending ranges.

## Main definitions

* `Value.HasDocuments`, `Value.HasPatterns`: what stands behind the items of a value.
* `Value.withDocuments`: documents in the form of a value.
* `matchedParts`: the parts of a document that match one of several patterns.

## Main results

* `mem_matchedRanges`, `pairwise_matchedRanges`: the ranges that match, in order.
* `Documents.token_of_pattern`, `Documents.token_of_no_pattern`, `Documents.hasPattern_of_not_isNull`: **when
  parts are found, and which.**
* `Answers.sentence_eq_ok`, `Answers.offset_eq_ok`: **when sentences and distances are found, and which.**
-/

namespace ErrorAnalysis

variable {args : Args} {a : Ambient} {v w docs : Value} {d : Document} {ds : List Document}
  {p : Pattern} {ps : List Pattern} {range? : Option (ℤ × ℤ)}

/-! ### What stands behind the items of a value -/

/-- The documents behind the items of a value, each of which has one. -/
def Value.HasDocuments (v : Value) (ds : List Document) : Prop :=
  List.Forall₂ (fun item d => item.doc? = some d) v.toItems ds

/-- The patterns that the items of a value denote, each of which is a text. -/
def Value.HasPatterns (v : Value) (ps : List Pattern) : Prop :=
  List.Forall₂ (fun item p => ∃ s, item = .str s ∧ Pattern.compile s = .ok p) v.toItems ps

/-- The shifts that the items of a value give, each of which is a number. -/
def Value.HasShifts (v : Value) (shifts : List ℤ) : Prop :=
  List.Forall₂ (fun item s => ∃ x, item.number? = some x ∧ x.toInt64 = s) v.toItems shifts

/-- The range that a value asks for: none, the one of an index, or the one between two numbers. -/
def Value.HasRange (v : Value) (range? : Option (ℤ × ℤ)) : Prop :=
  match v with
  | .null => range? = none
  | .num x => range? = some (x.toInt64, x.toInt64 + 1)
  | .list (first :: second :: _) => ∃ x y, first.number? = some x ∧ second.number? = some y ∧
      range? = some (x.toInt64, y.toInt64)
  | _ => False

/-- What stands behind the arguments of an operation that looks for patterns. -/
structure Args.AsksFor (args : Args) (range? : Option (ℤ × ℤ)) (ds : List Document)
    (ps : List Pattern) : Prop where
  truthy : (args.get "docs").truthy = true
  range : (args.get "idxes").HasRange range?
  documents : (args.get "docs").HasDocuments ds
  patterns : (args.get "pattern").HasPatterns ps

/-- What has to be there is there, and is worked on. -/
theorem elim_eq_ok {α β : Type} {o : Option α} {e : EvalError} {f : α → Except EvalError β} {b : β} :
    o.elim (.error e) f = .ok b ↔ ∃ a, o = some a ∧ f a = .ok b := by
  cases o <;> simp

theorem forall₂_map_self_iff {α β : Type} {R : α → β → Prop} {f : α → β} {xs : List α} :
    List.Forall₂ R xs (xs.map f) ↔ ∀ x ∈ xs, R x (f x) := by
  rw [List.forall₂_map_right_iff, List.forall₂_same]

theorem Args.document_eq_ok : args.document v = .ok d ↔ v.doc? = some d := by
  simp [document, elim_eq_ok]

theorem Args.text_eq_ok {parameter text : String} :
    args.text parameter = .ok text ↔ args.get parameter = .str text := by
  rw [Args.text, elim_eq_ok, Args.text?]
  cases args.get parameter <;> simp [Value.str?]

theorem mapM_document_eq_ok : v.toItems.mapM args.document = .ok ds ↔ v.HasDocuments ds := by
  simp only [except_mapM_eq_ok, Args.document_eq_ok, Value.HasDocuments]

theorem Args.documents_of_doc? (h : v.doc? = some d) : args.documents v = .ok [d] := by
  have hsingle : ([v] : List Value).mapM args.document = .ok [d] :=
    except_mapM_eq_ok.mpr (.cons (Args.document_eq_ok.mpr h) .nil)
  cases v with
  | list items => cases h
  | _ => exact hsingle

theorem Value.truthy_of_doc? (h : v.doc? = some d) : v.truthy = true := by
  cases v with
  | doc _ | label _ => rfl
  | _ => cases h

theorem Ambient.patternOf_eq_ok :
    (a.patternOf v).result = .ok p ↔ ∃ s, v = .str s ∧ Pattern.compile s = .ok p := by
  cases v with
  | str s =>
      have hpattern : (a.pattern s).result = a.patterns.lookup s := rfl
      rw [patternOf, hpattern, PatternCache.lookup_eq]
      simp
  | _ => simp [patternOf]

theorem Ambient.patternsOf_eq_ok : (a.patternsOf v).result = .ok ps ↔ v.HasPatterns ps := by
  simp only [patternsOf, Eval.result_mapM, except_mapM_eq_ok, patternOf_eq_ok, Value.HasPatterns]

/-! ### Documents as a value -/

/-- Documents in the form of a value: a list if that is one, and else by themselves if there is only
one. -/
def Value.withDocuments (v : Value) (ds : List Document) : Value :=
  if v.isList then .list (ds.map .doc) else unwrapSingle (ds.map .doc)

@[simp] theorem toItems_unwrapSingle (ds : List Document) :
    (unwrapSingle (ds.map .doc)).toItems = ds.map .doc := by
  match ds with
  | [] | [_] | _ :: _ :: _ => rfl

@[simp] theorem toItems_withDocuments (v : Value) (ds : List Document) :
    (v.withDocuments ds).toItems = ds.map .doc := by
  rw [Value.withDocuments]
  split
  · rfl
  · exact toItems_unwrapSingle ds

theorem unwrapSingle_eq_doc : unwrapSingle (ds.map .doc) = .doc d ↔ ds = [d] := by
  match ds with
  | [] | [_] | _ :: _ :: _ => simp [unwrapSingle]

theorem truthy_unwrapSingle : (unwrapSingle (ds.map .doc)).truthy = true ↔ ds ≠ [] := by
  match ds with
  | [] | [_] | _ :: _ :: _ => simp [unwrapSingle, Value.truthy]

theorem truthy_withDocuments (v : Value) : (v.withDocuments ds).truthy = true ↔ ds ≠ [] := by
  rw [Value.withDocuments]
  split
  · simp [Value.truthy]
  · exact truthy_unwrapSingle

theorem hasDocuments_of_toItems {ds' : List Document} (h : v.toItems = ds.map .doc) :
    v.HasDocuments ds' ↔ ds' = ds := by
  rw [Value.HasDocuments, h, List.forall₂_map_left_iff]
  simp only [Value.doc?, Option.some.injEq]
  rw [List.forall₂_eq_eq_eq]
  exact eq_comm

/-- Documents that were found: null if there is none, and by itself if there is only one. -/
def orNull (ds : List Document) : Value :=
  if ds.isEmpty then .null else unwrapSingle (ds.map .doc)

@[simp] theorem toItems_orNull (ds : List Document) : (orNull ds).toItems = ds.map .doc := by
  match ds with
  | [] | [_] | _ :: _ :: _ => rfl

/-- A value that counts as true has items, unless it is a truth value or the like. -/
theorem Value.HasDocuments.ne_nil (h : v.HasDocuments ds) (hv : v.truthy = true) : ds ≠ [] := by
  rintro rfl
  have hnil := List.forall₂_nil_right_iff.mp h
  cases v <;> simp_all [Value.toItems, Value.truthy]

/-! ### Parts that match -/

/-- A range starts in front of another, or starts with it and ends in front of it. -/
def Precedes (r r' : ℕ × ℕ) : Prop :=
  r.1 < r'.1 ∨ r.1 = r'.1 ∧ r.2 < r'.2

theorem compare_range_eq_lt {r r' : ℕ × ℕ} : @compare _ rangeOrd r r' = .lt ↔ Precedes r r' := by
  have hcompare : @compare _ rangeOrd r r' = (compare r.1 r'.1).then (compare r.2 r'.2) := rfl
  rw [hcompare, Ordering.then_eq_lt, Nat.compare_eq_lt, Nat.compare_eq_lt, Nat.compare_eq_eq, Precedes]

theorem mem_matchedRanges {r : ℕ × ℕ} : r ∈ matchedRanges ps d ↔ ∃ p ∈ ps, r ∈ p.findAll d := by
  rw [matchedRanges, @SortedSet.mem_ofList _ rangeOrd, List.mem_flatMap]

/-- The ranges that match ascend, so none is there twice. -/
theorem pairwise_matchedRanges (ps : List Pattern) (d : Document) :
    (matchedRanges ps d).Pairwise Precedes := by
  have hsorted : @SortedSet.Sorted _ rangeOrd (matchedRanges ps d) :=
    @SortedSet.sorted_union _ rangeOrd _ _ _ _ List.Pairwise.nil
  exact hsorted.imp compare_range_eq_lt.mp

/-- The parts of a document that match one of several patterns. -/
def matchedParts (ps : List Pattern) (d : Document) : List Document :=
  (matchedRanges ps d).map fun r => d.slice r.1 r.2

theorem matchedSpans_eq (args : Args) (docs : Value) (ps : List Pattern) : matchedSpans args docs ps =
    if docs.truthy then do
      let ds ← docs.toItems.mapM args.document
      pure (unwrapSingle ((ds.flatMap (matchedParts ps)).map .doc))
    else .error (args.invalid .noDocument) := by
  simp only [List.map_flatMap, matchedParts, List.map_map]
  rfl

theorem matchedSpans_eq_ok : matchedSpans args docs ps = .ok v ↔ docs.truthy = true ∧
    ∃ ds, docs.HasDocuments ds ∧ v = unwrapSingle ((ds.flatMap (matchedParts ps)).map .doc) := by
  rw [matchedSpans_eq]
  split
  · next h =>
      simp only [except_bind_eq_ok, mapM_document_eq_ok, except_pure_eq_ok, h, true_and]
  · next h => simp [h]

theorem matchedSpans_withDocuments (h : ds ≠ []) :
    matchedSpans args (v.withDocuments ds) ps = .ok w ↔
      w = unwrapSingle ((ds.flatMap (matchedParts ps)).map .doc) := by
  rw [matchedSpans_eq_ok]
  constructor
  · rintro ⟨-, ds', hds', rfl⟩
    rw [(hasDocuments_of_toItems (toItems_withDocuments v ds)).mp hds']
  · rintro rfl
    exact ⟨(truthy_withDocuments v).mpr h, ds,
      (hasDocuments_of_toItems (toItems_withDocuments v ds)).mpr rfl, rfl⟩

/-! ### The operations -/

namespace Documents

theorem parts_eq_ok (hdocs : docs.truthy = true) : parts args docs range? = .ok v ↔
    ∃ ds, docs.HasDocuments ds ∧ v = docs.withDocuments (ds.map (part · range?)) := by
  have hsingle (item : Value) (hitem : item.toItems = [item]) (hlist : item.isList = false) :
      (args.document item >>= fun d => pure (.doc (part d range?))) = .ok v ↔
        ∃ ds, item.HasDocuments ds ∧ v = item.withDocuments (ds.map (part · range?)) := by
    simp only [except_bind_eq_ok, Args.document_eq_ok, except_pure_eq_ok, Value.HasDocuments, hitem,
      List.forall₂_cons_left_iff, List.forall₂_nil_left_iff, Value.withDocuments, hlist]
    constructor
    · rintro ⟨d, hd, rfl⟩
      exact ⟨[d], ⟨d, [], hd, rfl, rfl⟩, rfl⟩
    · rintro ⟨_, ⟨d, _, hd, rfl, rfl⟩, rfl⟩
      exact ⟨d, hd, rfl⟩
  cases docs with
  | null => cases hdocs
  | list items =>
      simp only [parts, except_bind_eq_ok, except_pure_eq_ok, Value.withDocuments, Value.isList, if_pos,
        List.map_map]
      exact exists_congr fun ds => and_congr_left fun _ => mapM_document_eq_ok (v := .list items)
  | _ => exact hsingle _ rfl rfl

theorem index_eq_ok {i : ℤ} : index args v = .ok i ↔ ∃ x, v.number? = some x ∧ x.toInt64 = i := by
  simp [index, elim_eq_ok]

theorem indexRange?_eq_ok :
    indexRange? args = .ok range? ↔ (args.get "idxes").HasRange range? := by
  rw [indexRange?]
  cases args.get "idxes" with
  | null => simp only [Value.HasRange, Except.ok.injEq, eq_comm]
  | num x => simp only [Value.HasRange, Except.ok.injEq, eq_comm]
  | list items =>
      rcases items with _ | ⟨first, _ | ⟨second, rest⟩⟩
      · simp [Value.HasRange]
      · simp [Value.HasRange]
      · simp only [except_bind_eq_ok, index_eq_ok, except_pure_eq_ok, Value.HasRange]
        constructor
        · rintro ⟨_, ⟨x, hx, rfl⟩, _, ⟨y, hy, rfl⟩, rfl⟩
          exact ⟨x, y, hx, hy, rfl⟩
        · rintro ⟨x, y, hx, hy, rfl⟩
          exact ⟨_, ⟨x, hx, rfl⟩, _, ⟨y, hy, rfl⟩, rfl⟩
  | _ => simp [Value.HasRange]

/-- **Parts that match are found** if documents, indices and patterns can be read. They come document by
document. -/
theorem token_of_pattern (hpattern : (args.get "pattern").truthy = true) :
    (token args a).result = .ok v ↔ ∃ range? ds ps, args.AsksFor range? ds ps ∧
      v = unwrapSingle (((ds.map (part · range?)).flatMap (matchedParts ps)).map .doc) := by
  simp only [token, Eval.result_ite, Eval.result_bind, Eval.result_liftM, hpattern, if_true]
  split
  · next hdocs =>
      simp only [except_bind_eq_ok, indexRange?_eq_ok, parts_eq_ok hdocs, Ambient.patternsOf_eq_ok]
      constructor
      · rintro ⟨range?, hrange, _, ⟨ds, hds, rfl⟩, ps, hps, h⟩
        have hsome : ds.map (part · range?) ≠ [] := by simpa using hds.ne_nil hdocs
        exact ⟨range?, ds, ps, ⟨hdocs, hrange, hds, hps⟩, (matchedSpans_withDocuments hsome).mp h⟩
      · rintro ⟨range?, ds, ps, ⟨-, hrange, hds, hps⟩, h⟩
        have hsome : ds.map (part · range?) ≠ [] := by simpa using hds.ne_nil hdocs
        exact ⟨range?, hrange, _, ⟨ds, hds, rfl⟩, ps, hps, (matchedSpans_withDocuments hsome).mpr h⟩
  · next hdocs =>
      constructor
      · intro h
        cases h
      · rintro ⟨range?, ds, ps, hasks, -⟩
        exact absurd hasks.truthy hdocs

/-- **Parts are found** if documents and indices can be read. -/
theorem token_of_no_pattern (hpattern : (args.get "pattern").truthy = false) :
    (token args a).result = .ok v ↔ (args.get "docs").truthy = true ∧
      ∃ range? ds, (args.get "idxes").HasRange range? ∧ (args.get "docs").HasDocuments ds ∧
        v = (args.get "docs").withDocuments (ds.map (part · range?)) := by
  simp only [token, Eval.result_ite, Eval.result_bind, Eval.result_liftM, Eval.result_pure, hpattern,
    Bool.false_eq_true, if_false]
  split
  · next hdocs =>
      simp only [except_bind_eq_ok, indexRange?_eq_ok, parts_eq_ok hdocs, Except.ok.injEq, hdocs,
        true_and]
      constructor
      · rintro ⟨range?, hrange, _, ⟨ds, hds, rfl⟩, rfl⟩
        exact ⟨range?, ds, hrange, hds, rfl⟩
      · rintro ⟨range?, ds, hrange, hds, rfl⟩
        exact ⟨range?, hrange, _, ⟨ds, hds, rfl⟩, rfl⟩
  · next hdocs =>
      constructor
      · intro h
        cases h
      · rintro ⟨htruthy, -⟩
        exact absurd htruthy hdocs

/-- Whether there is a match in a range is told if documents and patterns can be read. -/
theorem patternFound_eq_ok (hpattern : (args.get "pattern").isNull = false) :
    (patternFound args a range?).result = .ok v ↔ (args.get "docs").truthy = true ∧
      ∃ ds ps, (args.get "docs").HasDocuments ds ∧ (args.get "pattern").HasPatterns ps ∧
        v = .bool ((ds.map (part · range?)).any fun d => ps.any (·.isMatch d)) := by
  have hdoc (ds : List Document) : (ds.map Value.doc).filterMap Value.doc? = ds := by
    rw [List.filterMap_map]
    exact List.filterMap_some
  simp only [patternFound, Eval.result_bind, Eval.result_liftM, Eval.result_ite, Eval.result_pure,
    hpattern, Bool.false_eq_true, if_false]
  split
  · next hdocs =>
      simp only [except_bind_eq_ok, parts_eq_ok hdocs, Ambient.patternsOf_eq_ok, Except.ok.injEq]
      constructor
      · rintro ⟨ps, hps, _, ⟨ds, hds, rfl⟩, rfl⟩
        rw [toItems_withDocuments, hdoc]
        exact ⟨hdocs, ds, ps, hds, hps, rfl⟩
      · rintro ⟨-, ds, ps, hds, hps, rfl⟩
        refine ⟨ps, hps, _, ⟨ds, hds, rfl⟩, ?_⟩
        rw [toItems_withDocuments, hdoc]
  · next hdocs =>
      constructor
      · intro h
        cases h
      · rintro ⟨htruthy, -⟩
        exact absurd htruthy hdocs

/-- **Whether there is a match is told** if documents, indices and patterns can be read. -/
theorem hasPattern_of_not_isNull (hpattern : (args.get "pattern").isNull = false) :
    (hasPattern args a).result = .ok v ↔ ∃ range? ds ps, args.AsksFor range? ds ps ∧
      v = .bool ((ds.map (part · range?)).any fun d => ps.any (·.isMatch d)) := by
  simp only [hasPattern, Eval.result_bind, Eval.result_liftM, except_bind_eq_ok, indexRange?_eq_ok,
    patternFound_eq_ok hpattern]
  constructor
  · rintro ⟨range?, hrange, hdocs, ds, ps, hds, hps, rfl⟩
    exact ⟨range?, ds, ps, ⟨hdocs, hrange, hds, hps⟩, rfl⟩
  · rintro ⟨range?, ds, ps, ⟨hdocs, hrange, hds, hps⟩, rfl⟩
    exact ⟨range?, hrange, hdocs, ds, ps, hds, hps, rfl⟩

end Documents

namespace Answers

theorem shift_eq_ok {s : ℤ} : shift args v = .ok s ↔ ∃ x, v.number? = some x ∧ x.toInt64 = s := by
  simp [shift, elim_eq_ok]

/-- The sentences with the given numbers, or else the first one. -/
def sentencesAt (d : Document) (ids : List ℕ) : List Document :=
  let found := ids.filterMap fun id => d.sentences[id]?
  (if found.isEmpty then d.sentences.take 1 else found).map fun r => d.slice r.1 r.2

/-- **Sentences are found if there are a document, an answer, and shifts.** -/
theorem sentence_eq_ok : sentence args = .ok v ↔ ∃ d shifts, (args.get "context").doc? = some d ∧
    (args.get "answer").labels ≠ [] ∧ (args.get "shift").HasShifts shifts ∧
    v = orNull (sentencesAt d (shiftedSentences d.sentences.length
      ((args.get "answer").labels.map (sentenceOf d)) shifts)) := by
  have hshown (d : Document) (ids : List ℕ) :
      (if (ids.filterMap fun id => d.sentences[id]?).isEmpty then
        d.sentences.head?.elim .null fun r => .doc (d.slice r.1 r.2)
      else unwrapSingle ((ids.filterMap fun id => d.sentences[id]?).map fun r =>
        .doc (d.slice r.1 r.2))) = orNull (sentencesAt d ids) := by
    rw [sentencesAt, orNull, List.isEmpty_map, List.map_map]
    split
    · cases d.sentences <;> rfl
    · rfl
  simp only [sentence, except_bind_eq_ok, elim_eq_ok, hshown, Except.ok.injEq, exists_eq_right]
  refine exists_congr fun d => ?_
  split
  · next h => simp [List.isEmpty_iff.mp h]
  · next h =>
      simp only [except_bind_eq_ok, except_mapM_eq_ok, shift_eq_ok, except_pure_eq_ok]
      constructor
      · rintro ⟨hd, shifts, hshifts, rfl⟩
        exact ⟨shifts, hd, fun hnil => h (List.isEmpty_iff.mpr hnil), hshifts, rfl⟩
      · rintro ⟨shifts, hd, -, hshifts, rfl⟩
        exact ⟨hd, shifts, hshifts, rfl⟩

/-- A distance between two boundaries, in words or by the words in between. -/
def shownOffset (asSpan : Bool) (context : Document) (pair? : Option (ℤ × ℤ)) : Value :=
  match pair? with
  | none => .null
  | some pair => if asSpan then gap context pair else .ofInt (delta pair)

/-- **Distances are shown if there are answers, a context, and texts for what is asked.** -/
theorem offset_eq_ok : offset args = .ok v ↔
    ((args.get "pred").truthy && (args.get "groundtruths").truthy && (args.get "context").truthy) = true ∧
      ∃ d direction get, (args.get "context").doc? = some d ∧ args.get "direction" = .str direction ∧
        args.get "get" = .str get ∧ v = shownOffset (get == "span") d (closestPair? (boundaryPairs
          (direction == "left") (spans args "groundtruths") (spans args "pred"))) := by
  have hshown (d : Document) (get : String) (pair? : Option (ℤ × ℤ)) :
      (match pair? with
      | none => pure .null
      | some pair => pure (if get == "span" then gap d pair else .ofInt (delta pair)) :
        Except EvalError Value) = .ok (shownOffset (get == "span") d pair?) := by
    cases pair? <;> rfl
  rw [offset]
  split
  · next htruthy =>
      simp only [except_bind_eq_ok, Args.document_eq_ok, Args.text_eq_ok, htruthy, true_and]
      constructor
      · rintro ⟨d, hd, direction, hdirection, get, hget, h⟩
        exact ⟨d, direction, get, hd, hdirection, hget, Except.ok.inj (h.symm.trans (hshown d get _))⟩
      · rintro ⟨d, direction, get, hd, hdirection, hget, rfl⟩
        exact ⟨d, hd, direction, hdirection, get, hget, hshown d get _⟩
  · next hfalsy =>
      constructor
      · intro h
        cases h
      · rintro ⟨htruthy, -⟩
        exact absurd htruthy hfalsy

/-- Where words are asked for, they are those of the context between two positions. -/
theorem of_offset_span (hget : args.get "get" = .str "span") (h : offset args = .ok v) :
    ∃ d, (args.get "context").doc? = some d ∧ (v = .null ∨ ∃ p q, v = .doc (between d p q)) := by
  obtain ⟨-, d, direction, get, hd, -, hspan, rfl⟩ := offset_eq_ok.mp h
  obtain rfl : "span" = get := Value.str.inj (hget.symm.trans hspan)
  refine ⟨d, hd, ?_⟩
  rcases closestPair? _ with _ | pair
  · exact .inl rfl
  · have hshown : shownOffset ("span" == "span") d (some pair) = gap d pair := rfl
    rw [hshown, gap]
    split_ifs
    · exact .inl rfl
    · exact .inr ⟨_, _, rfl⟩
    · exact .inr ⟨_, _, rfl⟩

end Answers

end ErrorAnalysis
