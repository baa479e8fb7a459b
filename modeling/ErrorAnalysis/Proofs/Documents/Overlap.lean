import ErrorAnalysis.Proofs.Documents.Distances
import ErrorAnalysis.Proofs.Number.Quotient

/-!
# Words in Common

What two documents have in common is told by lemmas, whatever annotation is asked for: a word counts if it has
that annotation, and it counts by its lemma. Where the annotation that words show is their lemma, as it always
is when lemmas are asked for, this is what the annotations have in common. What is found depends on the words
that are there, but not on where and how often.

## Main definitions

* `Word.Shows`: a word has an annotation that is not empty.
* `IsShown`, `IsLemma`: the annotations that words show, and the lemmas of the words that show one.
* `Enumerates`: texts in ascending order are those with a property.
* `Args.HasWordsOf`: documents have the same words, in any order and any number of times.

## Main results

* `Documents.enumerates_annotatedLemmas`, `Documents.enumerates_sharedLemmas`: the lemmas of one document, and
  of two.
* `Documents.sharedLemmas_congr`: they depend on the words that are there.
* `Builtin.overlap_enumerates`: **what two documents have in common is found.**
-/

namespace ErrorAnalysis

variable {args args' : Args} {a : Ambient} {v : Value} {d d' e e' : Document} {w : Word} {ws ws' : List Word}
  {feature s : String} {texts texts' : List String} {P Q : String → Prop}

/-! ### Enumerations -/

/-- Texts in ascending order, none of them twice, are those with a property. -/
structure Enumerates (texts : List String) (P : String → Prop) : Prop where
  ascending : texts.Pairwise (· < ·)
  mem_iff : ∀ s, s ∈ texts ↔ P s

namespace Enumerates

theorem congr (h : Enumerates texts P) (hiff : ∀ s, P s ↔ Q s) : Enumerates texts Q :=
  ⟨h.ascending, fun s => (h.mem_iff s).trans (hiff s)⟩

/-- There is one list of the texts with a property. -/
theorem eq (h : Enumerates texts P) (h' : Enumerates texts' P) : texts = texts' :=
  List.Pairwise.eq_of_mem_iff h.ascending h'.ascending fun s => (h.mem_iff s).trans (h'.mem_iff s).symm

theorem of_sorted (h : SortedSet.Sorted texts) (hmem : ∀ s, s ∈ texts ↔ P s) : Enumerates texts P :=
  ⟨h.imp compareOfLessAndEq_eq_lt.mp, hmem⟩

end Enumerates

/-! ### What words show -/

/-- A word has an annotation, which is not empty. -/
def Word.Shows (w : Word) (feature s : String) : Prop :=
  w.feature? feature = some s ∧ s ≠ ""

/-- One of several words shows an annotation. -/
def IsShown (feature : String) (ws : List Word) (s : String) : Prop :=
  ∃ w ∈ ws, w.Shows feature s

/-- The lemma of one of several words that shows an annotation, or its text in lower case if it has none. -/
def IsLemma (feature : String) (ws : List Word) (s : String) : Prop :=
  ∃ w ∈ ws, (∃ shown, w.Shows feature shown) ∧ w.shownForm = s

/-- What words show is the lemma of each of them. -/
def ShowsLemmas (feature : String) (ws : List Word) : Prop :=
  ∀ w ∈ ws, ∀ s, w.Shows feature s → w.shownForm = s

theorem showsLemmas_lemma (ws : List Word) : ShowsLemmas "lemma" ws :=
  fun _ _ _ h => Option.some.inj h.1

theorem ShowsLemmas.isLemma_iff (h : ShowsLemmas feature ws) :
    IsLemma feature ws s ↔ IsShown feature ws s := by
  constructor
  · rintro ⟨w, hw, ⟨shown, hshown⟩, rfl⟩
    exact ⟨w, hw, h w hw shown hshown ▸ hshown⟩
  · rintro ⟨w, hw, hshown⟩
    exact ⟨w, hw, ⟨s, hshown⟩, h w hw s hshown⟩

namespace Documents

/-! ### Lemmas -/

theorem lemmaIfAnnotated?_eq_some :
    lemmaIfAnnotated? feature w = some s ↔ (∃ shown, w.Shows feature shown) ∧ w.shownForm = s := by
  rw [lemmaIfAnnotated?]
  cases hfeature : w.feature? feature with
  | none => simp [Word.Shows, hfeature]
  | some shown =>
      by_cases hempty : shown = ""
      · simp [Word.Shows, hfeature, hempty]
      · simp [Word.Shows, hfeature, hempty, Word.feature?_lemma]

theorem enumerates_annotatedLemmas (feature : String) (ws : List Word) :
    Enumerates (annotatedLemmas feature ws) (IsLemma feature ws) := by
  refine .of_sorted (SortedSet.sorted_union List.Pairwise.nil) fun s => ?_
  rw [annotatedLemmas, SortedSet.mem_ofList, List.mem_filterMap]
  simp only [lemmaIfAnnotated?_eq_some, IsLemma]

theorem length_annotatedLemmas_le (feature : String) (ws : List Word) :
    (annotatedLemmas feature ws).length ≤ ws.length := by
  calc (annotatedLemmas feature ws).length
      ≤ 0 + (ws.filterMap (lemmaIfAnnotated? feature)).length := SortedSet.length_union_le
    _ = (ws.filterMap (lemmaIfAnnotated? feature)).length := Nat.zero_add _
    _ ≤ ws.length := List.length_filterMap_le ..

theorem annotatedLemmas_congr (h : ∀ w, w ∈ ws' ↔ w ∈ ws) :
    annotatedLemmas feature ws' = annotatedLemmas feature ws :=
  SortedSet.ofList_congr fun s => by simp only [List.mem_filterMap, h]

/-- The lemmas that two documents have in common are lemmas of both. -/
theorem enumerates_sharedLemmas (feature : String) (d e : Document) :
    Enumerates (sharedLemmas feature d e).2 fun s =>
      IsLemma feature (d.words.filter Word.isContent) s ∧ IsLemma feature e.words s := by
  have hasked := enumerates_annotatedLemmas feature (d.words.filter Word.isContent)
  have hfound := enumerates_annotatedLemmas feature e.words
  refine ⟨hasked.ascending.filter _, fun s => ?_⟩
  rw [← hasked.mem_iff, ← hfound.mem_iff, sharedLemmas]
  exact SortedSet.mem_inter

/-- The lemmas depend on the words that are there. -/
theorem sharedLemmas_congr (hd : ∀ w, w ∈ d'.words ↔ w ∈ d.words) (he : ∀ w, w ∈ e'.words ↔ w ∈ e.words) :
    sharedLemmas feature d' e' = sharedLemmas feature d e := by
  have hcontent : ∀ w, w ∈ d'.words.filter Word.isContent ↔ w ∈ d.words.filter Word.isContent :=
    fun w => by rw [List.mem_filter, List.mem_filter, hd]
  rw [sharedLemmas, sharedLemmas, annotatedLemmas_congr hcontent, annotatedLemmas_congr he]

/-- A share is the best one so far if it is the first, as it is positive or zero. -/
theorem keepBest_sharedRatio (feature : String) (e : Document) (hsize : d.size < UInt64.size) :
    keepBest (fun x best => decide (best < x)) 0
        [sharedRatio (sharedLemmas feature d e).1 (sharedLemmas feature d e).2] =
      if (sharedLemmas feature d e).1 = [] then 0 else
        Number.ofNat (sharedLemmas feature d e).2.length / Number.ofNat (sharedLemmas feature d e).1.length := by
  have hasked : (sharedLemmas feature d e).1.length < UInt64.size :=
    (length_annotatedLemmas_le _ _).trans_lt ((List.length_filter_le ..).trans_lt hsize)
  have hshared : (sharedLemmas feature d e).2.length ≤ (sharedLemmas feature d e).1.length :=
    List.length_filter_le ..
  generalize (sharedLemmas feature d e).1 = asked at hasked hshared ⊢
  generalize (sharedLemmas feature d e).2 = shared at hshared ⊢
  simp only [keepBest, List.foldl_cons, List.foldl_nil, sharedRatio, List.isEmpty_iff, decide_eq_true_eq]
  split
  · exact ite_self _
  · next hsome =>
      rcases Nat.eq_zero_or_pos shared.length with hnone | hpos
      · rw [hnone, Number.zero_div_ofNat (List.length_pos_iff.mpr hsome) hasked]
        exact ite_self _
      · exact if_pos (Number.div_ofNat_pos hpos hshared hasked)

/-- What two documents have in common, or its share among the lemmas of the first one if that is a number. -/
theorem overlap_of_doc? (hd : (args.get "doc_a").doc? = some d) (he : (args.get "doc_b").doc? = some e)
    (hfeature : args.get "label" = .str feature) : overlap args =
      .ok (if args.flag "return_token_list" then .ofTexts (sharedLemmas feature d e).2
        else .num (keepBest (fun x best => decide (best < x)) 0
          [sharedRatio (sharedLemmas feature d e).1 (sharedLemmas feature d e).2])) := by
  have hlongest (shared : SortedSet String) :
      keepBest (fun s best : SortedSet String => decide (best.length < s.length)) [] [shared] = shared := by
    cases shared <;> rfl
  simp only [overlap, Value.truthy_of_doc? hd, Value.truthy_of_doc? he, Bool.and_self, if_true]
  refine except_bind_eq_ok.mpr ⟨feature, Args.text_eq_ok.mpr hfeature, ?_⟩
  refine except_bind_eq_ok.mpr ⟨[d], Args.documents_of_doc? hd, ?_⟩
  refine except_bind_eq_ok.mpr ⟨[e], Args.documents_of_doc? he, ?_⟩
  simp only [List.flatMap_cons, List.flatMap_nil, List.map_cons, List.map_nil, List.append_nil, hlongest]
  split <;> rfl

end Documents

theorem Builtin.result_overlap (args : Args) (a : Ambient) :
    (Builtin.overlap.run args a).result = Documents.overlap args :=
  Eval.result_liftM _

/-- The documents of other arguments have the words of some, in any order and any number of times. -/
structure Args.HasWordsOf (args' : Args) (d e : Document) (args : Args) : Prop where
  first : ∃ d', (args'.get "doc_a").doc? = some d' ∧ ∀ w, w ∈ d'.words ↔ w ∈ d.words
  second : ∃ e', (args'.get "doc_b").doc? = some e' ∧ ∀ w, w ∈ e'.words ↔ w ∈ e.words
  feature : args'.get "label" = args.get "label"
  asList : args'.flag "return_token_list" = args.flag "return_token_list"

/-- **What two documents have in common is found.** The lemmas are listed of those words with content of the
first document that show the annotation in question, and the lemmas that some such word of the second document
has too. The latter are found or, unless a list is asked for, their share in the former, which is zero if there
are none. Where the words show their lemmas, in particular if lemmas are asked for, both are lists of the
annotations themselves. Of documents with the same words, in any order and any number of times, the same is
found. -/
theorem Builtin.overlap_enumerates (a : Ambient) (hd : (args.get "doc_a").doc? = some d)
    (he : (args.get "doc_b").doc? = some e) (hfeature : args.get "label" = .str feature) :
    ∃ asked shared : List String,
      Enumerates asked (IsLemma feature (d.words.filter Word.isContent)) ∧
      Enumerates shared (fun s =>
        IsLemma feature (d.words.filter Word.isContent) s ∧ IsLemma feature e.words s) ∧
      (args.flag "return_token_list" = true →
        (Builtin.overlap.run args a).result = .ok (.ofTexts shared)) ∧
      (args.flag "return_token_list" = false → d.size < UInt64.size →
        (Builtin.overlap.run args a).result = .ok (.num
          (if asked = [] then 0 else Number.ofNat shared.length / Number.ofNat asked.length))) ∧
      (ShowsLemmas feature (d.words.filter Word.isContent) → ShowsLemmas feature e.words →
        Enumerates asked (IsShown feature (d.words.filter Word.isContent)) ∧
        Enumerates shared (fun s =>
          IsShown feature (d.words.filter Word.isContent) s ∧ IsShown feature e.words s)) ∧
      (∀ args' a', args'.HasWordsOf d e args →
        (Builtin.overlap.run args' a').result = (Builtin.overlap.run args a).result) := by
  have hasked := Documents.enumerates_annotatedLemmas feature (d.words.filter Word.isContent)
  have hshared := Documents.enumerates_sharedLemmas feature d e
  have hrun := Documents.overlap_of_doc? hd he hfeature
  refine ⟨_, _, hasked, hshared, fun hlist => ?_, fun hshare hsize => ?_, fun hd he => ?_,
    fun args' a' hwords => ?_⟩
  · rw [result_overlap, hrun, hlist, if_pos rfl]
  · rw [result_overlap, hrun, hshare, if_neg Bool.false_ne_true,
      Documents.keepBest_sharedRatio feature e hsize]
    rfl
  · exact ⟨hasked.congr fun _ => hd.isLemma_iff,
      hshared.congr fun _ => and_congr hd.isLemma_iff he.isLemma_iff⟩
  · obtain ⟨d', hd', hdwords⟩ := hwords.first
    obtain ⟨e', he', hewords⟩ := hwords.second
    rw [result_overlap, result_overlap, hrun, Documents.overlap_of_doc? hd' he' (hwords.feature.trans hfeature),
      Documents.sharedLemmas_congr hdwords hewords, hwords.asList]

/-- What two documents are asked for that they have in common. -/
def overlapArgs (feature : String) (asList : Bool) (ws ws' : List Word) : Args where
  function := "overlap"
  values := [("doc_a", .doc ⟨ws, 0, []⟩), ("doc_b", .doc ⟨ws', 0, []⟩), ("label", .str feature),
    ("return_token_list", .bool asList)]

def river : Word :=
  { text := "river", pos := "NOUN" }

def theRiversRun : List Word :=
  [{ text := "The", pos := "DET" }, { text := "Rivers", baseForm := "river", pos := "NOUN" },
    { text := "run", pos := "VERB" }]

/-- Two words of the first document have content, and the second document has the lemma of one of them. -/
theorem Builtin.overlap_enumerates_river :
    Enumerates ["river"] (fun s =>
      IsShown "lemma" (theRiversRun.filter Word.isContent) s ∧ IsShown "lemma" [river] s) ∧
    (Builtin.overlap.run (overlapArgs "lemma" true theRiversRun [river]) {}).result =
      .ok (.ofTexts ["river"]) ∧
    (Builtin.overlap.run (overlapArgs "lemma" false theRiversRun [river]) {}).result =
      .ok (.num (Number.ofNat 1 / Number.ofNat 2)) := by
  have hasked : Documents.annotatedLemmas "lemma" (theRiversRun.filter Word.isContent) =
      ["river", "run"] := by decide +kernel
  have hshared : (Documents.sharedLemmas "lemma" ⟨theRiversRun, 0, []⟩ ⟨[river], 0, []⟩).2 = ["river"] := by
    decide +kernel
  have haskedList := hasked ▸ Documents.enumerates_annotatedLemmas "lemma" _
  have hsharedList := hshared ▸ Documents.enumerates_sharedLemmas "lemma" _ _
  obtain ⟨_, shared, -, hsame, hlist, -, hlemmas, -⟩ :=
    @Builtin.overlap_enumerates (overlapArgs "lemma" true theRiversRun [river]) _ _ _ {} rfl rfl rfl
  obtain rfl := hsame.eq hsharedList
  obtain ⟨asked, shared, hsame, hsame', -, hshare, -, -⟩ :=
    @Builtin.overlap_enumerates (overlapArgs "lemma" false theRiversRun [river]) _ _ _ {} rfl rfl rfl
  obtain rfl := hsame.eq haskedList
  obtain rfl := hsame'.eq hsharedList
  exact ⟨(hlemmas (showsLemmas_lemma _) (showsLemmas_lemma _)).2, hlist rfl, hshare rfl (by decide)⟩

/-- Both documents have a noun, and are found to have its lemma in common. -/
theorem Builtin.not_overlap_enumerates_river :
    Enumerates ["NOUN"] (fun s =>
      IsShown "pos" ([river].filter Word.isContent) s ∧ IsShown "pos" [river] s) ∧
    (Builtin.overlap.run (overlapArgs "pos" true [river] [river]) {}).result = .ok (.ofTexts ["river"]) := by
  have hcontent : [river].filter Word.isContent = [river] := by decide +kernel
  have hshared : (Documents.sharedLemmas "pos" ⟨[river], 0, []⟩ ⟨[river], 0, []⟩).2 = ["river"] := by
    decide +kernel
  have hpos : river.feature? "pos" = some "NOUN" := rfl
  refine ⟨⟨List.pairwise_singleton _ _, fun s => ?_⟩, ?_⟩
  · rw [hcontent]
    simp only [IsShown, Word.Shows, List.mem_singleton, exists_eq_left, hpos, Option.some.injEq, and_self]
    constructor
    · rintro rfl
      exact ⟨rfl, by decide⟩
    · rintro ⟨rfl, -⟩
      rfl
  · rw [result_overlap, Documents.overlap_of_doc? rfl rfl rfl, hshared]
    rfl

end ErrorAnalysis
