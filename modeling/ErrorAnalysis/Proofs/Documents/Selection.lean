import ErrorAnalysis.Proofs.Documents.Windows

/-!
# Sentences of Answers

An answer lies in the sentence that has its first word. Positions count from the start of the document that
the context was cut from, sentences from the start of the context, so finding the sentence means going from
one to the other and back. What is handed over are sentences that lie a number of places from those of
answers, for any answers and shifts. Each of them comes once, in the order of the document, and with its
positions there.

Positions are read as signed numbers of 64 bits, so an answer is found in its sentence if it starts below
`2 ^ 63`. One that starts behind is taken to lie outside of the context.

## Main definitions

* `Document.IsSentence`, `Document.HasAt`: a document is a sentence of another one, and has a position.
* `Answers.start?`: the position of the first word of an answer.
* `Answers.IsLocatable`: the document of an answer starts below `2 ^ 63`.
* `Answers.IsHome`: the sentence that an answer is taken to lie in.
* `Answers.FindsSentences`: the sentences that lie certain numbers of places from those of answers.

## Main results

* `Document.Fits.hasAt_iff`: the sentence with a position is the one that is looked up.
* `Answers.IsLocatable.isHome_iff`: an answer is taken to lie in one sentence.
* `Answers.sentenceOf_of_le`: an answer that starts at `2 ^ 63` or behind is taken to lie in the first one.
* `Builtin.findsSentences_of_isLocatable`: **the sentences that are found are those of the answers, shifted.**
-/

namespace ErrorAnalysis

namespace Document

variable {d s : Document} {k : ℕ} {p : ℤ}

/-! ### Sentences as documents -/

/-- A document is a sentence of another one, by its number there: a window with the positions of the
sentence. -/
def IsSentence (d : Document) (k : ℕ) (s : Document) : Prop :=
  ∃ r, d.sentences[k]? = some r ∧ s.span = (d.offset + r.1, d.offset + r.2) ∧ s.IsWindow d

/-- A position is one of those of a document. -/
def Covers (d : Document) (p : ℤ) : Prop :=
  d.span.1 ≤ p ∧ p < d.span.2

/-- The sentence with a number has a position. -/
def HasAt (d : Document) (k : ℕ) (p : ℤ) : Prop :=
  ∃ s, d.IsSentence k s ∧ s.Covers p

theorem Fits.isSentence_slice {r : ℕ × ℕ} (hfits : d.Fits) (h : d.sentences[k]? = some r) :
    d.IsSentence k (d.slice r.1 r.2) := by
  have hbounds := d.divides_sentences.bounds (List.mem_of_getElem? h)
  exact ⟨r, h, hfits.span_slice (by omega) hbounds.2.2, hfits.isWindow_slice _ _⟩

/-- The sentence with a position is the one that is looked up. -/
theorem Fits.hasAt_iff (hfits : d.Fits) :
    d.HasAt k p ↔ 0 ≤ p ∧ d.sentenceId? p.toNat = some k := by
  rw [sentenceId?_eq_some_iff]
  constructor
  · rintro ⟨s, ⟨r, hr, hspan, hwindow⟩, hstart, hstop⟩
    rw [hspan] at hstart hstop
    dsimp only at hstart hstop
    exact ⟨by omega, r, hr, by omega, by omega⟩
  · rintro ⟨hp, r, hr, hstart, hstop⟩
    refine ⟨_, hfits.isSentence_slice hr, ?_⟩
    have hbounds := d.divides_sentences.bounds (List.mem_of_getElem? hr)
    rw [Covers, hfits.span_slice (by omega) hbounds.2.2]
    dsimp only
    omega

/-- Some sentence has each position of a document, and only one. -/
theorem Fits.existsUnique_hasAt (hfits : d.Fits) (h : d.Covers p) : ∃! k, d.HasAt k p := by
  rw [Covers, hfits.span_eq] at h
  dsimp only at h
  have hsome : (d.sentenceId? p.toNat).isSome = true := isSome_sentenceId?.mpr (by omega)
  obtain ⟨k, hk⟩ := Option.isSome_iff_exists.mp hsome
  refine ⟨k, hfits.hasAt_iff.mpr ⟨by omega, hk⟩, fun k' hk' => ?_⟩
  exact Option.some.inj ((hfits.hasAt_iff.mp hk').2.symm.trans hk)

theorem Fits.covers_of_hasAt (hfits : d.Fits) (h : d.HasAt k p) : d.Covers p := by
  obtain ⟨hp, hfound⟩ := hfits.hasAt_iff.mp h
  have hplace := isSome_sentenceId?.mp (Option.isSome_of_eq_some hfound)
  rw [Covers, hfits.span_eq]
  dsimp only
  omega

end Document

namespace Answers

variable {args : Args} {d : Document} {l : Label} {k : ℕ} {v : Value}

/-! ### Positions of answers -/

/-- The position of the first word of an answer: where its document starts, or else what its metadata say,
which have to tell where it ends, too. -/
def start? (l : Label) : Option ℤ :=
  match l.doc.filter fun d => !d.words.isEmpty with
  | some d => some d.offset
  | none => do
    let start ← metaPosition? l "span_start"
    let _ ← metaPosition? l "span_end"
    pure start

/-- An integer that has room in 64 bits does not wrap. -/
theorem wrapped_of_mem {i : ℤ} (hle : -2 ^ 63 ≤ i) (hlt : i < 2 ^ 63) : wrapped i = i :=
  Int.bmod_eq_of_le (by rw [UInt64.size]; omega) (by rw [UInt64.size]; omega)

theorem signedPosition_of_lt {n : ℕ} (h : (n : ℤ) < 2 ^ 63) : signedPosition n = n :=
  wrapped_of_mem (by omega) h

theorem signedPosition_of_le {n : ℕ} (h : 2 ^ 63 ≤ (n : ℤ)) (hlt : (n : ℤ) < 2 ^ 64) :
    signedPosition n < 0 := by
  have hwrap : wrapped (n - UInt64.size) = n - UInt64.size :=
    wrapped_of_mem (by rw [UInt64.size]; omega) (by rw [UInt64.size]; omega)
  have hsub : wrapped (n - UInt64.size) = wrapped n := Int.sub_bmod_right _ _
  calc signedPosition n = wrapped (n - UInt64.size) := hsub.symm
    _ = n - UInt64.size := hwrap
    _ < 0 := by rw [UInt64.size]; omega

/-- The document of an answer starts below `2 ^ 63`, if there is one that has words. -/
def IsLocatable (l : Label) : Prop :=
  ∀ e, l.doc = some e → e.words ≠ [] → (e.offset : ℤ) < 2 ^ 63

/-- An answer that starts below `2 ^ 63` is located where it starts. -/
theorem IsLocatable.map_fst_span? (h : IsLocatable l) : (span? l).map Prod.fst = start? l := by
  rw [start?, span?]
  cases hdoc : l.doc.filter fun d => !d.words.isEmpty with
  | some e =>
      obtain ⟨hdoc, hsome⟩ := Option.filter_eq_some_iff.mp hdoc
      have hlt := h e hdoc (by simpa using hsome)
      simp only [Option.map_some, Document.span, signedPosition_of_lt hlt]
  | none =>
      cases metaPosition? l "span_start" <;> cases metaPosition? l "span_end" <;> rfl

/-- The sentence that an answer is taken to lie in: the one with its first word, or the first one if the
answer starts outside of the context. -/
def IsHome (d : Document) (l : Label) (k : ℕ) : Prop :=
  (∃ p, start? l = some p ∧ d.HasAt k p) ∨ k = 0 ∧ ∀ p, start? l = some p → ¬ d.Covers p

/-- The sentence of an answer is looked up at its start. -/
theorem IsLocatable.sentenceOf_eq (h : IsLocatable l) : sentenceOf d l =
    ((start? l).bind fun p => if 0 ≤ p then d.sentenceId? p.toNat else none).getD 0 := by
  rw [← h.map_fst_span?, sentenceOf]
  rcases span? l with _ | ⟨start | start, stop⟩
  · rfl
  · rfl
  · rfl

/-- An answer is taken to lie in one sentence. -/
theorem IsLocatable.isHome_iff (hfits : d.Fits) (h : IsLocatable l) :
    IsHome d l k ↔ k = sentenceOf d l := by
  rw [IsHome, h.sentenceOf_eq]
  cases hstart : start? l with
  | none => simp
  | some p =>
      simp only [Option.some.injEq, exists_eq_left', forall_eq', Option.bind_some]
      by_cases hcovers : d.Covers p
      · obtain ⟨home, hhome, hunique⟩ := hfits.existsUnique_hasAt hcovers
        obtain ⟨hp, hfound⟩ := hfits.hasAt_iff.mp hhome
        rw [if_pos hp, hfound, Option.getD_some, or_iff_left (fun hout => hout.2 hcovers)]
        exact ⟨hunique k, fun hk => hk ▸ hhome⟩
      · have hnone : (if 0 ≤ p then d.sentenceId? p.toNat else none) = none := by
          refine Option.eq_none_iff_forall_ne_some.mpr fun home hfound => hcovers ?_
          obtain ⟨hp, hfound⟩ := Option.ite_none_right_eq_some.mp hfound
          exact hfits.covers_of_hasAt (hfits.hasAt_iff.mpr ⟨hp, hfound⟩)
        rw [hnone, Option.getD_none, or_iff_right (fun hat => hcovers (hfits.covers_of_hasAt hat))]
        exact and_iff_left hcovers

/-! ### Shifted sentences -/

theorem mem_shiftedSentences {count : ℕ} {ids : List ℕ} {shifts : List ℤ} :
    k ∈ shiftedSentences count ids shifts ↔
      k < count ∧ ∃ id ∈ ids, ∃ s ∈ shifts, (k : ℤ) = id + s := by
  rw [shiftedSentences, SortedSet.mem_ofList]
  simp only [List.mem_map, List.mem_filter, List.mem_flatMap, decide_eq_true_eq]
  constructor
  · rintro ⟨_, ⟨⟨id, hid, s, hs, rfl⟩, hplace⟩, rfl⟩
    exact ⟨by omega, id, hid, s, hs, by omega⟩
  · rintro ⟨hk, id, hid, s, hs, heq⟩
    exact ⟨id + s, ⟨⟨id, hid, s, hs, rfl⟩, by omega⟩, by omega⟩

theorem pairwise_shiftedSentences (count : ℕ) (ids : List ℕ) (shifts : List ℤ) :
    (shiftedSentences count ids shifts).Pairwise (· < ·) :=
  (SortedSet.sorted_union List.Pairwise.nil).imp Nat.compare_eq_lt.mp

/-- Sentences by their numbers are as many documents, in the same order. -/
theorem forall₂_isSentence {ids : List ℕ} (hfits : d.Fits) (h : ∀ k ∈ ids, k < d.sentences.length) :
    List.Forall₂ d.IsSentence ids
      ((ids.filterMap fun id => d.sentences[id]?).map fun r => d.slice r.1 r.2) := by
  induction ids with
  | nil => exact .nil
  | cons k ids ih =>
      obtain ⟨hk, hids⟩ := List.forall_mem_cons.mp h
      have hfound := List.getElem?_eq_getElem hk
      rw [List.filterMap_cons, hfound]
      exact .cons (hfits.isSentence_slice hfound) (ih hids)

/-- A value has the sentences that lie certain numbers of places from those of answers: each of them once
and in order, by itself if it is the only one. If there are none it is the first sentence, or null in a
document that has no words. -/
def FindsSentences (d : Document) (answers : List Label) (shifts : List ℤ) (v : Value) : Prop :=
  ∃ (ids : List ℕ) (found : List Document), ids.Pairwise (· < ·) ∧
    (∀ k, k ∈ ids ↔ k < d.sentences.length ∧
      ∃ l ∈ answers, ∃ home, IsHome d l home ∧ ∃ s ∈ shifts, (k : ℤ) = home + s) ∧
    List.Forall₂ d.IsSentence ids found ∧
    (found ≠ [] ∧ v = unwrapSingle (found.map .doc) ∨
      found = [] ∧ ((∃ first, d.IsSentence 0 first ∧ v = .doc first) ∨ d.words = [] ∧ v = .null))

/-- Without a sentence that was found it is the first one, or null if there are no words. -/
theorem orNull_firstSentence (hfits : d.Fits) :
    (∃ first, d.IsSentence 0 first ∧
      orNull ((d.sentences.take 1).map fun r => d.slice r.1 r.2) = .doc first) ∨
    d.words = [] ∧ orNull ((d.sentences.take 1).map fun r => d.slice r.1 r.2) = .null := by
  cases hsentences : d.sentences with
  | nil =>
      refine .inr ⟨?_, rfl⟩
      by_contra hwords
      obtain ⟨r, hr, -⟩ := d.divides_sentences.exists_mem le_rfl (List.length_pos_iff.mpr hwords)
      rw [hsentences] at hr
      cases hr
  | cons r rest => exact .inl ⟨_, hfits.isSentence_slice (by rw [hsentences]; rfl), rfl⟩

theorem findsSentences_orNull {answers : List Label} {shifts : List ℤ} (hfits : d.Fits)
    (h : ∀ l ∈ answers, IsLocatable l) :
    FindsSentences d answers shifts
      (orNull (sentencesAt d
        (shiftedSentences d.sentences.length (answers.map (sentenceOf d)) shifts))) := by
  set ids := shiftedSentences d.sentences.length (answers.map (sentenceOf d)) shifts with hids
  have hfound : List.Forall₂ d.IsSentence ids _ :=
    forall₂_isSentence hfits fun k hk => (mem_shiftedSentences.mp hk).1
  refine ⟨ids, _, pairwise_shiftedSentences _ _ _, fun k => ?_, hfound, ?_⟩
  · simp only [hids, mem_shiftedSentences, List.mem_map, exists_exists_and_eq_and]
    refine and_congr_right fun _ => exists_congr fun l => and_congr_right fun hl => ?_
    simp only [(h l hl).isHome_iff hfits, exists_eq_left]
  · rw [sentencesAt]
    split
    · next hnil =>
        rw [List.isEmpty_iff.mp hnil]
        exact .inr ⟨rfl, orNull_firstSentence hfits⟩
    · next hsome =>
        rw [orNull, List.isEmpty_map, if_neg hsome]
        exact .inl ⟨by simpa using hsome, rfl⟩

/-- An answer that starts at `2 ^ 63` or behind is taken to lie in the first sentence, wherever the context
starts. -/
theorem sentenceOf_of_le {e : Document} (hdoc : l.doc = some e) (hwords : e.words ≠ [])
    (h : 2 ^ 63 ≤ (e.offset : ℤ)) (hlt : (e.offset : ℤ) < 2 ^ 64) : sentenceOf d l = 0 := by
  obtain ⟨n, hn⟩ := Int.eq_negSucc_of_lt_zero (signedPosition_of_le h hlt)
  have hspan : span? l = some (.negSucc n, signedPosition e.span.2) := by
    rw [span?, hdoc, Option.filter_some, List.isEmpty_eq_false_iff.mpr hwords, Bool.not_false,
      if_pos rfl, ← hn]
    rfl
  rw [sentenceOf, hspan]

end Answers

/-- **The sentences that are found are those of the answers, shifted.** Given a context, at least one answer
and shifts that are numbers, a sentence is found if it lies as many places behind the one of an answer as
one of the shifts says, and the first sentence if there is none. The sentence of an answer is the only one
that has its first word, if the context has that, and else the first one. This holds of contexts whose
positions have room in 64 bits, and of answers whose documents start below `2 ^ 63` or whose positions are
read from their metadata. -/
theorem Builtin.findsSentences_of_isLocatable {args : Args} {d : Document} {shifts : List ℤ} (a : Ambient)
    (hcontext : (args.get "context").doc? = some d) (hfits : d.Fits)
    (hanswer : (args.get "answer").labels ≠ []) (hshift : (args.get "shift").HasShifts shifts)
    (hlocatable : ∀ l ∈ (args.get "answer").labels, Answers.IsLocatable l) :
    (∃ v, (Builtin.sentence.run args a).result = .ok v ∧
      Answers.FindsSentences d (args.get "answer").labels shifts v) ∧
    ∀ l ∈ (args.get "answer").labels, ∀ p, Answers.start? l = some p → d.Covers p →
      ∃! k, d.HasAt k p := by
  have hfound := Answers.sentence_eq_ok.mpr ⟨d, shifts, hcontext, hanswer, hshift, rfl⟩
  refine ⟨⟨_, hfound, Answers.findsSentences_orNull hfits hlocatable⟩, ?_⟩
  intro l _ p _ hcovers
  exact hfits.existsUnique_hasAt hcovers

/-- The answer lies in the first of two sentences, and the one behind it is asked for. -/
theorem Builtin.findsSentences_of_isLocatable_rainyDay :
    (Builtin.sentence.run rainyDayArgs {}).result = .ok (.doc (rainyDay.slice 3 5)) ∧
    Answers.FindsSentences rainyDay [answerAt 1 2] [1] (.doc (rainyDay.slice 3 5)) ∧
    ∃! k, rainyDay.HasAt k 5 := by
  have hresult : (Builtin.sentence.run rainyDayArgs {}).result = .ok (.doc (rainyDay.slice 3 5)) := rfl
  have hlocatable : ∀ l ∈ [answerAt 1 2], Answers.IsLocatable l := by
    intro l hl e he _
    obtain rfl := List.mem_singleton.mp hl
    obtain rfl := Option.some.inj he
    decide
  have hplaced := @Builtin.findsSentences_of_isLocatable rainyDayArgs rainyDay [1] {} rfl
    fits_rainyDay (List.cons_ne_nil _ _) (.cons ⟨_, rfl, rfl⟩ .nil) hlocatable
  obtain ⟨⟨v, hv, hfinds⟩, hunique⟩ := hplaced
  obtain rfl := Except.ok.inj (hresult.symm.trans hv)
  exact ⟨hresult, hfinds, hunique _ (List.mem_singleton_self _) 5 rfl ⟨by decide, by decide⟩⟩

/-- A document that starts at `2 ^ 63`, with two sentences. -/
def remoteDay : Document :=
  ⟨rainyDay.words, 2 ^ 63, []⟩

/-- The sentence of the last word of a document is asked for. -/
def remoteArgs : Args where
  function := "sentence"
  values := [("answer", .label ⟨"groundtruth", "home", [], some (remoteDay.slice 4 5), []⟩),
    ("context", .doc remoteDay), ("shift", .num ⟨0⟩)]

/-- The answer is the last word of a context that starts at `2 ^ 63`, so it lies in the second sentence, and
the first one is found. -/
theorem Builtin.not_findsSentences_remoteDay :
    (Builtin.sentence.run remoteArgs {}).result = .ok (.doc (remoteDay.slice 0 3)) ∧
    ¬ Answers.FindsSentences remoteDay (remoteArgs.get "answer").labels [0]
      (.doc (remoteDay.slice 0 3)) := by
  refine ⟨?_, ?_⟩
  · have hzero : (⟨0⟩ : Number).toInt64 = 0 := by decide +kernel
    exact Answers.sentence_eq_ok.mpr ⟨remoteDay, [0], rfl, List.cons_ne_nil _ _,
      .cons ⟨_, rfl, hzero⟩ .nil, rfl⟩
  · rintro ⟨ids, found, -, hids, hfound, hv⟩
    have hfits : remoteDay.Fits := by decide
    have hat : remoteDay.HasAt 1 (2 ^ 63 + 4) :=
      ⟨_, hfits.isSentence_slice (r := (3, 5)) rfl, by decide, by decide⟩
    have hmem : 1 ∈ ids :=
      (hids 1).mpr ⟨by decide, _, List.mem_singleton_self _, 1, .inl ⟨_, rfl, hat⟩, 0, by decide, rfl⟩
    rcases hv with ⟨-, hv⟩ | ⟨rfl, -⟩
    · obtain rfl := unwrapSingle_eq_doc.mp hv.symm
      obtain ⟨k, ids, hsentence, hnil, rfl⟩ := List.forall₂_cons_right_iff.mp hfound
      obtain rfl := List.forall₂_nil_right_iff.mp hnil
      obtain rfl := List.mem_singleton.mp hmem
      obtain ⟨r, hr, hspan, -⟩ := hsentence
      obtain rfl : (3, 5) = r := Option.some.inj hr
      exact absurd hspan (by decide)
    · rw [List.forall₂_nil_right_iff.mp hfound] at hmem
      cases hmem

end ErrorAnalysis
