import ErrorAnalysis.Proofs.Documents.Parts
import ErrorAnalysis.Proofs.Documents.Sentences

/-!
# Windows of Documents

A part of a document keeps the position of its first word, so its words can be found again in the document
that it was cut from, and answers can be located in it. This holds of all parts that the operations yield,
whatever indices they are given: a part of a part is a part of the whole, and positions behind the end or in
front of the start give parts that are empty. It takes positions that have room in 64 bits, since those of a
document that reaches beyond start again from zero.

## Main definitions

* `Document.IsWindow`: a document is a part of another one, at its positions.

## Main results

* `Document.Fits.isWindow_slice`, `Document.IsWindow.trans`: parts of documents, and parts of parts.
* `Builtin.yieldsWindows`: **all documents that operations cut out are windows of their sources.**
-/

namespace ErrorAnalysis

namespace Document

variable {d e source : Document} {a b : ℕ}

/-- A document is a window of another one: its positions are a range of those of the other one, which has
the same words there, and the metadata are the same. -/
structure IsWindow (d source : Document) : Prop where
  start_le : source.offset ≤ d.span.1
  ordered : d.span.1 ≤ d.span.2
  le_stop : d.span.2 ≤ source.offset + source.size
  words_eq : d.words =
    (source.words.drop (d.span.1 - source.offset)).take (d.span.2 - d.span.1)
  metas_eq : d.metas = source.metas

theorem IsWindow.refl (h : d.Fits) : d.IsWindow d := by
  refine ⟨le_rfl, ?_, ?_, ?_, rfl⟩
  · rw [h.span_eq]
    exact Nat.le_add_right _ _
  · rw [h.span_eq]
  · simp [h.span_eq, size]

/-- A window ends where its source does, or in front of that. -/
theorem IsWindow.offset_add_size_le (h : d.IsWindow source) :
    d.offset + d.size ≤ source.offset + source.size := by
  have hstart : source.offset ≤ d.offset := h.start_le
  have hordered : d.offset ≤ d.span.2 := h.ordered
  have hstop := h.le_stop
  have hsize : d.size = min (d.span.2 - d.offset) (source.size - (d.offset - source.offset)) := by
    rw [size, h.words_eq, List.length_take, List.length_drop]
    rfl
  omega

/-- A window of a window. -/
theorem IsWindow.trans (h : d.IsWindow e) (h' : e.IsWindow source) : d.IsWindow source := by
  have hstart : e.offset ≤ d.span.1 := h.start_le
  have hstart' : source.offset ≤ e.offset := h'.start_le
  have hstop := h.le_stop
  have hstop' := h'.offset_add_size_le
  have hsize : e.size ≤ e.span.2 - e.offset := by
    rw [size, h'.words_eq]
    exact List.length_take_le _ _
  refine ⟨hstart'.trans hstart, h.ordered, hstop.trans hstop', ?_, h.metas_eq.trans h'.metas_eq⟩
  rw [h.words_eq, h'.words_eq, List.drop_take, List.take_take, List.drop_drop]
  have hfirst : e.span.1 = e.offset := rfl
  rw [hfirst]
  congr 1
  · omega
  · congr 1
    omega

/-- The positions of a part that the document has. -/
theorem span_slice (h : a ≤ b) (hb : b ≤ d.size) (hroom : d.offset + b < UInt64.size) :
    (d.slice a b).span = (d.offset + a, d.offset + b) := by
  have hsize : (d.slice a b).size = b - a := by rw [size_slice, min_eq_right hb]
  have hoffset : (d.slice a b).offset = d.offset + a := by
    have hstart : (d.slice a b).offset = d.position (min a (min b d.size)) := rfl
    rw [hstart, min_eq_left hb, min_eq_left h, position, Nat.mod_eq_of_lt (by omega)]
  have hstop : d.offset + a + (b - a) = d.offset + b := by omega
  rw [span, position, hoffset, hsize, hstop, Nat.mod_eq_of_lt hroom]

theorem isWindow_slice (h : a ≤ b) (hb : b ≤ d.size) (hroom : d.offset + b < UInt64.size) :
    (d.slice a b).IsWindow d := by
  have hspan := span_slice h hb hroom
  refine ⟨?_, ?_, ?_, ?_, rfl⟩ <;> rw [hspan] <;> dsimp only
  · omega
  · omega
  · omega
  · rw [words_slice, Nat.add_sub_cancel_left, Nat.add_sub_add_left]

theorem Fits.span_slice (hfits : d.Fits) (h : a ≤ b) (hb : b ≤ d.size) :
    (d.slice a b).span = (d.offset + a, d.offset + b) :=
  Document.span_slice h hb (hfits.room hb)

/-- A part of a document is a window of it, also where it is asked for by words that the document does not
have. -/
theorem Fits.isWindow_slice (h : d.Fits) (a b : ℕ) : (d.slice a b).IsWindow d := by
  rw [← slice_clamped]
  exact Document.isWindow_slice (min_le_right _ _) (min_le_right _ _) (h.room (min_le_right _ _))

theorem Fits.isWindow_of_mem_slices (hfits : d.Fits) {ranges : List (ℕ × ℕ)}
    (h : e ∈ ranges.map fun r => d.slice r.1 r.2) : e.IsWindow d := by
  obtain ⟨r, -, rfl⟩ := List.mem_map.mp h
  exact hfits.isWindow_slice r.1 r.2

end Document

/-- A value is a window of a document, or several of them, or null. -/
def Value.HasWindows (v : Value) (source : Document) : Prop :=
  ∃ ds : List Document, v.toItems = ds.map .doc ∧ ∀ d ∈ ds, d.IsWindow source

variable {args : Args} {a : Ambient} {v : Value}

/-- A part of a document is the document, or some of its words. -/
theorem Documents.part_induction {motive : Document → Prop} (d : Document) (range? : Option (ℤ × ℤ))
    (whole : motive d) (slice : ∀ a b, motive (d.slice a b)) : motive (Documents.part d range?) := by
  rcases range? with _ | ⟨start, stop⟩
  · exact whole
  · exact iteInduction (fun _ => whole) fun _ => slice _ _

theorem Documents.isWindow_part {d : Document} (h : d.Fits) (range? : Option (ℤ × ℤ)) :
    (Documents.part d range?).IsWindow d :=
  part_induction (motive := (Document.IsWindow · d)) d range? (.refl h) h.isWindow_slice

theorem Documents.fits_part {d : Document} (h : d.Fits) (range? : Option (ℤ × ℤ)) :
    (Documents.part d range?).Fits :=
  part_induction d range? h h.slice

/-- Whatever is taken from documents, it comes document by document. -/
theorem Documents.windows_of_token (h : (Documents.token args a).result = .ok v) :
    ∃ sources groups, (args.get "docs").HasDocuments sources ∧
      v.toItems = (List.flatten groups).map .doc ∧
      List.Forall₂ (fun source group => source.Fits → ∀ d ∈ group, d.IsWindow source) sources groups := by
  cases hpattern : (args.get "pattern").truthy with
  | true =>
      obtain ⟨range?, sources, ps, hasks, rfl⟩ := (token_of_pattern hpattern).mp h
      refine ⟨sources, sources.map fun d => matchedParts ps (part d range?), hasks.documents, ?_, ?_⟩
      · rw [toItems_unwrapSingle, List.flatMap_map, List.flatMap_def]
      · rw [forall₂_map_self_iff]
        intro source _ hfits d hd
        exact ((fits_part hfits range?).isWindow_of_mem_slices hd).trans (isWindow_part hfits range?)
  | false =>
      obtain ⟨-, range?, sources, -, hsources, rfl⟩ := (token_of_no_pattern hpattern).mp h
      refine ⟨sources, sources.map fun d => [part d range?], hsources, ?_, ?_⟩
      · rw [toItems_withDocuments, ← List.flatMap_def, ← List.map_eq_flatMap]
      · rw [forall₂_map_self_iff]
        intro source _ hfits d hd
        rw [List.mem_singleton.mp hd]
        exact isWindow_part hfits range?

theorem Answers.windows_of_sentence (h : Answers.sentence args = .ok v) :
    ∃ context, (args.get "context").doc? = some context ∧ (context.Fits → v.HasWindows context) := by
  obtain ⟨context, shifts, hcontext, -, -, rfl⟩ := sentence_eq_ok.mp h
  exact ⟨context, hcontext, fun hfits =>
    ⟨_, toItems_orNull _, fun _ => hfits.isWindow_of_mem_slices⟩⟩

theorem Answers.windows_of_offset (hget : args.get "get" = .str "span")
    (h : Answers.offset args = .ok v) :
    ∃ context, (args.get "context").doc? = some context ∧ (context.Fits → v.HasWindows context) := by
  obtain ⟨context, hcontext, rfl | ⟨p, q, rfl⟩⟩ := of_offset_span hget h
  · exact ⟨context, hcontext, fun _ => ⟨[], rfl, nofun⟩⟩
  · refine ⟨context, hcontext, fun hfits => ⟨[between context p q], rfl, fun d hd => ?_⟩⟩
    rw [List.mem_singleton.mp hd]
    exact hfits.isWindow_slice _ _

/-- **All documents that operations cut out are windows of their sources.** What is taken from documents
comes document by document, and sentences and the words between answers come from the context. Each of the
documents has the words of its source at the positions of its own span, which are positions of the source,
and the metadata of the source. This holds of each source whose positions have room in 64 bits, whatever is
given for the indices, patterns, shifts and answers, as long as there is a result. -/
theorem Builtin.yieldsWindows (args : Args) (a : Ambient) :
    (∀ v, (Builtin.token.run args a).result = .ok v →
      ∃ sources groups, (args.get "docs").HasDocuments sources ∧
        v.toItems = (List.flatten groups).map .doc ∧
        List.Forall₂ (fun source group => source.Fits → ∀ d ∈ group, d.IsWindow source)
          sources groups) ∧
    (∀ v, (Builtin.sentence.run args a).result = .ok v →
      ∃ context, (args.get "context").doc? = some context ∧ (context.Fits → v.HasWindows context)) ∧
    ∀ v, args.get "get" = .str "span" → (Builtin.answerOffset.run args a).result = .ok v →
      ∃ context, (args.get "context").doc? = some context ∧ (context.Fits → v.HasWindows context) :=
  ⟨fun _ => Documents.windows_of_token, fun _ => Answers.windows_of_sentence,
    fun _ => Answers.windows_of_offset⟩

/-- A document of two sentences that is a part of another one. -/
def rainyDay : Document :=
  ⟨[{ text := "It" }, { text := "rains" }, { text := "." }, { text := "Go", opensSentence := true },
    { text := "home" }], 4, [("title", .str "weather")]⟩

/-- Some words of the document as an answer. -/
def answerAt (start stop : ℕ) : Label :=
  ⟨"groundtruth", "", [], some (rainyDay.slice start stop), []⟩

/-- The last word but one is asked for by negative indices, the sentence behind the one of an answer, and
the words by which a prediction is off at its left. -/
def rainyDayArgs : Args where
  function := ""
  values := [("answer", .label (answerAt 1 2)), ("context", .doc rainyDay), ("direction", .str "left"),
    ("docs", .list [.doc rainyDay]), ("get", .str "span"), ("groundtruths", .label (answerAt 3 5)),
    ("idxes", .list [.num ⟨0xC000000000000000⟩, .num ⟨0xBFF0000000000000⟩]),
    ("pred", .label (answerAt 2 4)), ("shift", .num ⟨0x3FF0000000000000⟩)]

theorem fits_rainyDay : rainyDay.Fits := by
  decide

theorem Builtin.yieldsWindows_rainyDay :
    (Value.list [.doc (rainyDay.slice 3 4)]).HasWindows rainyDay ∧
    (Value.doc (rainyDay.slice 3 5)).HasWindows rainyDay ∧
    (Value.doc (rainyDay.slice 2 3)).HasWindows rainyDay := by
  have htoken : (Builtin.token.run rainyDayArgs {}).result = .ok (.list [.doc (rainyDay.slice 3 4)]) := rfl
  have hsentence : (Builtin.sentence.run rainyDayArgs {}).result = .ok (.doc (rainyDay.slice 3 5)) := rfl
  have hoffset : (Builtin.answerOffset.run rainyDayArgs {}).result = .ok (.doc (rainyDay.slice 2 3)) := rfl
  obtain ⟨hpart, hplace, hbetween⟩ := Builtin.yieldsWindows rainyDayArgs {}
  obtain ⟨context, hcontext, hwindow⟩ := hplace _ hsentence
  obtain rfl := Option.some.inj (hcontext.symm.trans (rfl : _ = some rainyDay))
  obtain ⟨context, hcontext, hwindow'⟩ := hbetween _ rfl hoffset
  obtain rfl := Option.some.inj (hcontext.symm.trans (rfl : _ = some rainyDay))
  obtain ⟨sources, groups, hsources, hitems, hwindows⟩ := hpart _ htoken
  obtain ⟨source, _, hsource, hnil, rfl⟩ := List.forall₂_cons_left_iff.mp hsources
  obtain rfl := List.forall₂_nil_left_iff.mp hnil
  obtain rfl := Option.some.inj (hsource.symm.trans (rfl : _ = some rainyDay))
  obtain ⟨group, _, hgroup, hnil, rfl⟩ := List.forall₂_cons_left_iff.mp hwindows
  obtain rfl := List.forall₂_nil_left_iff.mp hnil
  rw [List.flatten_singleton] at hitems
  exact ⟨⟨group, hitems, hgroup fits_rainyDay⟩, hwindow fits_rainyDay, hwindow' fits_rainyDay⟩

end ErrorAnalysis
