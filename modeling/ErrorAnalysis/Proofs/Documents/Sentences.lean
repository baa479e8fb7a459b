import Mathlib.Tactic
import ErrorAnalysis.Document.Basic

/-!
# Sentences of Documents

The sentences of a document are ranges of positions. They follow on each other from the first position to
the last, and each but the first starts at a word that opens a sentence. This says all about them: ranges
that follow on each other are known by where they start. So the sentences of a part of a document are
found by cutting its ranges to that part, also where the part starts within a sentence, whose rest is then
the first one.

## Main definitions

* `Document.Divides`: ranges that follow on each other.
* `Document.Opens`: a sentence starts at a position.
* `Document.within`: what a part has of a range.
* `Document.Fits`: the positions of a document have room in 64 bits.

## Main results

* `Document.Divides.eq_of_starts`: **ranges that follow on each other are known by where they start.**
* `Document.Divides.filterMap_within`: what a part has of them follows on each other, too.
* `Document.divides_sentences`, `Document.mem_starts_sentences`: what the sentences of a document are.
* `Document.sentenceId?_eq_some_iff`: which sentence a position is found in.
* `Document.sentences_partition`: **sentences partition a document and survive slicing.**
-/

namespace ErrorAnalysis

namespace Document

variable {start next stop pos a b i k : ℕ} {r : ℕ × ℕ} {ranges ranges' : List (ℕ × ℕ)} {ws : List Word}
  {d : Document}

/-! ### Ranges that follow on each other -/

/-- Ranges that are not empty and follow on each other, from `start` to `stop`. There is none if these are
the same. -/
inductive Divides : ℕ → ℕ → List (ℕ × ℕ) → Prop
  | nil (stop : ℕ) : Divides stop stop []
  | cons {start next stop : ℕ} {ranges : List (ℕ × ℕ)} (h : start < next)
      (hrest : Divides next stop ranges) : Divides start stop ((start, next) :: ranges)

namespace Divides

theorem le (h : Divides start stop ranges) : start ≤ stop := by
  induction h with
  | nil => exact le_rfl
  | cons hlt _ ih => exact hlt.le.trans ih

theorem bounds (h : Divides start stop ranges) (hr : r ∈ ranges) :
    start ≤ r.1 ∧ r.1 < r.2 ∧ r.2 ≤ stop := by
  induction h with
  | nil => cases hr
  | cons hlt hrest ih =>
      rcases List.mem_cons.mp hr with rfl | hr
      · exact ⟨le_rfl, hlt, hrest.le⟩
      · obtain ⟨hle, hbounds⟩ := ih hr
        exact ⟨hlt.le.trans hle, hbounds⟩

/-- Later ranges are behind earlier ones. -/
theorem pairwise (h : Divides start stop ranges) : ranges.Pairwise fun r r' => r.2 ≤ r'.1 := by
  induction h with
  | nil => exact .nil
  | cons _ hrest ih => exact .cons (fun r hr => (hrest.bounds hr).1) ih

/-- Every position is in a range. -/
theorem exists_mem (h : Divides start stop ranges) (hstart : start ≤ i) (hstop : i < stop) :
    ∃ r ∈ ranges, r.1 ≤ i ∧ i < r.2 := by
  induction h with
  | nil => omega
  | @cons start next stop ranges _ _ ih =>
      by_cases hi : i < next
      · exact ⟨_, List.mem_cons_self, hstart, hi⟩
      · obtain ⟨r, hr, hmem⟩ := ih (not_lt.mp hi) hstop
        exact ⟨r, List.mem_cons_of_mem _ hr, hmem⟩

/-- The first range with a position is the only one. -/
theorem findIdx?_eq_some_iff (h : Divides start stop ranges) :
    (ranges.findIdx? fun r => decide (r.1 ≤ i ∧ i < r.2)) = some k ↔
      ∃ r, ranges[k]? = some r ∧ r.1 ≤ i ∧ i < r.2 := by
  rw [List.findIdx?_eq_some_iff_getElem]
  constructor
  · rintro ⟨hk, hholds, -⟩
    exact ⟨ranges[k], List.getElem?_eq_getElem hk, of_decide_eq_true hholds⟩
  · rintro ⟨r, hr, hholds⟩
    obtain ⟨hk, rfl⟩ := List.getElem?_eq_some_iff.mp hr
    refine ⟨hk, decide_eq_true hholds, fun j hj hholds' => ?_⟩
    have hbehind := List.pairwise_iff_getElem.mp h.pairwise j k (hj.trans hk) hk hj
    have := of_decide_eq_true hholds'
    omega

/-- Where ranges start, they start behind the first position. -/
theorem le_of_mem_starts (h : Divides start stop ranges) (hi : i ∈ ranges.map Prod.fst) :
    start ≤ i := by
  obtain ⟨r, hr, rfl⟩ := List.mem_map.mp hi
  exact (h.bounds hr).1

/-- Ranges that start wherever others do, and go on as far, begin no later. -/
theorem start_le_of_starts {start' : ℕ} (h : Divides start stop ranges)
    (h' : Divides start' stop ranges') (hstarts : ∀ i ∈ ranges'.map Prod.fst, i ∈ ranges.map Prod.fst) :
    start ≤ start' := by
  cases h' with
  | nil => exact h.le
  | cons _ _ => exact h.le_of_mem_starts (hstarts start' List.mem_cons_self)

/-- The ranges after the first start where some range does, but behind the first. -/
theorem mem_starts_rest_iff (hlt : start < next) (hrest : Divides next stop ranges) :
    i ∈ ranges.map Prod.fst ↔ start < i ∧ i ∈ ((start, next) :: ranges).map Prod.fst := by
  rw [List.map_cons, List.mem_cons]
  constructor
  · exact fun hi => ⟨hlt.trans_le (hrest.le_of_mem_starts hi), .inr hi⟩
  · exact fun ⟨hne, hi⟩ => hi.resolve_left hne.ne'

/-- **Ranges that follow on each other are known by where they start.** -/
theorem eq_of_starts (h : Divides start stop ranges) (h' : Divides start stop ranges')
    (hstarts : ∀ i, i ∈ ranges.map Prod.fst ↔ i ∈ ranges'.map Prod.fst) : ranges = ranges' := by
  induction h generalizing ranges' with
  | nil stop =>
      cases h' with
      | nil => rfl
      | cons hlt hrest => exact absurd hrest.le (not_le.mpr hlt)
  | cons hlt hrest ih =>
      cases h' with
      | nil => exact absurd hrest.le (not_le.mpr hlt)
      | cons hlt' hrest' =>
          have hrests := fun i => (mem_starts_rest_iff hlt hrest (i := i)).trans
            ((and_congr_right fun _ => hstarts i).trans (mem_starts_rest_iff hlt' hrest').symm)
          obtain rfl := le_antisymm (hrest.start_le_of_starts hrest' fun i => (hrests i).mpr)
            (hrest'.start_le_of_starts hrest fun i => (hrests i).mp)
          rw [ih hrest' hrests]

end Divides

/-! ### Parts of ranges -/

/-- What the part from `a` to `b` has of a range, counted from `a`; nothing if that is empty. -/
def within (a b : ℕ) (r : ℕ × ℕ) : Option (ℕ × ℕ) :=
  if max r.1 a < min r.2 b then some (max r.1 a - a, min r.2 b - a) else none

theorem within_eq_some_iff {r' : ℕ × ℕ} : within a b r = some r' ↔
    max r.1 a < min r.2 b ∧ r' = (max r.1 a - a, min r.2 b - a) := by
  rw [within, Option.ite_none_right_eq_some, Option.some_inj, eq_comm (a := r')]

/-- What a part has of ranges that follow on each other follows on each other. -/
theorem Divides.filterMap_within (h : Divides start stop ranges) (a b : ℕ) :
    Divides (min start b - a) (min stop b - a) (ranges.filterMap (within a b)) := by
  induction h with
  | nil => exact .nil _
  | @cons start next stop ranges hlt hrest ih =>
      rw [List.filterMap_cons, within]
      by_cases hcut : max start a < min next b
      · rw [if_pos hcut]
        have hstart : max start a - a = min start b - a := by omega
        rw [hstart]
        exact .cons (by omega) ih
      · rw [if_neg hcut]
        have hempty : min start b - a = min next b - a := by omega
        rw [hempty]
        exact ih

/-- What a part has of ranges starts at its first position, and wherever a range starts in it. -/
theorem Divides.mem_starts_within (h : Divides 0 stop ranges) :
    i ∈ (ranges.filterMap (within a b)).map Prod.fst ↔
      a + i < min stop b ∧ (i = 0 ∨ a + i ∈ ranges.map Prod.fst) := by
  simp only [List.mem_map, List.mem_filterMap, within_eq_some_iff]
  constructor
  · rintro ⟨_, ⟨r, hr, hcut, rfl⟩, rfl⟩
    have hbounds := h.bounds hr
    refine ⟨by dsimp only; omega, ?_⟩
    by_cases hle : r.1 ≤ a
    · exact .inl (by dsimp only; omega)
    · exact .inr ⟨r, hr, by dsimp only; omega⟩
  · rintro ⟨hi, rfl | ⟨r, hr, hstart⟩⟩
    · obtain ⟨r, hr, hmem⟩ := h.exists_mem (Nat.zero_le a) (by omega)
      exact ⟨_, ⟨r, hr, by omega, rfl⟩, by dsimp only; omega⟩
    · have hbounds := h.bounds hr
      exact ⟨_, ⟨r, hr, by omega, rfl⟩, by dsimp only; omega⟩

/-! ### Sentences -/

/-- There is a word at a position, and it is marked as opening a sentence. -/
def MarkedAt (ws : List Word) (i : ℕ) : Prop :=
  ∃ w, ws[i]? = some w ∧ w.opensSentence = true

/-- A sentence starts at a position: at the first one, and at each word that is marked. -/
def Opens (d : Document) (i : ℕ) : Prop :=
  i < d.size ∧ (i = 0 ∨ MarkedAt d.words i)

theorem not_markedAt_nil : ¬ MarkedAt [] i := by
  rintro ⟨w, hw, -⟩
  cases hw

theorem markedAt_cons_zero {w : Word} : MarkedAt (w :: ws) 0 ↔ w.opensSentence = true := by
  rw [MarkedAt, List.getElem?_cons_zero]
  simp

theorem markedAt_cons_succ {w : Word} : MarkedAt (w :: ws) (i + 1) ↔ MarkedAt ws i := by
  rw [MarkedAt, List.getElem?_cons_succ, MarkedAt]

/-- The ranges of sentences follow on each other up to the last word. -/
theorem divides_sentencesFrom (h : start ≤ pos) :
    Divides start (pos + ws.length) (sentencesFrom start pos ws) := by
  induction ws generalizing start pos with
  | nil =>
      rw [sentencesFrom]
      split
      · next hlt => exact .cons hlt (.nil _)
      · next hge =>
          obtain rfl := le_antisymm h (not_lt.mp hge)
          exact .nil _
  | cons w ws ih =>
      have hrest {start : ℕ} (h : start ≤ pos + 1) :
          Divides start (pos + (w :: ws).length) (sentencesFrom start (pos + 1) ws) := by
        rw [List.length_cons, Nat.add_comm ws.length, ← Nat.add_assoc]
        exact ih h
      rw [sentencesFrom]
      split
      · next hopens =>
          rw [Bool.and_eq_true, decide_eq_true_eq] at hopens
          exact .cons hopens.2 (hrest (Nat.le_add_right pos 1))
      · exact hrest (h.trans (Nat.le_add_right pos 1))

/-- Sentences start where the first one does, and at each later word that opens one. -/
theorem mem_starts_sentencesFrom (h : start ≤ pos) :
    i ∈ (sentencesFrom start pos ws).map Prod.fst ↔ i < pos + ws.length ∧
      (i = start ∨ start < i ∧ ∃ j, i = pos + j ∧ MarkedAt ws j) := by
  induction ws generalizing start pos with
  | nil =>
      rw [sentencesFrom]
      simp only [not_markedAt_nil, and_false, exists_false, or_false]
      split <;> simp <;> omega
  | cons w ws ih =>
      have hlater : (∃ j, i = pos + j ∧ MarkedAt (w :: ws) j) ↔
          i = pos ∧ w.opensSentence = true ∨ ∃ j, i = pos + 1 + j ∧ MarkedAt ws j := by
        rw [← Nat.or_exists_add_one]
        simp only [Nat.add_zero, markedAt_cons_zero, markedAt_cons_succ, Nat.add_right_comm pos,
          Nat.add_assoc]
      rw [sentencesFrom, hlater, List.length_cons]
      split
      · next hopens =>
          rw [Bool.and_eq_true, decide_eq_true_eq] at hopens
          rw [List.map_cons, List.mem_cons, ih (Nat.le_add_right pos 1)]
          constructor
          · rintro (rfl | ⟨hi, rfl | ⟨hlt, hmarked⟩⟩)
            · exact ⟨by omega, .inl rfl⟩
            · exact ⟨by omega, .inr ⟨hopens.2, .inl ⟨rfl, hopens.1⟩⟩⟩
            · exact ⟨by omega, .inr ⟨by omega, .inr hmarked⟩⟩
          · rintro ⟨hi, rfl | ⟨hlt, ⟨rfl, -⟩ | hmarked⟩⟩
            · exact .inl rfl
            · exact .inr ⟨by omega, .inl rfl⟩
            · refine .inr ⟨by omega, .inr ⟨?_, hmarked⟩⟩
              obtain ⟨j, rfl, -⟩ := hmarked
              omega
      · next hstays =>
          rw [ih (h.trans (Nat.le_add_right pos 1)), Nat.add_assoc pos 1 ws.length, Nat.add_comm 1]
          refine and_congr_right fun _ => or_congr_right (and_congr_right fun hlt => ?_)
          refine (or_iff_right fun hopens => hstays ?_).symm
          rw [Bool.and_eq_true, decide_eq_true_eq]
          exact ⟨hopens.2, hopens.1 ▸ hlt⟩

theorem divides_sentences (d : Document) : Divides 0 d.size d.sentences := by
  have h := @divides_sentencesFrom 0 0 d.words le_rfl
  rwa [Nat.zero_add] at h

theorem mem_starts_sentences : i ∈ d.sentences.map Prod.fst ↔ d.Opens i := by
  rw [sentences, mem_starts_sentencesFrom (le_refl 0)]
  simp only [Nat.zero_add, exists_eq_left']
  rw [Opens, size]
  refine and_congr_right fun hi => ⟨?_, ?_⟩
  · exact Or.imp_right And.right
  · rintro (rfl | hopens)
    · exact .inl rfl
    · exact (Nat.eq_zero_or_pos i).imp_right fun hpos => ⟨hpos, hopens⟩

/-! ### Slices -/

/-- A part has the words between two positions that the document has. -/
theorem words_slice (d : Document) (a b : ℕ) : (d.slice a b).words = (d.words.drop a).take (b - a) := by
  have hwords : (d.slice a b).words = (d.words.take (min b d.size)).drop (min a (min b d.size)) := rfl
  have htake : d.words.take (min b d.size) = d.words.take b := List.take_eq_take_min.symm
  have hlength : (d.words.take b).length = min b d.size := List.length_take
  rw [hwords, htake, ← hlength, ← List.drop_eq_drop_min, List.drop_take]

/-- Words that a document does not have may be left out of a part. -/
theorem slice_clamped (d : Document) (a b : ℕ) :
    d.slice (min a (min b d.size)) (min b d.size) = d.slice a b := by
  simp only [slice, min_assoc, min_self]

theorem size_slice (d : Document) (a b : ℕ) : (d.slice a b).size = min d.size b - a := by
  rw [size, words_slice, List.length_take, List.length_drop, size]
  omega

/-- The sentences of a part start at its first word, and where those of the document start in it. -/
theorem opens_slice : (d.slice a b).Opens i ↔ a + i < min d.size b ∧ (i = 0 ∨ d.Opens (a + i)) := by
  have hsize : i < (d.slice a b).size ↔ a + i < min d.size b := by
    rw [size_slice]
    omega
  rw [Opens, hsize]
  refine and_congr_right fun hi => ?_
  have hword : (d.slice a b).words[i]? = d.words[a + i]? := by
    rw [words_slice, List.getElem?_take_of_lt (by omega), List.getElem?_drop]
  rw [Opens, MarkedAt, MarkedAt, hword]
  constructor
  · exact Or.imp_right fun hopens => ⟨by omega, .inr hopens⟩
  · rintro (hzero | ⟨-, hzero | hopens⟩)
    · exact .inl hzero
    · exact .inl (Nat.eq_zero_of_add_eq_zero_left hzero)
    · exact .inr hopens

/-- **The sentences of a part of a document are what it has of the document's.** -/
theorem sentences_slice (d : Document) (a b : ℕ) :
    (d.slice a b).sentences = d.sentences.filterMap (within a b) := by
  have hcut := d.divides_sentences.filterMap_within a b
  rw [Nat.min_eq_left (Nat.zero_le b), Nat.zero_sub, ← size_slice] at hcut
  refine (d.slice a b).divides_sentences.eq_of_starts hcut fun i => ?_
  rw [mem_starts_sentences, opens_slice, d.divides_sentences.mem_starts_within, mem_starts_sentences]

/-! ### Positions -/

/-- The positions of a document have room in 64 bits, up to the one behind its last word. -/
def Fits (d : Document) : Prop :=
  d.offset + d.size < UInt64.size

instance : Decidable d.Fits :=
  inferInstanceAs (Decidable (_ < _))

theorem Fits.room (h : d.Fits) (hi : i ≤ d.size) : d.offset + i < UInt64.size :=
  (Nat.add_le_add_left hi d.offset).trans_lt h

theorem Fits.position_eq (h : d.Fits) (hi : i ≤ d.size) : d.position i = d.offset + i :=
  Nat.mod_eq_of_lt (h.room hi)

theorem Fits.span_eq (h : d.Fits) : d.span = (d.offset, d.offset + d.size) := by
  rw [span, h.position_eq le_rfl]

/-- A part of a document starts where its first word is. -/
theorem Fits.offset_slice (h : d.Fits) (a b : ℕ) :
    (d.slice a b).offset = d.offset + min a (min b d.size) :=
  h.position_eq (by omega)

theorem Fits.slice (h : d.Fits) (a b : ℕ) : (d.slice a b).Fits := by
  rw [Fits, h.offset_slice, size_slice]
  rw [Fits] at h
  omega

/-- A position has the number of the sentence that it is in, wherever the document starts. -/
theorem sentenceId?_eq_some_iff : d.sentenceId? i = some k ↔
    ∃ r, d.sentences[k]? = some r ∧ d.offset + r.1 ≤ i ∧ i < d.offset + r.2 := by
  rw [sentenceId?]
  split
  · next hlt =>
      refine iff_of_false nofun ?_
      rintro ⟨r, -, hstart, -⟩
      omega
  · next hge =>
      rw [d.divides_sentences.findIdx?_eq_some_iff]
      refine exists_congr fun r => and_congr_right fun _ => ?_
      omega

/-- A position has the number of a sentence if and only if it is one of the document's. -/
theorem isSome_sentenceId? :
    (d.sentenceId? i).isSome = true ↔ d.offset ≤ i ∧ i < d.offset + d.size := by
  simp only [Option.isSome_iff_exists, sentenceId?_eq_some_iff]
  constructor
  · rintro ⟨k, r, hr, hstart, hstop⟩
    have hbounds := d.divides_sentences.bounds (List.mem_of_getElem? hr)
    omega
  · rintro ⟨hstart, hstop⟩
    obtain ⟨r, hr, hmem⟩ :=
      d.divides_sentences.exists_mem (i := i - d.offset) (Nat.zero_le _) (by omega)
    obtain ⟨k, hk⟩ := List.mem_iff_getElem?.mp hr
    exact ⟨k, r, hk, by omega, by omega⟩

/-- **Sentences partition a document and survive slicing.** They are ranges that are not empty and follow
on each other from the first word to the last, and start at the first word and at each word that is
marked. A position has the number of the range that it lies in, counted from where the document starts.
If positions have room in 64 bits, the positions of the span, and no others, have such a number. The
sentences of any part are what the part has of the ranges, counted from its start, less those of which it
has nothing. -/
theorem sentences_partition (d : Document) :
    Divides 0 d.size d.sentences ∧
    (∀ i, i ∈ d.sentences.map Prod.fst ↔ d.Opens i) ∧
    (∀ i k, d.sentenceId? i = some k ↔
      ∃ r, d.sentences[k]? = some r ∧ d.offset + r.1 ≤ i ∧ i < d.offset + r.2) ∧
    (d.Fits → ∀ i,
      (∀ k, d.sentenceId? i = some k ↔ (d.span.1 ≤ i ∧ i < d.span.2) ∧
        ∃ r, d.sentences[k]? = some r ∧ r.1 ≤ i - d.offset ∧ i - d.offset < r.2) ∧
      ((d.sentenceId? i).isSome = true ↔ d.span.1 ≤ i ∧ i < d.span.2)) ∧
    ∀ a b, (d.slice a b).sentences = d.sentences.filterMap (within a b) := by
  refine ⟨d.divides_sentences, fun i => mem_starts_sentences, fun i k => sentenceId?_eq_some_iff,
    fun hfits i => ⟨fun k => ?_, ?_⟩, d.sentences_slice⟩
  · have hspan : (d.sentenceId? i).isSome = true ↔ d.span.1 ≤ i ∧ i < d.span.2 := by
      rw [hfits.span_eq, isSome_sentenceId?]
    rw [← hspan]
    constructor
    · intro hfound
      obtain ⟨r, hr, hstart, hstop⟩ := sentenceId?_eq_some_iff.mp hfound
      exact ⟨by rw [hfound]; rfl, r, hr, by omega, by omega⟩
    · rintro ⟨hsome, r, hr, hstart, hstop⟩
      have hplace := isSome_sentenceId?.mp hsome
      exact sentenceId?_eq_some_iff.mpr ⟨r, hr, by omega, by omega⟩
  · rw [hfits.span_eq, isSome_sentenceId?]

/-- A part of a document that starts within the first of two sentences. -/
def restOfTwo : Document :=
  (ofText "a b . c d").slice 1 5

/-- Its sentences are the rest of the first one and the second one, and its positions are found in
them. -/
theorem sentences_partition_restOfTwo :
    restOfTwo.Fits ∧ restOfTwo.sentences = [(0, 2), (2, 4)] ∧
      ∀ i, (restOfTwo.sentenceId? i).isSome = true ↔ 1 ≤ i ∧ i < 5 := by
  have hfits : restOfTwo.Fits := by decide +kernel
  have hspan : restOfTwo.span = (1, 5) := by decide +kernel
  obtain ⟨-, -, -, hplaces, -⟩ := sentences_partition restOfTwo
  refine ⟨hfits, by decide +kernel, fun i => ?_⟩
  rw [(hplaces hfits i).2, hspan]

end Document

end ErrorAnalysis
