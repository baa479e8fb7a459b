import ErrorAnalysis.Proofs.Documents.Selection
import ErrorAnalysis.Proofs.Number.Quotient

/-!
# Offsets of Answers

How far a prediction is off at one of its boundaries is told in two ways: as a distance with a sign, or by
the words of the context in between. Both speak of the same groundtruth and the same prediction. Of the pairs
that have a word in common it is the one whose boundaries are closest, and of several equally close ones the
first, groundtruths taken before predictions.

Positions are read as signed numbers of 64 bits, so an answer takes part with its own positions if it ends
below `2 ^ 63`. One that ends at `2 ^ 63` or behind has a word in common with no other, and the pair that is
found need not be the closest.

## Main definitions

* `IsFirstLeast`: an item is the first of those with the least measure.
* `Answers.place?`: the positions of an answer.
* `Answers.LieWithin`: answers lie in a context, and end below `2 ^ 63`.
* `Answers.overlappingPairs`, `Answers.deviation`: what is compared, and by which measure.
* `Answers.FillsGap`: a value has the words between two positions.

## Main results

* `isFirstLeast_of_firstBest?`: what a search for the best finds.
* `Answers.LieWithin.of_isWindow`: answers that are parts of a context lie in it.
* `Answers.fillsGap_shownOffset`: the words that are found are those between two positions.
* `Builtin.viewsAgree_of_lieWithin`: **the distance and the words in between are of the closest pair.**
-/

namespace ErrorAnalysis

/-! ### The first of the least -/

section

variable {α β γ δ : Type} [LinearOrder γ] [LinearOrder δ] {measure : α → γ} {measure' : α → δ}
  {xs : List α} {x y : α}

/-- An item of a list has the least measure, and is the first one with it. -/
def IsFirstLeast (measure : α → γ) (xs : List α) (x : α) : Prop :=
  ∃ front back, xs = front ++ x :: back ∧ (∀ y ∈ front, measure x < measure y) ∧
    ∀ y ∈ back, measure x ≤ measure y

theorem IsFirstLeast.mem (h : IsFirstLeast measure xs x) : x ∈ xs := by
  obtain ⟨front, back, rfl, -, -⟩ := h
  exact List.mem_append_right _ List.mem_cons_self

theorem IsFirstLeast.le (h : IsFirstLeast measure xs x) (hy : y ∈ xs) : measure x ≤ measure y := by
  obtain ⟨front, back, rfl, hfront, hback⟩ := h
  rcases List.mem_append.mp hy with hy | hy
  · exact (hfront y hy).le
  · rcases List.mem_cons.mp hy with rfl | hy
    · exact le_rfl
    · exact hback y hy

/-- It is the same item by any measure that compares the items in the same way. -/
theorem IsFirstLeast.congr (h : IsFirstLeast measure xs x)
    (hmeasure : ∀ y ∈ xs, ∀ z ∈ xs, measure' y < measure' z ↔ measure y < measure z) :
    IsFirstLeast measure' xs x := by
  have hx := h.mem
  obtain ⟨front, back, rfl, hfront, hback⟩ := h
  refine ⟨front, back, rfl, fun y hy => ?_, fun y hy => ?_⟩
  · exact (hmeasure x hx y (List.mem_append_left _ hy)).mpr (hfront y hy)
  · have hmem := List.mem_append_right front (List.mem_cons_of_mem x hy)
    exact not_lt.mp fun hlt => ((hmeasure y hmem x hx).mp hlt).not_ge (hback y hy)

/-- An item with a lesser measure is behind one that is not the first of the least. -/
theorem IsFirstLeast.cons_of_lt (h : IsFirstLeast measure (y :: xs) x) {z : α}
    (hz : measure y < measure z) : IsFirstLeast measure (z :: y :: xs) x := by
  have hle := h.le List.mem_cons_self
  obtain ⟨front, back, heq, hfront, hback⟩ := h
  refine ⟨z :: front, back, by rw [heq, List.cons_append], ?_, hback⟩
  exact List.forall_mem_cons.mpr ⟨hle.trans_lt hz, hfront⟩

/-- An item that has no lesser measure than the first one may be left out behind it. -/
theorem IsFirstLeast.insert_of_le (h : IsFirstLeast measure (y :: xs) x) {z : α}
    (hz : measure y ≤ measure z) : IsFirstLeast measure (y :: z :: xs) x := by
  obtain ⟨front, back, heq, hfront, hback⟩ := h
  cases front with
  | nil =>
      obtain ⟨rfl, rfl⟩ := List.cons.inj heq
      exact ⟨[], z :: xs, rfl, nofun, List.forall_mem_cons.mpr ⟨hz, hback⟩⟩
  | cons _ front =>
      obtain ⟨rfl, rfl⟩ := List.cons.inj heq
      obtain ⟨hy, hrest⟩ := List.forall_mem_cons.mp hfront
      refine ⟨y :: z :: front, back, rfl, ?_, hback⟩
      exact List.forall_mem_cons.mpr ⟨hy, List.forall_mem_cons.mpr ⟨hy.trans_le hz, hrest⟩⟩

theorem isFirstLeast_keepBest {beats : α → α → Bool}
    (hbeats : ∀ x y, beats x y = true ↔ measure x < measure y) (x : α) (xs : List α) :
    IsFirstLeast measure (x :: xs) (keepBest beats x xs) := by
  induction xs generalizing x with
  | nil => exact ⟨[], [], rfl, nofun, nofun⟩
  | cons y xs ih =>
      rw [keepBest, List.foldl_cons]
      by_cases hlt : beats y x = true
      · rw [if_pos hlt]
        exact (ih y).cons_of_lt ((hbeats y x).mp hlt)
      · rw [if_neg hlt]
        exact (ih x).insert_of_le (not_lt.mp (mt (hbeats y x).mpr hlt))

/-- What a search for the best finds is the first of the least. -/
theorem isFirstLeast_of_firstBest? {beats : α → α → Bool}
    (hbeats : ∀ x y, beats x y = true ↔ measure x < measure y) (h : firstBest? beats xs = some x) :
    IsFirstLeast measure xs x := by
  cases xs with
  | nil => cases h
  | cons y xs =>
      obtain rfl := Option.some.inj h
      exact isFirstLeast_keepBest hbeats y xs

theorem firstBest?_eq_none {beats : α → α → Bool} : firstBest? beats xs = none ↔ xs = [] := by
  cases xs with
  | nil => exact iff_of_true rfl rfl
  | cons y xs => exact iff_of_false nofun nofun

/-- The first of the least among what items are mapped to comes from the first of the least. -/
theorem IsFirstLeast.exists_of_map {f : β → α} {ys : List β} (h : IsFirstLeast measure (ys.map f) x) :
    ∃ y, IsFirstLeast (measure ∘ f) ys y ∧ f y = x := by
  obtain ⟨_, _, heq, hfront, hback⟩ := h
  obtain ⟨front, rest, rfl, rfl, hrest⟩ := List.map_eq_append_iff.mp heq
  obtain ⟨y, back, rfl, rfl, rfl⟩ := List.map_eq_cons_iff.mp hrest
  refine ⟨y, ⟨front, back, rfl, fun z hz => ?_, fun z hz => ?_⟩, rfl⟩
  · exact hfront (f z) (List.mem_map_of_mem hz)
  · exact hback (f z) (List.mem_map_of_mem hz)

end

namespace Answers

variable {args : Args} {c d : Document} {l : Label} {p q : ℤ} {s : ℤ × ℤ}

/-! ### Positions -/

/-- The positions of an answer: those of its document, or else those that its metadata give. -/
def place? (l : Label) : Option (ℤ × ℤ) :=
  match l.doc.filter fun d => !d.words.isEmpty with
  | some d => some (d.offset, d.offset + d.size)
  | none => do pure (← metaPosition? l "span_start", ← metaPosition? l "span_end")

/-- The document of an answer ends below `2 ^ 63`, if there is one that has words. -/
def IsMeasurable (l : Label) : Prop :=
  ∀ e, l.doc = some e → e.words ≠ [] → (e.offset : ℤ) + e.size < 2 ^ 63

/-- An answer that ends below `2 ^ 63` takes part with its own positions. -/
theorem IsMeasurable.span?_eq (h : IsMeasurable l) : span? l = place? l := by
  rw [span?, place?]
  cases hdoc : l.doc.filter fun d => !d.words.isEmpty with
  | some e =>
      obtain ⟨hdoc, hsome⟩ := Option.filter_eq_some_iff.mp hdoc
      have hstop := h e hdoc (by simpa using hsome)
      have hfits : e.Fits := by
        rw [Document.Fits, UInt64.size]
        omega
      dsimp only
      rw [hfits.span_eq]
      dsimp only
      rw [signedPosition_of_lt (by omega), signedPosition_of_lt (by omega), Nat.cast_add]
  | none => rfl

theorem toInt64_lt (x : Number) : x.toInt64 < 2 ^ 63 := by
  have hclamp (i : ℤ) : Number.clampInt (-Number.signBit) (Number.signBit - 1) i < 2 ^ 63 := by
    rw [Number.clampInt, Number.signBit]
    split_ifs <;> omega
  rw [Number.toInt64, Number.signBit]
  split
  · exact hclamp _
  · split_ifs <;> omega

theorem metaPosition?_lt {name : String} (h : metaPosition? l name = some p) : p < 2 ^ 63 := by
  obtain ⟨x, -, rfl⟩ := Option.map_eq_some_iff.mp h
  exact toInt64_lt x

/-- The positions of an answer that ends below `2 ^ 63`. -/
theorem IsMeasurable.place?_lt (h : IsMeasurable l) (hs : place? l = some s) :
    s.1 < 2 ^ 63 ∧ s.2 < 2 ^ 63 := by
  rw [place?] at hs
  split at hs
  · next e hdoc =>
      obtain ⟨hdoc, hsome⟩ := Option.filter_eq_some_iff.mp hdoc
      have hstop := h e hdoc (by simpa using hsome)
      obtain rfl := Option.some.inj hs
      exact ⟨by dsimp only; omega, hstop⟩
  · simp only [Option.pure_def, Option.bind_eq_bind, Option.bind_eq_some_iff, Option.some.injEq] at hs
    obtain ⟨start, hstart, stop, hstop, rfl⟩ := hs
    exact ⟨metaPosition?_lt hstart, metaPosition?_lt hstop⟩

/-- The difference of two positions that have room in 64 bits has room there, too. -/
theorem delta_eq (hp : 0 ≤ p ∧ p < 2 ^ 63) (hq : 0 ≤ q ∧ q < 2 ^ 63) : delta (p, q) = q - p :=
  wrapped_of_mem (by dsimp only; omega) (by dsimp only; omega)

theorem magnitude_delta (hp : 0 ≤ p ∧ p < 2 ^ 63) (hq : 0 ≤ q ∧ q < 2 ^ 63) :
    magnitude (delta (p, q)) = (q - p).natAbs := by
  rw [delta_eq hp hq]
  exact wrapped_of_mem (by omega) (by omega)

/-- The words of a context between two of its positions are those of a part of it. -/
theorem between_eq (hstart : (c.offset : ℤ) ≤ p) (hle : p ≤ q) (hlt : q < 2 ^ 63) :
    between c p q = c.slice (p.toNat - c.offset) (q.toNat - c.offset) := by
  rw [between, signedPosition_of_lt (by omega), wrapped_of_mem (by omega) (by omega),
    wrapped_of_mem (by omega) (by omega)]
  congr 1 <;> omega

/-! ### Pairs -/

/-- The pairs of a groundtruth and a prediction that have a word in common, by groundtruths first. -/
def overlappingPairs (truths predictions : List (ℤ × ℤ)) : List ((ℤ × ℤ) × (ℤ × ℤ)) :=
  (truths ×ˢ predictions).filter fun pair => overlaps pair.1 pair.2

/-- How far the prediction of a pair is off at its left or right boundary. -/
def deviation (left : Bool) (pair : (ℤ × ℤ) × (ℤ × ℤ)) : ℤ :=
  boundary left pair.2 - boundary left pair.1

theorem boundaryPairs_eq (left : Bool) (truths predictions : List (ℤ × ℤ)) :
    boundaryPairs left truths predictions = (overlappingPairs truths predictions).map fun pair =>
      (boundary left pair.1, boundary left pair.2) := by
  rw [boundaryPairs, overlappingPairs]
  induction truths with
  | nil => rfl
  | cons a truths ih =>
      rw [List.flatMap_cons, ih, List.product_cons, List.filter_append, List.map_append,
        List.filter_map, List.map_map]
      rfl

/-- How far the prediction of a pair is off, whatever the sign, if the boundaries have room in 64 bits. -/
theorem magnitude_delta_boundary {left : Bool} {pair : (ℤ × ℤ) × (ℤ × ℤ)}
    (hmin : 0 ≤ min (boundary left pair.1) (boundary left pair.2))
    (hmax : max (boundary left pair.1) (boundary left pair.2) < 2 ^ 63) :
    magnitude (delta (boundary left pair.1, boundary left pair.2)) = (deviation left pair).natAbs := by
  rw [deviation]
  exact magnitude_delta (by omega) (by omega)

/-- The closest pair of boundaries is the one of the first pair that deviates least, if the boundaries have
room in 64 bits. -/
theorem of_closestPair? {left : Bool} {truths predictions : List (ℤ × ℤ)}
    (hroom : ∀ pair ∈ overlappingPairs truths predictions,
      0 ≤ min (boundary left pair.1) (boundary left pair.2) ∧
        max (boundary left pair.1) (boundary left pair.2) < 2 ^ 63)
    (h : closestPair? (boundaryPairs left truths predictions) = some (p, q)) :
    ∃ pair, IsFirstLeast (fun pair => (deviation left pair).natAbs)
        (overlappingPairs truths predictions) pair ∧
      boundary left pair.1 = p ∧ boundary left pair.2 = q := by
  rw [boundaryPairs_eq] at h
  have hleast : IsFirstLeast (fun pair => magnitude (delta pair)) _ (p, q) :=
    isFirstLeast_of_firstBest? (fun _ _ => decide_eq_true_iff) h
  obtain ⟨pair, hpair, heq⟩ := hleast.exists_of_map
  obtain ⟨hp, hq⟩ := Prod.mk.inj heq
  refine ⟨pair, hpair.congr fun y hy z hz => ?_, hp, hq⟩
  have hdeviation (y) (hy : y ∈ overlappingPairs truths predictions) :=
    magnitude_delta_boundary (hroom y hy).1 (hroom y hy).2
  rw [Function.comp_apply, Function.comp_apply, hdeviation y hy, hdeviation z hz]
  exact Int.ofNat_lt.symm

/-- Answers that have a word in common, start in a context and end in it have both boundaries there. -/
theorem boundary_mem (left : Bool) {x y : ℤ × ℤ} (h : overlaps x y = true)
    (hx : (c.offset : ℤ) ≤ x.1 ∧ x.2 ≤ c.offset + c.size)
    (hy : (c.offset : ℤ) ≤ y.1 ∧ y.2 ≤ c.offset + c.size) :
    (c.offset : ℤ) ≤ min (boundary left x) (boundary left y) ∧
      max (boundary left x) (boundary left y) ≤ c.offset + c.size := by
  have hoverlap := of_decide_eq_true h
  cases left <;> simp only [boundary, Bool.false_eq_true, if_true, if_false] <;> omega

/-- The positions of the answers that a parameter is bound to. -/
def places (args : Args) (parameter : String) : List (ℤ × ℤ) :=
  (args.get parameter).labels.filterMap place?

theorem spans_eq_places {parameter : String}
    (h : ∀ l ∈ (args.get parameter).labels, IsMeasurable l) : spans args parameter = places args parameter :=
  List.filterMap_congr fun l hl => (h l hl).span?_eq

/-- The answers that a parameter is bound to end below `2 ^ 63`, and start and end in a context. -/
structure LieWithin (args : Args) (parameter : String) (c : Document) : Prop where
  isMeasurable : ∀ l ∈ (args.get parameter).labels, IsMeasurable l
  within : ∀ s ∈ places args parameter, (c.offset : ℤ) ≤ s.1 ∧ s.2 ≤ c.offset + c.size

theorem LieWithin.boundary_lt {parameter : String} (h : LieWithin args parameter c)
    (hs : s ∈ places args parameter) (left : Bool) : boundary left s < 2 ^ 63 := by
  obtain ⟨l, hl, hplace⟩ := List.mem_filterMap.mp hs
  obtain ⟨hstart, hstop⟩ := (h.isMeasurable l hl).place?_lt hplace
  cases left
  · exact hstop
  · exact hstart

/-- Answers that have a word in common and lie in a context have both boundaries there, in 64 bits. -/
theorem LieWithin.boundaries {parameter parameter' : String} (h : LieWithin args parameter c)
    (h' : LieWithin args parameter' c) {pair : (ℤ × ℤ) × (ℤ × ℤ)}
    (hpair : pair ∈ overlappingPairs (places args parameter) (places args parameter')) (left : Bool) :
    (c.offset : ℤ) ≤ min (boundary left pair.1) (boundary left pair.2) ∧
      max (boundary left pair.1) (boundary left pair.2) ≤ c.offset + c.size ∧
      max (boundary left pair.1) (boundary left pair.2) < 2 ^ 63 := by
  obtain ⟨hmem, hoverlap⟩ := List.mem_filter.mp hpair
  obtain ⟨hfirst, hsecond⟩ := List.mem_product.mp hmem
  obtain ⟨hstart, hstop⟩ := boundary_mem left hoverlap (h.within _ hfirst) (h'.within _ hsecond)
  exact ⟨hstart, hstop, max_lt (h.boundary_lt hfirst left) (h'.boundary_lt hsecond left)⟩

/-- Answers that are parts of a context lie in it. -/
theorem LieWithin.of_isWindow {parameter : String} (hstop : (c.offset : ℤ) + c.size < 2 ^ 63)
    (h : ∀ l ∈ (args.get parameter).labels, ∃ e, l.doc = some e ∧ e.words ≠ [] ∧ e.IsWindow c) :
    LieWithin args parameter c := by
  refine ⟨fun l hl e hdoc _ => ?_, fun s hs => ?_⟩
  · obtain ⟨e', hdoc', -, hwindow⟩ := h l hl
    obtain rfl := Option.some.inj (hdoc.symm.trans hdoc')
    have hle := hwindow.offset_add_size_le
    omega
  · obtain ⟨l, hl, hplace⟩ := List.mem_filterMap.mp hs
    obtain ⟨e, hdoc, hwords, hwindow⟩ := h l hl
    rw [place?, hdoc, Option.filter_some, List.isEmpty_eq_false_iff.mpr hwords, Bool.not_false,
      if_pos rfl] at hplace
    obtain rfl := Option.some.inj hplace
    have hstart : c.offset ≤ e.offset := hwindow.start_le
    have hle := hwindow.offset_add_size_le
    dsimp only
    omega

/-- A value has the words of a context between two positions, and none if these are the same. -/
def FillsGap (c : Document) (p q : ℤ) (w : Value) : Prop :=
  p = q ∧ w = .null ∨ p ≠ q ∧ ∃ d, w = .doc d ∧ d.IsWindow c ∧ d.size = (q - p).natAbs ∧
    (d.span.1 : ℤ) = min p q ∧ (d.span.2 : ℤ) = max p q

/-- The words between two positions of a context in order. -/
theorem isWindow_between (hstart : (c.offset : ℤ) ≤ p) (hle : p ≤ q) (hstop : q ≤ c.offset + c.size)
    (hlt : q < 2 ^ 63) : (between c p q).IsWindow c ∧ (between c p q).size = (q - p).natAbs ∧
      ((between c p q).span.1 : ℤ) = p ∧ ((between c p q).span.2 : ℤ) = q := by
  have hroom : c.offset + (q.toNat - c.offset) < UInt64.size := by
    rw [UInt64.size]
    omega
  rw [between_eq hstart hle hlt, Document.span_slice (by omega) (by omega) hroom, Document.size_slice]
  refine ⟨Document.isWindow_slice (by omega) (by omega) hroom, ?_⟩
  dsimp only
  omega

/-- Where the boundaries of a pair lie in the context, the words in between are found. -/
theorem fillsGap_shownOffset (hstart : (c.offset : ℤ) ≤ min p q) (hstop : max p q ≤ c.offset + c.size)
    (hlt : max p q < 2 ^ 63) : FillsGap c p q (shownOffset true c (some (p, q))) := by
  have hdelta : delta (p, q) = q - p := delta_eq (by omega) (by omega)
  have hshown : shownOffset true c (some (p, q)) = gap c (p, q) := rfl
  rw [hshown, gap, hdelta]
  rcases lt_trichotomy p q with hpq | rfl | hpq
  · rw [if_neg (by omega), if_pos (by omega)]
    obtain ⟨hwindow, hsize, hfirst, hlast⟩ :=
      isWindow_between (c := c) (p := p) (q := q) (by omega) hpq.le (by omega) (by omega)
    exact .inr ⟨hpq.ne, between c p q, rfl, hwindow, hsize, by omega, by omega⟩
  · rw [if_pos (sub_self p)]
    exact .inl ⟨rfl, rfl⟩
  · rw [if_neg (by omega), if_neg (by omega)]
    obtain ⟨hwindow, hsize, hfirst, hlast⟩ :=
      isWindow_between (c := c) (p := q) (q := p) (by omega) hpq.le (by omega) (by omega)
    exact .inr ⟨hpq.ne', between c q p, rfl, hwindow, by omega, by omega, by omega⟩

/-- Where there is no distance, there are no words in between. -/
theorem shownOffset_eq_null
    (h : shownOffset false c (some (p, q)) = .null ∨ shownOffset false c (some (p, q)) = .num 0) :
    shownOffset true c (some (p, q)) = .null := by
  have hlt : (delta (p, q)).natAbs < UInt64.size := by
    have hle : -(UInt64.size / 2 : ℤ) ≤ delta (p, q) := Int.le_bmod (by decide)
    have hlt : delta (p, q) < (UInt64.size + 1) / 2 := Int.bmod_lt (by decide)
    rw [UInt64.size] at *
    omega
  rcases h with h | h
  · cases h
  · refine if_pos ?_
    by_contra hpq
    exact Number.ofInt_ne_zero hpq hlt (Value.num.inj h)

end Answers

/-- **The distance and the words in between are of the closest pair.** Given answers that lie in a context and
end below `2 ^ 63`, let both be found. If there is no distance or it is zero, there are no words in between.
And either no groundtruth has a word in common with a prediction, or there is a first pair that deviates
least at the boundary in question, among all that have a word in common, groundtruths taken before
predictions: the distance is by how much its prediction is off, and the words in between are those of the
context from the one boundary to the other. -/
theorem Builtin.viewsAgree_of_lieWithin {args args' : Args} {c : Document} {direction : String}
    {v w : Value} (a a' : Ambient)
    (hargs : ∀ parameter ∈ ["pred", "groundtruths", "context", "direction"],
      args'.get parameter = args.get parameter)
    (hget : args.get "get" = .str "delta") (hget' : args'.get "get" = .str "span")
    (hcontext : (args.get "context").doc? = some c) (hdirection : args.get "direction" = .str direction)
    (htruths : Answers.LieWithin args "groundtruths" c) (hpredictions : Answers.LieWithin args "pred" c)
    (hv : (Builtin.answerOffset.run args a).result = .ok v)
    (hw : (Builtin.answerOffset.run args' a').result = .ok w) :
    (v = .null ∨ v = .num 0 → w = .null) ∧
    (v = .null ∧ Answers.overlappingPairs (Answers.places args "groundtruths")
        (Answers.places args "pred") = [] ∨
      ∃ pair, IsFirstLeast (fun pair => (Answers.deviation (direction == "left") pair).natAbs)
          (Answers.overlappingPairs (Answers.places args "groundtruths") (Answers.places args "pred"))
          pair ∧
        v = .ofInt (Answers.deviation (direction == "left") pair) ∧
        Answers.FillsGap c (Answers.boundary (direction == "left") pair.1)
          (Answers.boundary (direction == "left") pair.2) w) := by
  obtain ⟨hpred, htruth, hcontext', hdirection'⟩ := by
    simpa only [List.forall_mem_cons, List.not_mem_nil, false_implies, implies_true, and_true] using hargs
  have hspans (parameter : String) (h : args'.get parameter = args.get parameter) :
      Answers.spans args' parameter = Answers.spans args parameter := by
    rw [Answers.spans, h, Answers.spans]
  obtain ⟨-, _, _, _, hc, hd, hg, rfl⟩ := Answers.offset_eq_ok.mp hv
  obtain ⟨-, _, _, _, hc', hd', hg', rfl⟩ := Answers.offset_eq_ok.mp hw
  obtain rfl := Option.some.inj (hcontext.symm.trans hc)
  obtain rfl := Option.some.inj (hcontext.symm.trans (hcontext' ▸ hc'))
  obtain rfl := Value.str.inj (hdirection.symm.trans hd)
  obtain rfl := Value.str.inj (hdirection.symm.trans (hdirection' ▸ hd'))
  obtain rfl := Value.str.inj (hget.symm.trans hg)
  obtain rfl := Value.str.inj (hget'.symm.trans hg')
  rw [hspans _ hpred, hspans _ htruth, Answers.spans_eq_places htruths.isMeasurable,
    Answers.spans_eq_places hpredictions.isMeasurable]
  cases hpair : Answers.closestPair? (Answers.boundaryPairs (direction == "left")
      (Answers.places args "groundtruths") (Answers.places args "pred")) with
  | none =>
      have hnone := firstBest?_eq_none.mp hpair
      rw [Answers.boundaryPairs_eq, List.map_eq_nil_iff] at hnone
      exact ⟨fun _ => rfl, .inl ⟨rfl, hnone⟩⟩
  | some boundaries =>
      obtain ⟨p, q⟩ := boundaries
      have hbounds {pair} (hpair : pair ∈ _) := htruths.boundaries hpredictions hpair (direction == "left")
      obtain ⟨pair, hfirst, rfl, rfl⟩ := Answers.of_closestPair?
        (fun pair hpair => by have := hbounds hpair; omega) hpair
      obtain ⟨hstart, hstop, hlt⟩ := hbounds hfirst.mem
      have hdelta := Answers.delta_eq (p := Answers.boundary (direction == "left") pair.1)
        (q := Answers.boundary (direction == "left") pair.2) (by omega) (by omega)
      exact ⟨Answers.shownOffset_eq_null, .inr ⟨pair, hfirst, congrArg Value.ofInt hdelta,
        Answers.fillsGap_shownOffset hstart hstop hlt⟩⟩

/-- What is asked of groundtruths and a prediction at their left boundaries. -/
def offsetArgs (get : String) (context : Document) (truths : List Label) (prediction : Label) : Args where
  function := "answer_offset"
  values := [("context", .doc context), ("direction", .str "left"), ("get", .str get),
    ("groundtruths", .list (truths.map .label)), ("pred", .label prediction)]

/-- The prediction starts one word in front of the first groundtruth and one behind the second, and has a
word in common with both. -/
def rainyOffset (get : String) : Args :=
  offsetArgs get rainyDay [answerAt 3 5, answerAt 1 3] (answerAt 2 4)

theorem Builtin.viewsAgree_of_lieWithin_rainyDay :
    (Builtin.answerOffset.run (rainyOffset "delta") {}).result = .ok (.ofInt (-1)) ∧
    (Builtin.answerOffset.run (rainyOffset "span") {}).result = .ok (.doc (rainyDay.slice 2 3)) ∧
    ∃ pair, IsFirstLeast (fun pair => (Answers.deviation true pair).natAbs)
      (Answers.overlappingPairs [(7, 9), (5, 7)] [(6, 8)]) pair ∧
      Value.ofInt (-1) = .ofInt (Answers.deviation true pair) ∧
      Answers.FillsGap rainyDay (Answers.boundary true pair.1) (Answers.boundary true pair.2)
        (.doc (rainyDay.slice 2 3)) := by
  have hdelta : (Builtin.answerOffset.run (rainyOffset "delta") {}).result = .ok (.ofInt (-1)) := rfl
  have hspan : (Builtin.answerOffset.run (rainyOffset "span") {}).result =
    .ok (.doc (rainyDay.slice 2 3)) := rfl
  have htruths : Answers.LieWithin (rainyOffset "delta") "groundtruths" rainyDay :=
    .of_isWindow (by decide) <| List.forall_mem_cons.mpr
      ⟨⟨_, rfl, List.cons_ne_nil _ _, fits_rainyDay.isWindow_slice _ _⟩,
        List.forall_mem_singleton.mpr ⟨_, rfl, List.cons_ne_nil _ _, fits_rainyDay.isWindow_slice _ _⟩⟩
  have hprediction : Answers.LieWithin (rainyOffset "delta") "pred" rainyDay :=
    .of_isWindow (by decide) <|
      List.forall_mem_singleton.mpr ⟨_, rfl, List.cons_ne_nil _ _, fits_rainyDay.isWindow_slice _ _⟩
  have hargs : ∀ parameter ∈ ["pred", "groundtruths", "context", "direction"],
      (rainyOffset "span").get parameter = (rainyOffset "delta").get parameter := by
    simp only [List.forall_mem_cons, List.not_mem_nil, false_implies, implies_true, and_true]
    exact ⟨rfl, rfl, rfl, rfl⟩
  obtain ⟨-, ⟨hnull, -⟩ | ⟨pair, hpair⟩⟩ := Builtin.viewsAgree_of_lieWithin {} {} hargs rfl rfl rfl rfl
    htruths hprediction hdelta hspan
  · cases hnull
  · exact ⟨hdelta, hspan, pair, hpair⟩

/-- A document that ends at `2 ^ 63`. -/
def brinkDay : Document :=
  ⟨rainyDay.words.take 3, 2 ^ 63 - 3, []⟩

/-- Some words of the document as an answer. -/
def brinkAnswer (start stop : ℕ) : Label :=
  ⟨"groundtruth", "", [], some (brinkDay.slice start stop), []⟩

/-- The prediction starts where the first groundtruth does. As that one ends at `2 ^ 63`, it is not seen to
have a word in common with the prediction, and the distance to the second one is found. -/
theorem Builtin.not_viewsAgree_brinkDay :
    (∀ l ∈ [brinkAnswer 1 3, brinkAnswer 0 2, brinkAnswer 1 2], ∀ e, l.doc = some e →
      e.IsWindow brinkDay) ∧
    (∃ pair ∈ Answers.overlappingPairs
      ([brinkAnswer 1 3, brinkAnswer 0 2].filterMap Answers.place?)
      ([brinkAnswer 1 2].filterMap Answers.place?), Answers.deviation true pair = 0) ∧
    (Builtin.answerOffset.run
      (offsetArgs "delta" brinkDay [brinkAnswer 1 3, brinkAnswer 0 2] (brinkAnswer 1 2)) {}).result =
        .ok (.ofInt 1) := by
  have hwindow (start stop : ℕ) (e : Document) (he : (brinkAnswer start stop).doc = some e) :
      e.IsWindow brinkDay := by
    obtain rfl := Option.some.inj he
    have hfits : brinkDay.Fits := by decide
    exact hfits.isWindow_slice start stop
  refine ⟨?_, ⟨((2 ^ 63 - 2, 2 ^ 63), (2 ^ 63 - 2, 2 ^ 63 - 1)), by decide, by decide⟩, rfl⟩
  simp only [List.forall_mem_cons, List.not_mem_nil, false_implies, implies_true, and_true]
  exact ⟨hwindow 1 3, hwindow 0 2, hwindow 1 2⟩

end ErrorAnalysis
