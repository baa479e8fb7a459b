import ErrorAnalysis.Proofs.Documents.Windows
import ErrorAnalysis.Proofs.Patterns.Composition

/-!
# Finding Patterns and Looking for Them

Whether documents have a pattern can be asked in two ways: for the parts that match it, and for whether
there is one. The two read their arguments in different orders and match in different ways, and they agree:
both fail or none does, and there is a match if and only if there are parts that match. The parts of one
document are its matches in ascending order, each of them once, also where matches of several patterns
overlap or are the same.

## Main definitions

* `Document.HasMatches`: the parts of a document that match one of several patterns, in order.

## Main results

* `hasMatches_matchedParts`: the parts that are found are those that match.
* `Builtin.token_agrees_hasPattern`: **parts that match are found where there is a match.**
-/

namespace ErrorAnalysis

variable {args : Args} {a : Ambient} {v : Value} {d : Document} {ds : List Document}
  {ps : List Pattern}

theorem Pattern.isMatch_iff {p : Pattern} : p.isMatch d = true ↔ ∃ r, r ∈ p.findAll d := by
  rw [isMatch, Bool.not_eq_true', List.isEmpty_eq_false_iff_exists_mem]

/-- Parts of a document are those that match one of several patterns, by ascending ranges. They have its
words, and its positions if these have room in 64 bits. -/
def Document.HasMatches (d : Document) (ps : List Pattern) (found : List Document) : Prop :=
  ∃ ranges : List (ℕ × ℕ), ranges.Pairwise Precedes ∧
    (∀ r, r ∈ ranges ↔ ∃ p ∈ ps, r ∈ p.findAll d) ∧
    List.Forall₂ (fun r e => e.words = (d.words.drop r.1).take (r.2 - r.1) ∧
      (d.Fits → e.IsWindow d ∧ e.span = (d.offset + r.1, d.offset + r.2))) ranges found

/-- The parts that are found are those that match. -/
theorem hasMatches_matchedParts (ps : List Pattern) (d : Document) :
    d.HasMatches ps (matchedParts ps d) := by
  refine ⟨matchedRanges ps d, pairwise_matchedRanges ps d, fun r => mem_matchedRanges, ?_⟩
  rw [matchedParts, forall₂_map_self_iff]
  intro r hr
  obtain ⟨p, -, hmatch⟩ := mem_matchedRanges.mp hr
  obtain ⟨hwidth, hstop, -⟩ := Pattern.mem_findAll.mp hmatch
  exact ⟨d.words_slice r.1 r.2, fun hfits =>
    ⟨hfits.isWindow_slice r.1 r.2, hfits.span_slice (by omega) hstop⟩⟩

/-- There are parts that match if and only if there is a match. -/
theorem matchedParts_ne_nil : matchedParts ps d ≠ [] ↔ (ps.any (·.isMatch d)) = true := by
  have hranges : matchedParts ps d ≠ [] ↔ ∃ r, r ∈ matchedRanges ps d := by
    rw [matchedParts, Ne, List.map_eq_nil_iff, List.eq_nil_iff_forall_not_mem, not_forall_not]
  simp only [hranges, mem_matchedRanges, List.any_eq_true, Pattern.isMatch_iff]
  rw [exists_comm]
  simp only [exists_and_left]

theorem flatMap_matchedParts_ne_nil :
    ds.flatMap (matchedParts ps) ≠ [] ↔ (ds.any fun d => ps.any (·.isMatch d)) = true := by
  simp only [List.any_eq_true (l := ds), ← matchedParts_ne_nil, ne_eq, List.flatMap_eq_nil_iff,
    not_forall, exists_prop]

/-- Documents were found if there is one by itself, or a list of some. -/
theorem unwrapSingle_iff : ((∃ d, unwrapSingle (ds.map .doc) = .doc d) ∨
    ∃ items, unwrapSingle (ds.map .doc) = .list items ∧ items ≠ []) ↔ ds ≠ [] := by
  match ds with
  | [] | [_] | _ :: _ :: _ => simp [unwrapSingle]

theorem Value.isNull_of_truthy (h : v.truthy = true) : v.isNull = false := by
  cases v with
  | null => cases h
  | _ => rfl

theorem Args.AsksFor.congr {args' : Args} {range? : Option (ℤ × ℤ)}
    (hargs : ∀ parameter ∈ ["docs", "idxes", "pattern"], args'.get parameter = args.get parameter) :
    args'.AsksFor range? ds ps ↔ args.AsksFor range? ds ps := by
  obtain ⟨hdocs, hidxes, hpattern, -⟩ := by simpa only [List.forall_mem_cons] using hargs
  constructor
  · rintro ⟨htruthy, hrange, hds, hps⟩
    exact ⟨hdocs ▸ htruthy, hidxes ▸ hrange, hdocs ▸ hds, hpattern ▸ hps⟩
  · rintro ⟨htruthy, hrange, hds, hps⟩
    exact ⟨hdocs ▸ htruthy, hidxes ▸ hrange, hdocs ▸ hds, hpattern ▸ hps⟩

/-- **Parts that match are found where there is a match.** Given the same documents, indices and patterns,
finding the parts that match succeeds if and only if looking for a match does, and then there is a match if
and only if a document is found, or a list that is not empty. What is found comes document by document: of
each one the ranges of its part that at least one pattern matches, in ascending order and each of them
once. -/
theorem Builtin.token_agrees_hasPattern {args args' : Args} (a a' : Ambient)
    (hargs : ∀ parameter ∈ ["docs", "idxes", "pattern"], args'.get parameter = args.get parameter)
    (hpattern : (args.get "pattern").truthy = true) :
    ((∃ v, (Builtin.token.run args a).result = .ok v) ↔
      ∃ v, (Builtin.hasPattern.run args' a').result = .ok v) ∧
    ∀ v, (Builtin.token.run args a).result = .ok v →
      (∃ b, (Builtin.hasPattern.run args' a').result = .ok (.bool b) ∧
        (b = true ↔ (∃ d, v = .doc d) ∨ ∃ items, v = .list items ∧ items ≠ [])) ∧
      ∃ range? sources ps groups, args.AsksFor range? sources ps ∧
        v = unwrapSingle ((List.flatten groups).map .doc) ∧
        List.Forall₂ (fun source group => (Documents.part source range?).HasMatches ps group)
          sources groups := by
  have hnull : (args'.get "pattern").isNull = false := by
    rw [hargs "pattern" (by decide)]
    exact Value.isNull_of_truthy hpattern
  simp only [Builtin.run, Documents.token_of_pattern hpattern, Documents.hasPattern_of_not_isNull hnull,
    Args.AsksFor.congr hargs]
  refine ⟨⟨?_, ?_⟩, ?_⟩
  · rintro ⟨_, range?, ds, ps, hasks, -⟩
    exact ⟨_, range?, ds, ps, hasks, rfl⟩
  · rintro ⟨_, range?, ds, ps, hasks, -⟩
    exact ⟨_, range?, ds, ps, hasks, rfl⟩
  · rintro _ ⟨range?, ds, ps, hasks, rfl⟩
    refine ⟨⟨_, ⟨range?, ds, ps, hasks, rfl⟩, ?_⟩,
      range?, ds, ps, ds.map fun d => matchedParts ps (Documents.part d range?), hasks, ?_, ?_⟩
    · rw [unwrapSingle_iff, flatMap_matchedParts_ne_nil]
    · rw [List.flatMap_map, List.flatMap_def]
    · rw [forall₂_map_self_iff]
      intro d _
      exact hasMatches_matchedParts ps (Documents.part d range?)

/-- Three patterns, two of which match the same words. -/
def soughtPatterns : List Pattern :=
  [⟨"rains *", [[.word "rains"], [.any]]⟩, ⟨"* .", [[.any], [.word "."]]⟩,
    ⟨". *", [[.word "."], [.any]]⟩]

/-- Patterns are asked for in a part of a document. -/
def soughtArgs : Args where
  function := "token"
  values := [("docs", .doc rainyDay),
    ("idxes", .list [.num ⟨0xC010000000000000⟩, .num ⟨0xBFF0000000000000⟩]),
    ("pattern", .list (soughtPatterns.map fun p => .str p.source))]

/-- Two matches are found, which overlap. -/
theorem Builtin.token_agrees_hasPattern_rainyDay :
    (Builtin.token.run soughtArgs {}).result =
      .ok (.list [.doc (rainyDay.slice 1 3), .doc (rainyDay.slice 2 4)]) ∧
    (Builtin.hasPattern.run { soughtArgs with function := "has_pattern" } {}).result =
      .ok (.bool true) := by
  have hpatterns : ∀ p ∈ soughtPatterns, Pattern.compile p.source = .ok p := by decide +kernel
  have hranges : matchedRanges soughtPatterns (rainyDay.slice 1 4) = [(0, 2), (1, 3)] := by
    decide +kernel
  have hasks : soughtArgs.AsksFor (some (-4, -1)) [rainyDay] soughtPatterns :=
    ⟨rfl, ⟨_, _, rfl, rfl, rfl⟩, .cons rfl .nil, List.forall₂_map_left_iff.mpr <|
      List.forall₂_same.mpr fun p hp => ⟨p.source, rfl, hpatterns p hp⟩⟩
  have htoken : (Builtin.token.run soughtArgs {}).result =
      .ok (.list [.doc (rainyDay.slice 1 3), .doc (rainyDay.slice 2 4)]) := by
    refine (Documents.token_of_pattern rfl).mpr ⟨_, _, _, hasks, ?_⟩
    have hpart : Documents.part rainyDay (some (-4, -1)) = rainyDay.slice 1 4 := rfl
    rw [List.map_singleton, List.flatMap_singleton, hpart, matchedParts, hranges]
    rfl
  have hagree := @Builtin.token_agrees_hasPattern soughtArgs
    { soughtArgs with function := "has_pattern" } {} {} (fun _ _ => rfl) rfl
  obtain ⟨b, hb, hfound⟩ := (hagree.2 _ htoken).1
  obtain rfl := hfound.mpr (.inr ⟨_, rfl, List.cons_ne_nil _ _⟩)
  exact ⟨htoken, hb⟩

end ErrorAnalysis
