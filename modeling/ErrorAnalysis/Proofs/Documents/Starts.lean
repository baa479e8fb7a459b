import ErrorAnalysis.Proofs.Documents.Matches

/-!
# Documents that Start with a Pattern

Whether documents start with a pattern is found out by looking for matches in their first words. How many
words these are is told by the first pattern: as many as it has elements, and all words of a document that
has fewer. A match there need not be at the start if its pattern has fewer elements than the first one, and
one at the start need not lie there if it has more. With patterns of one length, in particular with a single
pattern, the answer is right.

## Main definitions

* `Document.StartsWith`: a match of a pattern begins at the first word.

## Main results

* `Pattern.mem_findAll_slice`: the matches in a part of a document.
* `Documents.boundaryWith_start`: **where starts are looked for.**
* `Builtin.findsStart_of_width`: **when a pattern at the start is found, and what is found is at the start.**
-/

namespace ErrorAnalysis

variable {args : Args} {a : Ambient} {v : Value} {d : Document} {ds : List Document} {p q : Pattern}
  {ps : List Pattern}

/-! ### Matches in a part -/

namespace Pattern

/-- The first words of a document are what elements ask for if they are in the document, and are enough. -/
theorem acceptsAll_take {elements : List (List Atom)} {ws : List Word} {n : ℕ} :
    acceptsAll elements (ws.take n) = true ↔ elements.length ≤ n ∧ acceptsAll elements ws = true := by
  induction elements generalizing ws n with
  | nil => simp [acceptsAll]
  | cons atoms elements ih =>
      rcases n with _ | n
      · simp [acceptsAll]
      · cases ws with
        | nil => simp [acceptsAll]
        | cons w ws =>
            simp only [List.take_succ_cons, acceptsAll, Bool.and_eq_true, ih, List.length_cons,
              Nat.add_le_add_iff_right]
            exact and_left_comm

/-- The matches in a part of a document are those of the document that lie in the part. -/
theorem mem_findAll_slice {b c i k : ℕ} (hb : b ≤ min c d.size) :
    (i, k) ∈ p.findAll (d.slice b c) ↔ (b + i, b + k) ∈ p.findAll d ∧ b + k ≤ c := by
  have hsize := d.size_slice b c
  rw [mem_findAll, mem_findAll, d.words_slice, ← List.drop_take, List.drop_drop, List.drop_take,
    acceptsAll_take]
  change k = i + p.width ∧ k ≤ _ ∧ p.width ≤ _ ∧ _ ↔ _
  constructor
  · rintro ⟨hk, hfits, -, haccepts⟩
    exact ⟨⟨by omega, by omega, haccepts⟩, by omega⟩
  · rintro ⟨⟨hk, hfits, haccepts⟩, hc⟩
    exact ⟨by omega, by omega, by omega, haccepts⟩

end Pattern

/-! ### The start -/

/-- A match of a pattern begins at the first word of a document. -/
def Document.StartsWith (d : Document) (p : Pattern) : Prop :=
  (0, p.width) ∈ p.findAll d

/-- Matches in the first words of a document, or in all of them if there are fewer. -/
theorem Documents.isMatch_part {n : ℕ} : q.isMatch (part d (some (0, n))) = true ↔
    ∃ r ∈ q.findAll d, r.2 ≤ n ∨ d.size < n := by
  have hpart : part d (some (0, n)) = if d.size < n then d else d.slice 0 n := by
    simp only [part, lt_irrefl, if_false, add_zero, Int.toNat_zero, Int.toNat_natCast]
    congr 1
    rw [eq_iff_iff, false_or]
    omega
  rw [hpart, Pattern.isMatch_iff]
  split
  · next hlt =>
      constructor
      · rintro ⟨r, hr⟩
        exact ⟨r, hr, .inr hlt⟩
      · rintro ⟨r, hr, -⟩
        exact ⟨r, hr⟩
  · next hle =>
      have hmem (r : ℕ × ℕ) : r ∈ q.findAll (d.slice 0 n) ↔ r ∈ q.findAll d ∧ r.2 ≤ n := by
        have h := Pattern.mem_findAll_slice (p := q) (i := r.1) (k := r.2) (Nat.zero_le (min n d.size))
        rwa [Nat.zero_add, Nat.zero_add] at h
      simp only [hmem, hle, or_false]

/-- A value with documents behind its items counts as true. -/
theorem Value.HasDocuments.truthy (h : v.HasDocuments ds) (hsome : ds ≠ []) : v.truthy = true := by
  cases v with
  | null | list items =>
      rcases h with _ | ⟨_, _⟩
      · exact absurd rfl hsome
      all_goals rfl
  | _ =>
      -- the value is its only item
      obtain ⟨d, _, hd, -⟩ := List.forall₂_cons_left_iff.mp h
      exact Value.truthy_of_doc? hd

/-- **Where starts are looked for**: in as many words as the first pattern has elements. -/
theorem Documents.boundaryWith_start (hdirection : args.get "direction" = .str "start")
    (hdocs : (args.get "docs").HasDocuments ds) (hsome : ds ≠ [])
    (hpatterns : (args.get "pattern").HasPatterns (p :: ps)) : (boundaryWith args a).result =
      .ok (.bool ((ds.map (part · (some (0, p.width)))).any fun d =>
        (p :: ps).any (·.isMatch d))) := by
  have hnull : (args.get "pattern").isNull = false := by
    cases hpattern : args.get "pattern" with
    | null =>
        rw [hpattern] at hpatterns
        cases hpatterns
    | _ => rfl
  have htext : args.text "direction" = .ok "start" := by
    rw [Args.text, Args.text?, hdirection]
    rfl
  simp only [boundaryWith, Eval.result_bind, Eval.result_liftM, hnull,
    Bool.false_eq_true, if_false]
  refine except_bind_eq_ok.mpr ⟨_, Ambient.patternsOf_eq_ok.mpr hpatterns, ?_⟩
  refine except_bind_eq_ok.mpr ⟨_, htext, ?_⟩
  exact (patternFound_eq_ok hnull).mpr
    ⟨hdocs.truthy hsome, ds, p :: ps, hdocs, hpatterns, rfl⟩

/-- Starts are found in as many words as the first pattern has elements. -/
theorem Documents.findsStart_iff : ((ds.map (part · (some (0, p.width)))).any fun d =>
      ps.any (·.isMatch d)) = true ↔
    ∃ d ∈ ds, ∃ q ∈ ps, ∃ r ∈ q.findAll d, r.2 ≤ p.width ∨ d.size < p.width := by
  simp only [List.any_map, List.any_eq_true, Function.comp_apply, isMatch_part]

/-- **When a pattern at the start is found, and what is found is at the start.** Given documents and patterns
there is an answer. It is yes if and only if one of the patterns matches in the first words of a document, of
which there are as many as the first pattern has elements, or in a document that has fewer. If no pattern has
fewer elements than the first one, what is found is at the start; if none has more, what is at the start is
found. So both hold of a single pattern, and of patterns with the same number of elements. -/
theorem Builtin.findsStart_of_width (a : Ambient) (hdirection : args.get "direction" = .str "start")
    (hdocs : (args.get "docs").HasDocuments ds) (hsome : ds ≠ [])
    (hpatterns : (args.get "pattern").HasPatterns (p :: ps)) :
    ∃ found, (Builtin.boundaryWith.run args a).result = .ok (.bool found) ∧
      (found = true ↔
        ∃ d ∈ ds, ∃ q ∈ p :: ps, ∃ r ∈ q.findAll d, r.2 ≤ p.width ∨ d.size < p.width) ∧
      ((∀ q ∈ ps, p.width ≤ q.width) → found = true → ∃ d ∈ ds, ∃ q ∈ p :: ps, d.StartsWith q) ∧
      ((∀ q ∈ ps, q.width ≤ p.width) → (∃ d ∈ ds, ∃ q ∈ p :: ps, d.StartsWith q) → found = true) := by
  refine ⟨_, Documents.boundaryWith_start hdirection hdocs hsome hpatterns, ?_⟩
  simp only [Documents.findsStart_iff]
  refine ⟨trivial, ?_, ?_⟩
  · rintro hwidth ⟨d, hd, q, hq, ⟨i, k⟩, hr, hplace⟩
    have hle : ∀ q ∈ p :: ps, p.width ≤ q.width := List.forall_mem_cons.mpr ⟨le_rfl, hwidth⟩
    specialize hle q hq
    obtain ⟨hk, hfits, -⟩ := Pattern.mem_findAll.mp hr
    obtain rfl : i = 0 := by omega
    obtain rfl : k = q.width := by omega
    exact ⟨d, hd, q, hq, hr⟩
  · rintro hwidth ⟨d, hd, q, hq, hstarts⟩
    have hle : ∀ q ∈ p :: ps, q.width ≤ p.width := List.forall_mem_cons.mpr ⟨le_rfl, hwidth⟩
    exact ⟨d, hd, q, hq, _, hstarts, .inl (hle q hq)⟩

/-- Patterns that a document may start with. -/
def openingArgs (patterns : List Pattern) : Args where
  function := "boundary_with"
  values := [("direction", .str "start"), ("docs", .doc rainyDay),
    ("pattern", .list (patterns.map fun p => .str p.source))]

theorem hasPatterns_openingArgs (h : ∀ p ∈ ps, Pattern.compile p.source = .ok p) :
    ((openingArgs ps).get "docs").HasDocuments [rainyDay] ∧
      ((openingArgs ps).get "pattern").HasPatterns ps :=
  ⟨.cons rfl .nil, List.forall₂_map_left_iff.mpr <|
    List.forall₂_same.mpr fun p hp => ⟨p.source, rfl, h p hp⟩⟩

def goHome : Pattern :=
  ⟨"go home", [[.word "go"], [.word "home"]]⟩

def itRains : Pattern :=
  ⟨"it rains", [[.word "it"], [.word "rains"]]⟩

def goes : Pattern :=
  ⟨"go", [[.word "go"]]⟩

theorem startsWith_itRains : rainyDay.StartsWith itRains := by
  rw [Document.StartsWith]
  decide +kernel

/-- Two patterns with two elements each, the second of which is at the start. -/
theorem Builtin.findsStart_of_width_rainyDay : rainyDay.StartsWith itRains ∧
    (Builtin.boundaryWith.run (openingArgs [goHome, itRains]) {}).result = .ok (.bool true) := by
  have hpatterns : ∀ p ∈ [goHome, itRains], Pattern.compile p.source = .ok p := by decide +kernel
  obtain ⟨hdocs, hread⟩ := hasPatterns_openingArgs hpatterns
  obtain ⟨found, hfound, -, -, hcomplete⟩ :=
    Builtin.findsStart_of_width {} rfl hdocs (List.cons_ne_nil _ _) hread
  have hsame : ∀ q ∈ [itRains], q.width ≤ goHome.width := by decide
  have htrue : found = true :=
    hcomplete hsame ⟨rainyDay, List.mem_singleton_self _, itRains, by simp, startsWith_itRains⟩
  exact ⟨startsWith_itRains, htrue ▸ hfound⟩

/-- The document starts with the second pattern, and is asked for it in its first word only, as the first
pattern has no more elements. -/
theorem Builtin.not_findsStart_rainyDay : rainyDay.StartsWith itRains ∧
    (Builtin.boundaryWith.run (openingArgs [goes, itRains]) {}).result = .ok (.bool false) := by
  have hpatterns : ∀ p ∈ [goes, itRains], Pattern.compile p.source = .ok p := by decide +kernel
  obtain ⟨hdocs, hread⟩ := hasPatterns_openingArgs hpatterns
  have hfound : (([rainyDay].map (Documents.part · (some (0, goes.width)))).any fun d =>
      [goes, itRains].any (·.isMatch d)) = false := by decide +kernel
  refine ⟨startsWith_itRains, ?_⟩
  rw [← hfound]
  exact Documents.boundaryWith_start rfl hdocs (List.cons_ne_nil _ _) hread

end ErrorAnalysis
