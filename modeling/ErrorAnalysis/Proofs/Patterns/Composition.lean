import Mathlib.Tactic
import ErrorAnalysis.Pattern
import ErrorAnalysis.Proofs.Lexing.Tiling

/-!
# Patterns One after the Other

A text is read as a pattern by looking ahead: a word goes on up to a blank or a bracket, alternatives go on
up to the bracket that closes them. `Reads` says without looking ahead what is read, as a grammar. A text
that the grammar accepts has closed its brackets, and a blank closes its last word, so the elements of
another pattern may follow. The matches of the whole are then the matches of the one pattern that matches
of the other go on from.

## Main definitions

* `Pattern.Reads`: the elements that a text is written with, as a grammar.

## Main results

* `Pattern.reads_iff`: **the reader accepts the texts of the grammar, and yields their elements.**
* `Pattern.Reads.append`: what is read of two texts with a blank between them.
* `Pattern.mem_findAll`: which ranges match.
* `Pattern.compile_append`: **patterns that are written one after the other match one after the other.**
-/

namespace ErrorAnalysis

namespace Pattern

/-! ### The grammar -/

/-- The elements that a text is written with. -/
inductive Reads : List Char → List (List Atom) → Prop
  | nil : Reads [] []
  | blank {c : Char} {rest : List Char} {elements : List (List Atom)} (hc : isBlank c = true)
      (h : Reads rest elements) : Reads (c :: rest) elements
  | group {inside rest : List Char} {elements : List (List Atom)}
      (hinside : ∀ c ∈ inside, isInside c = true) (hsome : alternatives inside ≠ [])
      (h : Reads rest elements) :
      Reads ('(' :: (inside ++ ')' :: rest)) (alternatives inside :: elements)
  | word {word rest : List Char} {elements : List (List Atom)}
      (hword : ∀ c ∈ word, isWordPart c = true) (hsome : word ≠ [])
      (hstops : ∀ c ∈ rest.head?, isWordPart c = false) (h : Reads rest elements) :
      Reads (word ++ rest) ([Atom.ofText word] :: elements)

variable {c : Char} {cs ds inside word rest : List Char} {elements elements' : List (List Atom)}

/-- What is read of two texts with a blank between them. -/
theorem Reads.append (h : Reads cs elements) (h' : Reads ds elements') :
    Reads (cs ++ ' ' :: ds) (elements ++ elements') := by
  induction h with
  | nil => exact .blank (by decide) h'
  | blank hc _ ih => exact .blank hc ih
  | @group inside rest elements hinside hsome _ ih =>
      rw [List.cons_append, List.append_assoc, List.cons_append, List.cons_append]
      exact .group hinside hsome ih
  | @word word rest elements hword hsome hstops _ ih =>
      rw [List.append_assoc, List.cons_append]
      refine .word hword hsome (fun c hc => ?_) ih
      cases rest with
      | nil =>
          -- the word goes up to the blank
          obtain rfl := Option.some.inj hc
          decide
      | cons a rest => exact hstops c hc

/-! ### The reader -/

theorem isWordPart_iff : isWordPart c = true ↔ c ≠ '(' ∧ c ≠ ')' ∧ isBlank c = false := by
  simp [isWordPart, isInside, and_assoc]

theorem readElements_word (hc : isWordPart c = true) :
    readElements (c :: cs) = (readElements (cs.dropWhile isWordPart)).map
      ([Atom.ofText (c :: cs.takeWhile isWordPart)] :: ·) := by
  obtain ⟨hopen, hclose, hblank⟩ := isWordPart_iff.mp hc
  rw [readElements, hblank, if_neg Bool.false_ne_true, if_neg hopen, if_neg hclose]

theorem readElements_group (h : cs.dropWhile isInside = ')' :: rest) :
    readElements ('(' :: cs) = if (alternatives (cs.takeWhile isInside)).isEmpty then
        .error .emptyAlternatives
      else (readElements rest).map (alternatives (cs.takeWhile isInside) :: ·) := by
  rw [readElements, if_neg (by decide), if_pos rfl]
  split
  · next after h' =>
      obtain rfl := (List.cons.inj (h'.symm.trans h)).2
      rfl
  · next h' => cases h'.symm.trans h
  · next hopen _ => exact absurd h (hopen rest)

/-- Alternatives that are read end at a bracket that closes. -/
theorem exists_of_readElements_group (h : readElements ('(' :: cs) = .ok elements) :
    ∃ rest tail, cs.dropWhile isInside = ')' :: rest ∧ alternatives (cs.takeWhile isInside) ≠ [] ∧
      readElements rest = .ok tail ∧ elements = alternatives (cs.takeWhile isInside) :: tail := by
  rw [readElements, if_neg (by decide), if_pos rfl] at h
  split at h
  · next rest hdrop =>
      dsimp only at h
      split at h
      · cases h
      · next hsome =>
          obtain ⟨tail, hrest, htail⟩ := except_map_eq_ok.mp h
          exact ⟨rest, tail, hdrop, fun hempty => hsome (List.isEmpty_iff.mpr hempty), hrest, htail.symm⟩
  · cases h
  · cases h

/-- A group as it is read: up to the bracket that closes. -/
theorem Reads.of_dropWhile_isInside {tail : List (List Atom)} (hclose : cs.dropWhile isInside = ')' :: rest)
    (hsome : alternatives (cs.takeWhile isInside) ≠ []) (h : Reads rest tail) :
    Reads ('(' :: cs) (alternatives (cs.takeWhile isInside) :: tail) := by
  have hinside : ∀ c ∈ cs.takeWhile isInside, isInside c = true :=
    List.all_eq_true.mp List.all_takeWhile
  have hread := Reads.group hinside hsome h
  rwa [← hclose, List.takeWhile_append_dropWhile] at hread

/-- A word as it is read: up to what cannot be a part of it. -/
theorem Reads.of_dropWhile_isWordPart {tail : List (List Atom)} (hc : isWordPart c = true)
    (h : Reads (cs.dropWhile isWordPart) tail) :
    Reads (c :: cs) ([Atom.ofText (c :: cs.takeWhile isWordPart)] :: tail) := by
  have hword : ∀ a ∈ c :: cs.takeWhile isWordPart, isWordPart a = true :=
    List.forall_mem_cons.mpr ⟨hc, List.all_eq_true.mp List.all_takeWhile⟩
  have hread := Reads.word hword (List.cons_ne_nil _ _) (Token.dropWhile_stops _ cs) h
  rwa [List.cons_append, List.takeWhile_append_dropWhile] at hread

/-- Whatever the reader yields is in the grammar. -/
theorem reads_of_readElements (h : readElements cs = .ok elements) : Reads cs elements := by
  -- by induction on the length, as a group and a word are left behind as a whole
  induction hlength : cs.length using Nat.strong_induction_on generalizing cs elements with
  | h n ih =>
  cases cs with
  | nil =>
      rw [readElements] at h
      obtain rfl := Except.ok.inj h
      exact .nil
  | cons c cs =>
      have reads_of_le {rest tail} (hle : rest.length ≤ cs.length)
          (hrest : readElements rest = .ok tail) : Reads rest tail := by
        refine ih rest.length ?_ hrest rfl
        rw [List.length_cons] at hlength
        omega
      have hdrop (p : Char → Bool) : (cs.dropWhile p).length ≤ cs.length :=
        (List.dropWhile_suffix p).length_le
      by_cases hblank : isBlank c = true
      · rw [readElements, if_pos hblank] at h
        exact .blank hblank (reads_of_le le_rfl h)
      by_cases hopen : c = '('
      · subst hopen
        obtain ⟨rest, tail, hclose, hsome, hrest, rfl⟩ := exists_of_readElements_group h
        have hle := hdrop isInside
        rw [hclose, List.length_cons] at hle
        exact .of_dropWhile_isInside hclose hsome (reads_of_le (by omega) hrest)
      by_cases hclose : c = ')'
      · rw [readElements, if_neg hblank, if_neg hopen, if_pos hclose] at h
        cases h
      · have hc : isWordPart c = true := isWordPart_iff.mpr ⟨hopen, hclose, by simpa using hblank⟩
        rw [readElements_word hc] at h
        obtain ⟨tail, hrest, rfl⟩ := except_map_eq_ok.mp h
        exact .of_dropWhile_isWordPart hc (reads_of_le (hdrop _) hrest)

/-- The reader yields whatever is in the grammar. -/
theorem Reads.readElements_eq (h : Reads cs elements) : readElements cs = .ok elements := by
  induction h with
  | nil => rw [readElements]
  | blank hc _ ih => rw [readElements, if_pos hc, ih]
  | @group inside rest elements hinside hsome _ ih =>
      have hstops : ∀ c ∈ (')' :: rest).head?, isInside c = false := by
        rintro _ ⟨⟩
        decide
      obtain ⟨htake, hdrop⟩ := span_append hinside hstops
      rw [readElements_group hdrop, htake, if_neg (by simpa using hsome), ih]
      rfl
  | @word word rest elements hword hsome hstops _ ih =>
      obtain ⟨c, word, rfl⟩ := List.exists_cons_of_ne_nil hsome
      obtain ⟨hc, hword⟩ := List.forall_mem_cons.mp hword
      obtain ⟨htake, hdrop⟩ := span_append hword hstops
      rw [List.cons_append, readElements_word hc, htake, hdrop, ih]
      rfl

/-- **The reader accepts the texts of the grammar, and yields their elements.** -/
theorem reads_iff : Reads cs elements ↔ readElements cs = .ok elements :=
  ⟨Reads.readElements_eq, reads_of_readElements⟩

/-- A text denotes a pattern if it is written with some elements, and then the pattern has these. -/
theorem compile_eq_ok {source : String} {p : Pattern} :
    compile source = .ok p ↔
      p.source = source ∧ p.elements ≠ [] ∧ Reads source.toList p.elements := by
  obtain ⟨text, elements⟩ := p
  rw [compile, readAll, reads_iff]
  cases hread : readElements source.toList with
  | error problem => simp
  | ok read =>
      cases read with
      | nil => simp
      | cons atoms read =>
          simp only [Except.ok.injEq, Pattern.mk.injEq]
          constructor
          · rintro ⟨rfl, rfl⟩
            exact ⟨rfl, List.cons_ne_nil _ _, rfl⟩
          · rintro ⟨rfl, -, rfl⟩
            exact ⟨rfl, rfl⟩

/-- What is read of two patterns, one after the other, are the elements of both. -/
theorem compile_append_blank {s₁ s₂ : String} {p₁ p₂ : Pattern} (h₁ : compile s₁ = .ok p₁)
    (h₂ : compile s₂ = .ok p₂) :
    compile (s₁ ++ " " ++ s₂) = .ok ⟨s₁ ++ " " ++ s₂, p₁.elements ++ p₂.elements⟩ := by
  obtain ⟨-, hsome, hread₁⟩ := compile_eq_ok.mp h₁
  obtain ⟨-, -, hread₂⟩ := compile_eq_ok.mp h₂
  refine compile_eq_ok.mpr ⟨rfl, List.append_ne_nil_of_left_ne_nil hsome _, ?_⟩
  have htext : (s₁ ++ " " ++ s₂).toList = s₁.toList ++ ' ' :: s₂.toList := by
    simp
  rw [htext]
  exact hread₁.append hread₂

/-! ### Matches -/

/-- A sequence of elements accepts words if its front accepts the first ones and its rest those that
follow. -/
theorem acceptsAll_append {ws : List Word} : acceptsAll (elements ++ elements') ws =
    (acceptsAll elements ws && acceptsAll elements' (ws.drop elements.length)) := by
  induction elements generalizing ws with
  | nil => simp [acceptsAll]
  | cons atoms elements ih =>
      cases ws with
      | nil => simp [acceptsAll]
      | cons w ws => simp [acceptsAll, ih, Bool.and_assoc]

variable {p p₁ p₂ : Pattern} {d : Document} {i k : ℕ}

/-- **A range matches if it has the width of the pattern, lies in the document, and its words are what the
elements ask for.** -/
theorem mem_findAll : (i, k) ∈ p.findAll d ↔
    k = i + p.width ∧ k ≤ d.size ∧ acceptsAll p.elements (d.words.drop i) = true := by
  simp only [findAll, List.mem_map, List.mem_filter, List.mem_range, Bool.and_eq_true,
    decide_eq_true_eq, Prod.mk.injEq]
  constructor
  · rintro ⟨start, ⟨-, hfits, haccepts⟩, rfl, rfl⟩
    exact ⟨rfl, hfits, haccepts⟩
  · rintro ⟨rfl, hfits, haccepts⟩
    exact ⟨i, ⟨by omega, hfits, haccepts⟩, rfl, rfl⟩

/-- Matches are found in the order of their starts, and none twice. -/
theorem pairwise_findAll (p : Pattern) (d : Document) :
    (p.findAll d).Pairwise fun r r' => r.1 < r'.1 ∧ r.2 < r'.2 := by
  refine List.pairwise_map.mpr ((List.pairwise_lt_range.filter _).imp ?_)
  intro i j hlt
  exact ⟨hlt, Nat.add_lt_add_right hlt _⟩

/-- The matches of elements one after the other. -/
theorem mem_findAll_append (h : p.elements = p₁.elements ++ p₂.elements) :
    (i, k) ∈ p.findAll d ↔ ∃ m, (i, m) ∈ p₁.findAll d ∧ (m, k) ∈ p₂.findAll d := by
  have hwidth : p.width = p₁.width + p₂.width := by
    rw [width, h, List.length_append, width, width]
  simp only [mem_findAll]
  rw [h, acceptsAll_append, Bool.and_eq_true, List.drop_drop]
  constructor
  · rintro ⟨hk, hfits, hfront, hrest⟩
    exact ⟨i + p₁.width, ⟨rfl, by omega, hfront⟩, by omega, hfits, hrest⟩
  · rintro ⟨_, ⟨rfl, -, hfront⟩, hk, hfits, hrest⟩
    exact ⟨by omega, hfits, hfront, hrest⟩

/-- **Patterns that are written one after the other match one after the other.** A blank between two texts
that denote patterns gives a text that denotes one too, as wide as both, whose matches are those of the
first with those of the second that start where they end. The matches of any pattern are found in ascending
order, and each has the width of the pattern and lies in the document. -/
theorem compile_append {s₁ s₂ : String} {p₁ p₂ : Pattern} (h₁ : compile s₁ = .ok p₁)
    (h₂ : compile s₂ = .ok p₂) :
    (∃ p, compile (s₁ ++ " " ++ s₂) = .ok p ∧ p.width = p₁.width + p₂.width ∧
      ∀ d i k, (i, k) ∈ p.findAll d ↔ ∃ m, (i, m) ∈ p₁.findAll d ∧ (m, k) ∈ p₂.findAll d) ∧
    ∀ (p : Pattern) (d : Document),
      (p.findAll d).Pairwise (fun r r' => r.1 < r'.1 ∧ r.2 < r'.2) ∧
      ∀ r ∈ p.findAll d, r.2 = r.1 + p.width ∧ r.2 ≤ d.size := by
  refine ⟨⟨_, compile_append_blank h₁ h₂, List.length_append, fun d i k => mem_findAll_append rfl⟩,
    fun p d => ⟨p.pairwise_findAll d, ?_⟩⟩
  rintro ⟨i, k⟩ hr
  obtain ⟨hwidth, hfits, -⟩ := mem_findAll.mp hr
  exact ⟨hwidth, hfits⟩

/-- A word of a question, and what the question asks for. -/
def whichNoun : Pattern :=
  ⟨"(what, which) NOUN", [[.word "what", .word "which"], [.pos "NOUN"]]⟩

/-- A word by its lemma, and an entity. -/
def doEntity : Pattern :=
  ⟨"do ENT", [[.word "do"], [.anyEnt]]⟩

theorem compile_append_whichNoun :
    compile whichNoun.source = .ok whichNoun ∧ compile doEntity.source = .ok doEntity ∧
      ∃ p, compile "(what, which) NOUN do ENT" = .ok p ∧ p.width = 4 ∧
        ∀ d i k, (i, k) ∈ p.findAll d ↔
          ∃ m, (i, m) ∈ whichNoun.findAll d ∧ (m, k) ∈ doEntity.findAll d := by
  have hwhich : compile whichNoun.source = .ok whichNoun := by decide +kernel
  have hdo : compile doEntity.source = .ok doEntity := by decide +kernel
  exact ⟨hwhich, hdo, (compile_append hwhich hdo).1⟩

end Pattern

end ErrorAnalysis
