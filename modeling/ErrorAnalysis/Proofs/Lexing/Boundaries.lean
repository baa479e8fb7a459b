import ErrorAnalysis.Proofs.Lexing.Spelling

/-!
# Where Tokens End

A token ends at a point that does not depend on how the text goes on behind it: if the text is cut off
anywhere behind the token, or if a space is put in there, the same token is read and the same is left.
The readers that a token is put together from each have this property, and sequences of them inherit it.
A run of blanks is the exception, since it takes a space that is put behind it.

## Main definitions

* `Follows`: a text that goes on as another one does until it ends or a space comes.
* `IsLocal`: what a reader takes does not depend on what comes behind.

## Main results

* `isLocal_readRun?`, `isLocal_readMark?`: the readers of tokens are local.
* `next?_of_follows`: **a token other than blanks is read in front of anything that follows the text.**
* `next?_of_isPrefix`: **a token is read in front of any part of what is left.**
-/

namespace ErrorAnalysis

namespace Token

/-! ### Texts that go on alike -/

/-- The second text goes on as the first one does, until it ends or a space comes. -/
inductive Follows : List Char → List Char → Prop
  | stop (rest : List Char) : Follows rest []
  | space (rest tail : List Char) : Follows rest (' ' :: tail)
  | cons {rest front : List Char} (c : Char) (h : Follows rest front) : Follows (c :: rest) (c :: front)

namespace Follows

variable {rest front tail : List Char} {c : Char} {p : Char → Bool}

theorem append (word : List Char) (h : Follows rest front) : Follows (word ++ rest) (word ++ front) := by
  induction word with
  | nil => exact h
  | cons c word ih => exact ih.cons c

theorem of_isPrefix (h : front <+: rest) : Follows rest front := by
  obtain ⟨back, rfl⟩ := h
  have := (stop back).append front
  rwa [List.append_nil] at this

/-- A character other than a space stands in front of both texts. -/
theorem exists_cons (h : Follows rest (c :: tail)) (hc : c ≠ ' ') :
    ∃ rest', rest = c :: rest' ∧ Follows rest' tail := by
  cases h with
  | space => exact absurd rfl hc
  | cons c h => exact ⟨_, rfl, h⟩

/-- A run of characters that stops in front of one text stops in front of the other, if no space goes
on with it. -/
theorem head (h : Follows rest front) (hp : p ' ' = false) (hrest : ∀ c ∈ rest.head?, p c = false) :
    ∀ c ∈ front.head?, p c = false := by
  cases h with
  | stop => simp
  | space rest tail =>
      rintro c hc
      obtain rfl : ' ' = c := by simpa using hc
      exact hp
  | cons c _ => exact hrest

/-- If the text does not start with a character, what follows it does not either. -/
theorem ne_cons (h : Follows rest front) (hc : c ≠ ' ') (hrest : ∀ tail, rest ≠ c :: tail) :
    ∀ tail, front ≠ c :: tail := by
  rintro tail rfl
  obtain ⟨rest', rfl, -⟩ := h.exists_cons hc
  exact hrest rest' rfl

end Follows

/-! ### Local readers -/

section Readers

variable {α β : Type} {f : List Char → Option (α × List Char)}
  {g : α → List Char → Option (β × List Char)}

/-- What a reader takes off a text, it takes whatever follows in the way in which the text goes on. -/
def IsLocal (f : List Char → Option (α × List Char)) : Prop :=
  ∀ ⦃cs x rest⦄, f cs = some (x, rest) →
    ∃ word, cs = word ++ rest ∧ ∀ ⦃front⦄, Follows rest front → f (word ++ front) = some (x, front)

theorem IsLocal.congr {f' : List Char → Option (α × List Char)} (hf : IsLocal f)
    (h : ∀ cs, f cs = f' cs) : IsLocal f' :=
  funext h ▸ hf

/-- One reader behind the other. -/
theorem IsLocal.bind (hf : IsLocal f) (hg : ∀ x, IsLocal (g x)) :
    IsLocal fun cs => (f cs).bind fun r => g r.1 r.2 := by
  intro cs y rest h
  obtain ⟨⟨x, mid⟩, hx, hy⟩ := Option.bind_eq_some_iff.mp h
  obtain ⟨word, rfl, hword⟩ := hf hx
  obtain ⟨word', rfl, hword'⟩ := hg x hy
  refine ⟨word ++ word', (List.append_assoc ..).symm, fun front hfront => ?_⟩
  show (f (word ++ word' ++ front)).bind _ = _
  rw [List.append_assoc, hword (hfront.append word')]
  exact hword' hfront

/-- Taking nothing, and giving up if there is nothing to give. -/
theorem isLocal_give (y : Option β) : IsLocal fun cs => y.map fun y => (y, cs) := by
  intro cs y' rest h
  obtain ⟨y, rfl, heq⟩ := Option.map_eq_some_iff.mp h
  obtain ⟨rfl, rfl⟩ := Prod.mk.inj heq
  exact ⟨[], rfl, fun front _ => rfl⟩

theorem IsLocal.map (hf : IsLocal f) (k : α → β) :
    IsLocal fun cs => (f cs).map fun r => (k r.1, r.2) := by
  refine (hf.bind fun x => isLocal_give (some (k x))).congr fun cs => ?_
  cases f cs <;> rfl

/-- A reader that always takes something, if only nothing. -/
theorem isLocal_some {g : List Char → α × List Char} :
    (IsLocal fun cs => some (g cs)) ↔ ∀ cs, ∃ word, cs = word ++ (g cs).2 ∧
      ∀ ⦃front⦄, Follows (g cs).2 front → g (word ++ front) = ((g cs).1, front) := by
  constructor
  · intro h cs
    have hread : some (g cs) = some ((g cs).1, (g cs).2) := rfl
    obtain ⟨word, hcs, hword⟩ := h hread
    exact ⟨word, hcs, fun front hfront => Option.some.inj (hword hfront)⟩
  · intro h cs x rest hread
    obtain ⟨word, hcs, hword⟩ := h cs
    rw [Option.some.inj hread] at hcs hword
    exact ⟨word, hcs, fun front hfront => congrArg some (hword hfront)⟩

theorem dropWhile_stops (p : Char → Bool) (cs : List Char) :
    ∀ c ∈ (cs.dropWhile p).head?, p c = false := by
  intro c hc
  have hstop := List.head?_dropWhile_not p cs
  rwa [Option.mem_def.mp hc] at hstop

/-- A run of characters, none of which is a space. -/
theorem isLocal_span {p : Char → Bool} (hp : p ' ' = false) :
    IsLocal fun cs => some (cs.takeWhile p, cs.dropWhile p) := by
  refine isLocal_some.mpr fun cs => ⟨cs.takeWhile p, List.takeWhile_append_dropWhile.symm, ?_⟩
  intro front hfront
  have hword : ∀ c ∈ cs.takeWhile p, p c = true := List.all_eq_true.mp List.all_takeWhile
  obtain ⟨htake, hdrop⟩ := span_append hword (hfront.head hp (dropWhile_stops p cs))
  exact Prod.ext htake hdrop

end Readers

/-! ### Numbers -/

section Numbers

open Number (splitDigits splitSign)

variable {rest front : List Char}

theorem isLocal_splitDigits : IsLocal fun cs => some (splitDigits cs) :=
  isLocal_span (by decide)

/-- If no digits stand at the start of a text, none stand at the start of what follows it. -/
theorem Follows.isEmpty_splitDigits (h : Follows rest front)
    (hrest : (splitDigits rest).1.isEmpty = true) : (splitDigits front).1.isEmpty = true := by
  cases h with
  | stop => rfl
  | space => rfl
  | cons c h =>
      simp only [splitDigits, List.takeWhile_cons] at hrest ⊢
      split at hrest
      · exact absurd hrest (by simp)
      · next hc => rw [if_neg hc]; rfl

theorem isLocal_splitSign : IsLocal fun cs => some (splitSign cs) := by
  refine isLocal_some.mpr fun cs => ?_
  fun_cases splitSign cs with
  | case1 cs => exact ⟨['-'], rfl, fun front _ => rfl⟩
  | case2 cs => exact ⟨['+'], rfl, fun front _ => rfl⟩
  | case3 cs hminus hplus =>
      refine ⟨[], rfl, fun front hfront => ?_⟩
      have hminus' := hfront.ne_cons (by decide) hminus
      have hplus' := hfront.ne_cons (by decide) hplus
      rw [List.nil_append, splitSign]
      · exact hminus'
      · exact hplus'

/-- Behind a sign, or behind none, the texts go on alike. -/
theorem Follows.splitSign (h : Follows rest front) :
    Follows (splitSign rest).2 (splitSign front).2 := by
  cases h with
  | stop => exact .stop _
  | space rest tail => exact .space _ _
  | @cons rest front c h =>
      by_cases hminus : c = '-'
      · subst hminus
        exact h
      by_cases hplus : c = '+'
      · subst hplus
        exact h
      have hnone (cs : List Char) : Number.splitSign (c :: cs) = (false, c :: cs) := by
        rw [Number.splitSign] <;> simp [hminus, hplus]
      rw [hnone, hnone]
      exact h.cons c

theorem isLocal_readFraction : IsLocal fun cs => some (readFraction cs) := by
  refine isLocal_some.mpr fun cs => ?_
  fun_cases readFraction cs with
  | case1 cs =>
      obtain ⟨word, hcs, hword⟩ := isLocal_some.mp isLocal_splitDigits cs
      exact ⟨'.' :: word, congrArg _ hcs, fun front hfront => hword hfront⟩
  | case2 cs hpoint =>
      refine ⟨[], rfl, fun front hfront => ?_⟩
      have hpoint' := hfront.ne_cons (by decide) hpoint
      rw [List.nil_append, readFraction]
      exact hpoint'

theorem isLocal_readExponent : IsLocal fun cs => some (readExponent cs) := by
  refine isLocal_some.mpr fun cs => ?_
  fun_cases readExponent cs with
  | case1 c rest hc signed digits hdigits =>
      refine ⟨[], rfl, fun front hfront => ?_⟩
      cases hfront with
      | stop => rfl
      | space => rfl
      | cons c h =>
          have hdigits' := h.splitSign.isEmpty_splitDigits hdigits
          simp only [List.nil_append, readExponent, hc, hdigits', if_true]
  | case2 c rest hc signed digits hdigits =>
      obtain ⟨sign, hrest, hsign⟩ := isLocal_some.mp isLocal_splitSign rest
      obtain ⟨run, hrun, hdigit⟩ := isLocal_some.mp isLocal_splitDigits signed.2
      refine ⟨c :: (sign ++ run), ?_, fun front hfront => ?_⟩
      · rw [List.cons_append, List.append_assoc, ← hrun, ← hrest]
      · have hread : splitSign (sign ++ (run ++ front)) = (signed.1, run ++ front) :=
          hsign (hrun ▸ hfront.append run)
        simp only [List.cons_append, List.append_assoc, readExponent, hc, hread, hdigit hfront, if_true]
        exact if_neg hdigits
  | case3 c rest hc =>
      refine ⟨[], rfl, fun front hfront => ?_⟩
      cases hfront with
      | stop => rfl
      | space => rfl
      | cons c h => simp only [List.nil_append, readExponent, hc, if_false]
  | case4 =>
      refine ⟨[], rfl, fun front hfront => ?_⟩
      cases hfront with
      | stop => rfl
      | space => rfl

/-- A number is read part by part. -/
theorem isLocal_readNumber? : IsLocal readNumber? := by
  have hparts := isLocal_splitDigits.bind fun whole => isLocal_readFraction.bind fun fraction =>
    isLocal_readExponent.bind fun e => isLocal_give <|
      if whole.isEmpty then none
      else some (Number.ofDecimal ⟨digitsValue (whole ++ fraction), e - fraction.length⟩)
  refine hparts.congr fun cs => ?_
  simp only [readNumber?, Option.bind_some]
  split <;> rfl

end Numbers

/-! ### The other tokens -/

/-- A text between quotes ends at its closing quote. -/
theorem isLocal_unescapeLiteral? : IsLocal unescapeLiteral? := by
  intro cs text rest h
  fun_induction unescapeLiteral? cs generalizing text with
  | case1 => exact absurd h (by simp)
  | case2 after =>
      obtain ⟨rfl, rfl⟩ := Prod.mk.inj (Option.some.inj h)
      exact ⟨['"'], rfl, fun front _ => rfl⟩
  | case3 => exact absurd h (by simp)
  | case4 c after ih =>
      simp only [Option.bind_eq_bind, Option.bind_eq_some_iff, Option.pure_def,
        Option.some.injEq] at h
      obtain ⟨x, hx, ⟨text', rest'⟩, hread, heq⟩ := h
      obtain ⟨rfl, rfl⟩ := Prod.mk.inj heq
      obtain ⟨word, rfl, hword⟩ := ih hread
      refine ⟨'\\' :: c :: word, rfl, fun front hfront => ?_⟩
      simp [unescapeLiteral?, hx, hword hfront]
  | case5 c after hquote hlast hslash ih =>
      simp only [Option.bind_eq_bind, Option.bind_eq_some_iff, Option.pure_def,
        Option.some.injEq] at h
      obtain ⟨⟨text', rest'⟩, hread, heq⟩ := h
      obtain ⟨rfl, rfl⟩ := Prod.mk.inj heq
      obtain ⟨word, rfl, hword⟩ := ih hread
      refine ⟨c :: word, rfl, fun front hfront => ?_⟩
      have hc : c ≠ '\\' := by
        intro hc
        cases hcs : word ++ rest' with
        | nil => exact hlast hc hcs
        | cons d tail => exact hslash d tail hc hcs
      rw [List.cons_append, unescapeLiteral?]
      · simp [hword hfront]
      · exact hquote
      · exact fun h _ => hc h
      · exact fun _ _ h _ => hc h

/-- Only a mark that goes on with an equals sign is longer than another one, and no equals sign comes
where the text does not have it. -/
theorem isLocal_readMark? : IsLocal readMark? := by
  intro cs t rest h
  revert h
  fun_cases readMark? cs
  case case24 => simp
  all_goals
    intro h
    obtain ⟨rfl, rfl⟩ := Prod.mk.inj (Option.some.inj h)
  case case1 => exact ⟨[_, _, _, _, _], rfl, fun _ _ => rfl⟩
  case case2 => exact ⟨[_, _, _, _, _, _], rfl, fun _ _ => rfl⟩
  case case3 | case4 | case5 | case6 => exact ⟨[_, _], rfl, fun _ _ => rfl⟩
  case case7 | case8 | case14 =>
    refine ⟨[_], rfl, fun front hfront => ?_⟩
    have hequals := hfront.ne_cons (by decide) ‹∀ tail, _ = '=' :: tail → False›
    rw [List.singleton_append, readMark?]
    exact hequals
  all_goals exact ⟨[_], rfl, fun _ _ => rfl⟩

/-- If no mark stands at the start of a text, none stands at the start of what follows it. -/
theorem Follows.readMark?_eq_none {cs cs' : List Char} (h : Follows cs cs')
    (hcs : readMark? cs = none) : readMark? cs' = none := by
  revert hcs
  fun_cases readMark? cs
  case case24 =>
    intro _
    fun_cases readMark? cs'
    case case24 => rfl
    all_goals
      repeat
        replace h := h.exists_cons (by decide)
        obtain ⟨_, rfl, h⟩ := h
      exfalso
      solve_by_elim
  all_goals simp

/-- A text between quotes, a number or a name. -/
theorem isLocal_readRun? {c : Char} (hc : isSpaceOrTab c = false) : IsLocal (readRun? c) := by
  by_cases hquote : c = '"'
  · refine (isLocal_unescapeLiteral?.map fun text => .str (String.ofList text)).congr fun cs => ?_
    rw [readRun?, if_pos hquote]
  by_cases hdigit : c.isDigit = true
  · intro cs t rest h
    simp only [readRun?, hquote, hc, hdigit, if_false, if_true, Bool.false_eq_true] at h
    obtain ⟨⟨x, rest⟩, hread, heq⟩ := Option.map_eq_some_iff.mp h
    obtain ⟨rfl, rfl⟩ := Prod.mk.inj heq
    obtain ⟨word, hword, hlocal⟩ := isLocal_readNumber? hread
    -- A number takes at least its first digit.
    cases word with
    | nil =>
        have hlt := length_lt_of_readNumber? hread
        rw [hword] at hlt
        exact absurd hlt (lt_irrefl _)
    | cons d word =>
        obtain ⟨rfl, rfl⟩ := List.cons.inj hword
        refine ⟨word, rfl, fun front hfront => ?_⟩
        have hread' := hlocal hfront
        rw [List.cons_append] at hread'
        simp only [readRun?, hquote, hc, hdigit, if_false, if_true, Bool.false_eq_true, hread',
          Option.map_some]
  by_cases hname : startsName c = true
  · refine ((isLocal_span (p := continuesName) (by decide +kernel)).map fun tail =>
      ofName (String.ofList (c :: tail))).congr fun cs => ?_
    simp only [readRun?, hquote, hc, hdigit, hname, if_false, if_true, Bool.false_eq_true,
      Option.map_some]
  · intro cs t rest h
    simp only [readRun?, hquote, hc, hdigit, hname, if_false, Bool.false_eq_true] at h
    exact absurd h (by simp)

/-! ### Tokens -/

variable {cs rest : List Char} {t : Token}

theorem next?_of_readMark? {r : Token × List Char} (h : readMark? cs = some r) : next? cs = some r := by
  cases cs with
  | nil => exact absurd h (by simp [readMark?])
  | cons c cs => simp only [next?, h]

/-- No reader but that of blanks gives blanks. -/
theorem isBlank_of_readMark? (h : readMark? cs = some (t, rest)) : t.isBlank = false := by
  revert h
  fun_cases readMark? cs
  case case24 => simp
  all_goals
    intro h
    obtain ⟨rfl, -⟩ := Prod.mk.inj (Option.some.inj h)
    rfl

theorem isBlank_of_readRun? {c : Char} (hc : isSpaceOrTab c = false)
    (h : readRun? c cs = some (t, rest)) : t.isBlank = false := by
  unfold readRun? at h
  split at h
  · obtain ⟨_, -, heq⟩ := Option.map_eq_some_iff.mp h
    rw [← (Prod.mk.inj heq).1]
    rfl
  split at h
  · simp_all
  split at h
  · obtain ⟨_, -, heq⟩ := Option.map_eq_some_iff.mp h
    rw [← (Prod.mk.inj heq).1]
    rfl
  split at h
  · rw [← (Prod.mk.inj (Option.some.inj h)).1]
    exact isBlank_ofName _
  · exact absurd h (by simp)

/-- Blanks are read where a blank stands, and nowhere else. -/
theorem isBlank_of_next? {c : Char} (h : next? (c :: cs) = some (t, rest)) :
    t.isBlank = isSpaceOrTab c := by
  cases hc : isSpaceOrTab c with
  | true =>
      rw [next?_of_isSpaceOrTab hc] at h
      rw [← (Prod.mk.inj (Option.some.inj h)).1]
      rfl
  | false =>
      cases hmark : readMark? (c :: cs) with
      | some r =>
          obtain rfl := Option.some.inj ((next?_of_readMark? hmark).symm.trans h)
          exact isBlank_of_readMark? hmark
      | none =>
          simp only [next?, hmark] at h
          exact isBlank_of_readRun? hc h

/-- Blanks are read from a run of blanks. -/
theorem exists_blanks_of_next? (h : next? cs = some (t, rest)) (ht : t.isBlank = true) :
    ∃ word, cs = word ++ rest ∧ word ≠ [] ∧ (∀ c ∈ word, isSpaceOrTab c = true) ∧ NoSpace rest := by
  cases cs with
  | nil => exact absurd h (by simp [next?])
  | cons c cs =>
      have hc : isSpaceOrTab c = true := (isBlank_of_next? h).symm.trans ht
      rw [next?_of_isSpaceOrTab hc] at h
      obtain ⟨-, rfl⟩ := Prod.mk.inj (Option.some.inj h)
      refine ⟨c :: cs.takeWhile isSpaceOrTab, ?_, List.cons_ne_nil _ _, ?_, dropWhile_stops _ _⟩
      · rw [List.cons_append, List.takeWhile_append_dropWhile]
      · exact List.forall_mem_cons.mpr ⟨hc, List.all_eq_true.mp List.all_takeWhile⟩

/-- **A token other than blanks is read in front of anything that follows the text.** -/
theorem next?_of_follows (h : next? cs = some (t, rest)) (ht : t.isBlank = false) :
    ∃ word, cs = word ++ rest ∧
      ∀ ⦃front⦄, Follows rest front → next? (word ++ front) = some (t, front) := by
  cases cs with
  | nil => exact absurd h (by simp [next?])
  | cons c cs =>
      cases hmark : readMark? (c :: cs) with
      | some r =>
          obtain rfl := Option.some.inj ((next?_of_readMark? hmark).symm.trans h)
          obtain ⟨word, hcs, hword⟩ := isLocal_readMark? hmark
          exact ⟨word, hcs, fun front hfront => next?_of_readMark? (hword hfront)⟩
      | none =>
          have hc : isSpaceOrTab c = false := (isBlank_of_next? h).symm.trans ht
          simp only [next?, hmark] at h
          obtain ⟨word, rfl, hword⟩ := isLocal_readRun? hc h
          refine ⟨c :: word, rfl, fun front hfront => ?_⟩
          have hmark' := (hfront.append (c :: word)).readMark?_eq_none hmark
          rw [List.cons_append] at hmark' ⊢
          simp only [next?, hmark', hword hfront]

/-- **A token is read in front of any part of what is left.** -/
theorem next?_of_isPrefix (h : next? cs = some (t, rest)) :
    ∃ word, cs = word ++ rest ∧
      ∀ ⦃front⦄, front <+: rest → next? (word ++ front) = some (t, front) := by
  cases ht : t.isBlank with
  | false =>
      obtain ⟨word, hcs, hword⟩ := next?_of_follows h ht
      exact ⟨word, hcs, fun front hfront => hword (.of_isPrefix hfront)⟩
  | true =>
      obtain ⟨word, rfl, hne, hword, hrest⟩ := exists_blanks_of_next? h ht
      refine ⟨word, rfl, fun front hfront => ?_⟩
      rw [next?_blanks hne hword hrest] at h
      obtain ⟨rfl, -⟩ := Prod.mk.inj (Option.some.inj h)
      refine next?_blanks hne hword fun c hc => ?_
      obtain ⟨back, rfl⟩ := hfront
      exact hrest c (by simp [Option.mem_def.mp hc])

end Token

end ErrorAnalysis
