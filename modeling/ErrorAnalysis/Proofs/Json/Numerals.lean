import ErrorAnalysis.Json.Reader
import ErrorAnalysis.Json.Writer
import ErrorAnalysis.Proofs.Lexing.Numeral

/-!
# Reading back Numbers

The reader of numbers takes a number off the front of a text. What it takes does not depend on what
follows, unless a number could go on into it. So an integer of 64 bits is read back in front of
anything that ends a number, and so is any other number that is read back from its text alone.

## Main definitions

* `Json.EndsNumber`: what a number does not go on into.
* `Json.readUnsigned?`: a number behind its sign.

## Main results

* `Json.readNumber?_append`: **what a number is read as does not depend on what follows it.**
* `Json.readNumber?_integerText`: **every integer of 64 bits is read back.**
* `Json.readNumber?_floatText`: a number that is read back from its text is read back in front of
  anything that ends a number.
-/

namespace ErrorAnalysis

namespace Json

open Number (splitDigits splitSign)

/-! ### What may follow a number -/

/-- A text that no number goes on into. -/
def EndsNumber (rest : List Char) : Prop :=
  ∀ c ∈ rest.head?, c.isDigit = false ∧ c ≠ '.' ∧ c ≠ 'e' ∧ c ≠ 'E'

theorem endsNumber_nil : EndsNumber [] := by
  simp [EndsNumber]

theorem endsNumber_cons {c : Char} (rest : List Char)
    (h : c.isDigit = false ∧ c ≠ '.' ∧ c ≠ 'e' ∧ c ≠ 'E') : EndsNumber (c :: rest) := by
  simpa [EndsNumber] using h

theorem isDigit_eq_false_of_isSpace {c : Char} (h : isSpace c = true) : c.isDigit = false := by
  simp only [isSpace, Bool.or_eq_true, beq_iff_eq] at h
  rcases h with ((rfl | rfl) | rfl) | rfl <;> rfl

theorem isSpace_eq_false_of_isDigit {c : Char} (h : c.isDigit = true) : isSpace c = false := by
  by_contra hspace
  rw [isDigit_eq_false_of_isSpace (Bool.not_eq_false _ ▸ hspace)] at h
  cases h

/-- A number does not go on into blanks. -/
theorem EndsNumber.append {spaces rest : List Char} (h : EndsNumber rest)
    (hspaces : ∀ c ∈ spaces, isSpace c = true) : EndsNumber (spaces ++ rest) := by
  cases spaces with
  | nil => exact h
  | cons c spaces =>
      have hc := hspaces c List.mem_cons_self
      refine endsNumber_cons _ ⟨isDigit_eq_false_of_isSpace hc, ?_, ?_, ?_⟩ <;>
        (rintro rfl; exact absurd hc (by decide))

variable {cs cs' rest : List Char} {j : Json} {negative : Bool} {x : Number} {i : ℤ}

/-! ### The parts of a number -/

theorem splitDigits_append_right (h : ∀ c ∈ rest.head?, c.isDigit = false) (cs : List Char) :
    splitDigits (cs ++ rest) = ((splitDigits cs).1, (splitDigits cs).2 ++ rest) := by
  induction cs with
  | nil => exact Token.splitDigits_append (fun c hc => absurd hc List.not_mem_nil) h
  | cons c cs ih =>
      by_cases hc : c.isDigit = true
      · simp only [splitDigits, Prod.mk.injEq] at ih
        simp [splitDigits, hc, ih]
      · simp [splitDigits, hc]

theorem splitSign_append (h : cs ≠ []) :
    splitSign (cs ++ rest) = ((splitSign cs).1, (splitSign cs).2 ++ rest) := by
  cases cs with
  | nil => exact absurd rfl h
  | cons c cs =>
      rw [List.cons_append]
      unfold splitSign
      split <;> split <;> simp_all

theorem readFraction?_of_head (h : ∀ c ∈ cs.head?, c ≠ '.') : readFraction? cs = some (none, cs) := by
  cases cs with
  | nil => rfl
  | cons c cs =>
      rw [readFraction?]
      rintro rest ⟨⟩
      exact h '.' rfl rfl

theorem readExponent?_of_head (h : ∀ c ∈ cs.head?, c ≠ 'e' ∧ c ≠ 'E') :
    readExponent? cs = some (none, cs) := by
  cases cs with
  | nil => rfl
  | cons c cs => rw [readExponent?, if_neg (not_or.mpr (h c rfl))]

theorem readFraction?_append {fraction : Option (List Char)}
    (h : readFraction? cs = some (fraction, cs')) (hrest : EndsNumber rest) :
    readFraction? (cs ++ rest) = some (fraction, cs' ++ rest) := by
  by_cases hpoint : ∃ tail, cs = '.' :: tail
  · obtain ⟨tail, rfl⟩ := hpoint
    rw [List.cons_append, readFraction?, splitDigits_append_right fun c hc => (hrest c hc).1]
    rw [readFraction?] at h
    split at h
    · cases h
    · next digits cs' hne hsplit =>
        cases h
        rw [hsplit]
        simp only
  · have hhead : ∀ c ∈ (cs ++ rest).head?, c ≠ '.' := by
      cases cs with
      | nil => exact fun c hc => (hrest c hc).2.1
      | cons c cs =>
          rintro _ ⟨⟩ rfl
          exact hpoint ⟨cs, rfl⟩
    rw [readFraction?_of_head] at h
    · cases h
      exact readFraction?_of_head hhead
    · cases cs with
      | nil => simp
      | cons c cs => exact hhead

theorem readExponent?_append {exponent : Option ℤ}
    (h : readExponent? cs = some (exponent, cs')) (hrest : EndsNumber rest) :
    readExponent? (cs ++ rest) = some (exponent, cs' ++ rest) := by
  cases cs with
  | nil =>
      cases h
      exact readExponent?_of_head fun c hc => (hrest c hc).2.2
  | cons c cs =>
      rw [List.cons_append]
      rw [readExponent?] at h ⊢
      split at h
      · next he =>
        have hne : cs ≠ [] := by
          rintro rfl
          cases h
        rw [if_pos he, splitSign_append hne]
        simp only [splitDigits_append_right fun c hc => (hrest c hc).1] at h ⊢
        split at h
        · cases h
        · next digits cs' hnil hsplit =>
          cases h
          rw [hsplit]
          simp only
      · next he =>
        cases h
        rw [if_neg he]
        rfl

theorem suffix_of_readFraction? {fraction : Option (List Char)}
    (h : readFraction? cs = some (fraction, cs')) : cs' <:+ cs := by
  rw [readFraction?.eq_def] at h
  split at h
  · next tail =>
    split at h
    · cases h
    · next hsplit =>
      cases h
      have hdrop : tail.dropWhile Char.isDigit = cs' := congrArg Prod.snd hsplit
      exact hdrop ▸ (List.dropWhile_suffix _).trans (List.suffix_cons _ _)
  · cases h
    exact List.suffix_rfl

theorem splitSign_suffix (cs : List Char) : (splitSign cs).2 <:+ cs := by
  unfold splitSign
  split
  · exact List.suffix_cons _ _
  · exact List.suffix_cons _ _
  · exact List.suffix_rfl

theorem suffix_of_readExponent? {exponent : Option ℤ}
    (h : readExponent? cs = some (exponent, cs')) : cs' <:+ cs := by
  cases cs with
  | nil =>
      cases h
      exact List.suffix_rfl
  | cons c tail =>
      rw [readExponent?] at h
      split at h
      · simp only at h
        split at h
        · cases h
        · next hsplit =>
          cases h
          have hdrop : (splitSign tail).2.dropWhile Char.isDigit = cs' := congrArg Prod.snd hsplit
          exact hdrop ▸ ((List.dropWhile_suffix _).trans (splitSign_suffix tail)).trans
            (List.suffix_cons _ _)
      · cases h
        exact List.suffix_rfl

/-! ### Numbers -/

/-- Digits that may stand in front of a point: at least one, and a leading zero stands alone. -/
def IsWhole (digits : List Char) : Prop :=
  digits ≠ [] ∧ ∀ c cs, digits ≠ '0' :: c :: cs

/-- A number behind its sign, and what follows it. -/
def readUnsigned? (negative : Bool) (cs : List Char) : Option (Json × List Char) :=
  let (whole, rest) := splitDigits cs
  match whole with
  | [] => none
  | '0' :: _ :: _ => none
  | _ => do
    let (fraction, rest) ← readFraction? rest
    let (exponent, rest) ← readExponent? rest
    pure (Literal.value ⟨negative, whole, fraction, exponent⟩, rest)

theorem readNumber?_minus (cs : List Char) : readNumber? ('-' :: cs) = readUnsigned? true cs := rfl

theorem readNumber?_of_head (h : ∀ c ∈ cs.head?, c ≠ '-') :
    readNumber? cs = readUnsigned? false cs := by
  rw [readNumber?.eq_def]
  split
  · next heq =>
    split at heq
    · exact absurd rfl (h '-' rfl)
    · obtain ⟨rfl, rfl⟩ := Prod.mk.inj heq
      rfl

/-- The parts that a number is read from. -/
theorem readUnsigned?_eq_some_iff :
    readUnsigned? negative cs = some (j, cs') ↔
      IsWhole (splitDigits cs).1 ∧ ∃ fraction tail exponent,
        readFraction? (splitDigits cs).2 = some (fraction, tail) ∧
        readExponent? tail = some (exponent, cs') ∧
        j = Literal.value ⟨negative, (splitDigits cs).1, fraction, exponent⟩ := by
  rw [readUnsigned?]
  generalize splitDigits cs = parts
  obtain ⟨whole, rest⟩ := parts
  dsimp only
  split
  · simp [IsWhole]
  · simp [IsWhole]
  · next hnil hzero =>
    rw [and_iff_right (a := IsWhole whole) ⟨hnil, fun c cs h => hzero c cs h⟩]
    simp only [Option.bind_eq_bind, Option.bind_eq_some_iff, Prod.exists, Option.pure_def,
      Option.some.injEq, Prod.mk.injEq]
    grind

/-- What is read behind a sign does not depend on what follows. -/
theorem readUnsigned?_append (h : readUnsigned? negative cs = some (j, cs'))
    (hrest : EndsNumber rest) : readUnsigned? negative (cs ++ rest) = some (j, cs' ++ rest) := by
  obtain ⟨hwhole, fraction, tail, exponent, hfraction, hexponent, rfl⟩ :=
    readUnsigned?_eq_some_iff.mp h
  have hsplit := splitDigits_append_right (fun c hc => (hrest c hc).1) cs
  refine readUnsigned?_eq_some_iff.mpr ?_
  rw [hsplit]
  exact ⟨hwhole, fraction, tail ++ rest, exponent, readFraction?_append hfraction hrest,
    readExponent?_append hexponent hrest, rfl⟩

/-- **What a number is read as does not depend on what follows it.** -/
theorem readNumber?_append (h : readNumber? cs = some (j, cs')) (hrest : EndsNumber rest) :
    readNumber? (cs ++ rest) = some (j, cs' ++ rest) := by
  cases cs with
  | nil => cases h
  | cons c cs =>
      by_cases hc : c = '-'
      · subst hc
        rw [readNumber?_minus] at h
        rw [List.cons_append, readNumber?_minus]
        exact readUnsigned?_append h hrest
      · have hhead (tail : List Char) : readNumber? (c :: tail) = readUnsigned? false (c :: tail) :=
          readNumber?_of_head (by simpa using hc)
        rw [hhead] at h
        rw [List.cons_append, hhead]
        exact readUnsigned?_append h hrest

theorem suffix_of_readUnsigned? (h : readUnsigned? negative cs = some (j, cs')) : cs' <:+ cs := by
  obtain ⟨-, fraction, tail, exponent, hfraction, hexponent, -⟩ := readUnsigned?_eq_some_iff.mp h
  exact ((suffix_of_readExponent? hexponent).trans (suffix_of_readFraction? hfraction)).trans
    (List.dropWhile_suffix _)

/-- What follows a number is the end of the text that it was read from. -/
theorem suffix_of_readNumber? (h : readNumber? cs = some (j, cs')) : cs' <:+ cs := by
  by_cases hminus : ∃ tail, cs = '-' :: tail
  · obtain ⟨tail, rfl⟩ := hminus
    rw [readNumber?_minus] at h
    exact (suffix_of_readUnsigned? h).trans (List.suffix_cons _ _)
  · refine suffix_of_readUnsigned? ((readNumber?_of_head fun c hc => ?_).symm.trans h)
    rintro rfl
    obtain ⟨tail, rfl⟩ := List.head?_eq_some_iff.mp hc
    exact hminus ⟨tail, rfl⟩

/-! ### Integers -/

theorem le_foldl_digits (ds : List Char) (n : ℕ) :
    n ≤ ds.foldl (fun n c => 10 * n + (c.toNat - '0'.toNat)) n := by
  induction ds generalizing n with
  | nil => exact le_rfl
  | cons c ds ih =>
      have hnext : n ≤ 10 * n + (c.toNat - '0'.toNat) := by omega
      exact hnext.trans (ih _)

/-- Digits are all taken if the number that they denote fits into 64 bits. -/
theorem takeDigits_eq {ds : List Char} {n : ℕ}
    (h : ds.foldl (fun n c => 10 * n + (c.toNat - '0'.toNat)) n ≤ maxNat64) :
    takeDigits n ds = (ds.foldl (fun n c => 10 * n + (c.toNat - '0'.toNat)) n, 0) := by
  induction ds generalizing n with
  | nil => rfl
  | cons c ds ih =>
      rw [List.foldl_cons] at h ⊢
      have hnext : pushDigit? n c = some (10 * n + (c.toNat - '0'.toNat)) := by
        unfold pushDigit?
        exact if_pos ((le_foldl_digits ds _).trans h)
      rw [takeDigits, hnext]
      exact ih h

/-- The digits of a number have no leading zero. -/
theorem isWhole_digitsOf (n : ℕ) : IsWhole (digitsOf n) := by
  refine ⟨Nat.toDigits_ne_nil, ?_⟩
  induction n using Nat.strong_induction_on with
  | _ n ih =>
    intro c cs h
    rcases Nat.lt_or_ge n 10 with hlt | hge
    · rw [digitsOf, Nat.toDigits_of_lt_base hlt] at h
      exact absurd (List.cons.inj h).2 (List.cons_ne_nil _ _).symm
    · rw [digitsOf, Nat.toDigits_of_base_le (by decide) hge] at h
      -- In front of its last digit a number of several digits has those of a tenth of it.
      have hne : Nat.toDigits 10 (n / 10) ≠ [] := Nat.toDigits_ne_nil
      obtain ⟨d, ds, hds⟩ := List.exists_cons_of_ne_nil hne
      rw [hds, List.cons_append] at h
      obtain ⟨rfl, -⟩ := List.cons.inj h
      cases ds with
      | cons d' ds => exact ih (n / 10) (by omega) d' ds hds
      | nil =>
          have hvalue : n / 10 = 0 := by
            rw [← Decimal.digitsValue_digitsOf (n / 10), digitsOf, hds]
            rfl
          omega

theorem significand_digitsOf {n : ℕ} (h : n ≤ maxNat64) : significand (digitsOf n) [] = (n, 0) := by
  have hvalue : (digitsOf n).foldl (fun n c => 10 * n + (c.toNat - '0'.toNat)) 0 = n :=
    Decimal.digitsValue_digitsOf n
  rw [significand, takeDigits_eq (hvalue.symm ▸ h), hvalue]
  rfl

theorem Fits.natAbs_le (h : Fits i) : i.natAbs ≤ maxNat64 := by
  obtain ⟨hlow, hhigh⟩ := h
  simp only [maxNat64, UInt64.size, Number.signBit] at *
  omega

/-- The digits of an integer and its sign denote the integer. -/
theorem value_digitsOf (h : Fits i) :
    Literal.value ⟨decide (i < 0), digitsOf i.natAbs, none, none⟩ = .int i := by
  have habs : (if decide (i < 0) = true then -(i.natAbs : ℤ) else i.natAbs) = i := by
    simp only [decide_eq_true_eq]
    split <;> omega
  have hzero : (decide (i < 0) && i.natAbs == 0) = false := by
    simp only [Bool.and_eq_false_iff, decide_eq_false_iff_not, beq_eq_false_iff_ne]
    omega
  simp only [Literal.value, Option.getD_none, significand_digitsOf h.natAbs_le, habs, hzero, h,
    Option.isNone_none, decide_true, Bool.and_self, beq_self_eq_true, Bool.not_false, if_true]

/-- **Every integer of 64 bits is read back.** -/
theorem readNumber?_integerText (h : Fits i) (hrest : EndsNumber rest) :
    readNumber? (integerText i ++ rest) = some (.int i, rest) := by
  have hread : readUnsigned? (decide (i < 0)) (digitsOf i.natAbs ++ rest) = some (.int i, rest) := by
    have hsplit : splitDigits (digitsOf i.natAbs ++ rest) = (digitsOf i.natAbs, rest) :=
      Token.splitDigits_append (fun _ => Decimal.isDigit_of_mem_digitsOf) fun c hc => (hrest c hc).1
    rw [readUnsigned?_eq_some_iff, hsplit]
    exact ⟨isWhole_digitsOf _, none, rest, none, readFraction?_of_head fun c hc => (hrest c hc).2.1,
      readExponent?_of_head fun c hc => (hrest c hc).2.2, (value_digitsOf h).symm⟩
  by_cases hneg : i < 0
  · rw [integerText, if_pos hneg, List.append_assoc, List.singleton_append, readNumber?_minus]
    rwa [decide_eq_true hneg] at hread
  · rw [integerText, if_neg hneg, List.nil_append, readNumber?_of_head]
    · rwa [decide_eq_false hneg] at hread
    · obtain ⟨d, ds, hds⟩ := List.exists_cons_of_ne_nil (isWhole_digitsOf i.natAbs).1
      rw [hds]
      rintro _ ⟨⟩ rfl
      have hdigit := Decimal.isDigit_of_mem_digitsOf (hds ▸ List.mem_cons_self)
      exact absurd hdigit (by decide)

/-! ### The texts of numbers -/

/-- A text that opens as a number does, and has no blanks. -/
structure IsNumberText (cs : List Char) : Prop where
  opens : ∃ c tail, cs = c :: tail ∧ (c.isDigit = true ∨ c = '-')
  isSpace_eq_false : ∀ c ∈ cs, isSpace c = false

/-- Digits make up the text of a number, with anything but blanks behind them. -/
theorem isNumberText_digits {digits tail : List Char} (hne : digits ≠ [])
    (hdigit : ∀ c ∈ digits, c.isDigit = true) (htail : ∀ c ∈ tail, isSpace c = false) :
    IsNumberText (digits ++ tail) where
  opens := by
    obtain ⟨d, ds, rfl⟩ := List.exists_cons_of_ne_nil hne
    exact ⟨d, ds ++ tail, rfl, .inl (hdigit d List.mem_cons_self)⟩
  isSpace_eq_false := by
    intro c hc
    rcases List.mem_append.mp hc with hc | hc
    · exact isSpace_eq_false_of_isDigit (hdigit c hc)
    · exact htail c hc

theorem IsNumberText.append {tail : List Char} (h : IsNumberText cs)
    (htail : ∀ c ∈ tail, isSpace c = false) : IsNumberText (cs ++ tail) where
  opens := by
    obtain ⟨c, cs, rfl, hc⟩ := h.opens
    exact ⟨c, cs ++ tail, rfl, hc⟩
  isSpace_eq_false := fun c hc => (List.mem_append.mp hc).elim (h.isSpace_eq_false c) (htail c)

/-- The text of a number stays one behind a minus. -/
theorem IsNumberText.signed (h : IsNumberText cs) (negative : Bool) :
    IsNumberText ((if negative then ['-'] else []) ++ cs) := by
  cases negative with
  | false => exact h
  | true => exact ⟨⟨'-', cs, rfl, .inr rfl⟩, List.forall_mem_cons.mpr ⟨rfl, h.isSpace_eq_false⟩⟩

theorem isNumberText_digitsOf (n : ℕ) : IsNumberText (digitsOf n) := by
  rw [← List.append_nil (digitsOf n)]
  exact isNumberText_digits Nat.toDigits_ne_nil (fun _ => Decimal.isDigit_of_mem_digitsOf) (by simp)

theorem isNumberText_integerText (i : ℤ) : IsNumberText (integerText i) := by
  have h := (isNumberText_digitsOf i.natAbs).signed (decide (i < 0))
  rw [integerText]
  simpa only [decide_eq_true_eq] using h

theorem isNumberText_positional (d : Decimal) : IsNumberText d.positional := by
  obtain ⟨whole, fraction, hspelled, hnumeral⟩ := Decimal.numeral_positional d
  have hfraction : ∀ c ∈ fraction, isSpace c = false := fun c hc =>
    isSpace_eq_false_of_isDigit (hnumeral.fraction_digit c hc)
  rw [hspelled, Decimal.spelled]
  split
  · rw [← List.append_nil whole]
    exact isNumberText_digits hnumeral.whole_ne hnumeral.whole_digit (by simp)
  · exact isNumberText_digits hnumeral.whole_ne hnumeral.whole_digit
      (List.forall_mem_cons.mpr ⟨rfl, hfraction⟩)

theorem isNumberText_scientific (d : Decimal) : IsNumberText d.scientific := by
  have hexponent : ∀ c ∈ 'e' :: (if d.leadingExponent < 0 then '-' else '+') ::
      digitsOf d.leadingExponent.natAbs, isSpace c = false := by
    refine List.forall_mem_cons.mpr ⟨rfl, List.forall_mem_cons.mpr ⟨?_, ?_⟩⟩
    · split <;> rfl
    · exact (isNumberText_digitsOf _).isSpace_eq_false
  rw [Decimal.scientific]
  refine IsNumberText.append ?_ hexponent
  have hdigits := isNumberText_digitsOf d.coefficient
  split
  · next hnil => exact absurd hnil Nat.toDigits_ne_nil
  · next hsingle => rwa [hsingle] at hdigits
  · next c c' cs heq =>
    rw [heq] at hdigits
    obtain ⟨hc, hcs⟩ := List.forall_mem_cons.mp hdigits.isSpace_eq_false
    have hdigit : c.isDigit = true :=
      Decimal.isDigit_of_mem_digitsOf (heq ▸ List.mem_cons_self)
    exact ⟨⟨c, _, rfl, .inl hdigit⟩,
      List.forall_mem_cons.mpr ⟨hc, List.forall_mem_cons.mpr ⟨rfl, hcs⟩⟩⟩

theorem isNumberText_renderMagnitude (style : Number.Style) (d : Number.Dyadic) :
    IsNumberText (Number.renderMagnitude style d) := by
  have hpoint : ∀ c ∈ if style.keepsPoint then ['.', '0'] else [], isSpace c = false := by
    cases style.keepsPoint <;> decide
  rw [Number.renderMagnitude]
  by_cases hzero : d.mantissa = 0
  · rw [if_pos hzero]
    exact isNumberText_digits (List.cons_ne_nil '0' []) (by simp) hpoint
  · rw [if_neg hzero]
    dsimp only
    split
    · refine (isNumberText_positional _).append ?_
      split
      · exact hpoint
      · simp
    · exact isNumberText_scientific _

/-- A finite number is written as a number. -/
theorem isNumberText_floatText (h : x.isFinite = true) : IsNumberText (floatText x) := by
  obtain ⟨d, hd⟩ : ∃ d, x.finite? = some d := by
    simp only [Number.finite?, h, if_true]
    split <;> exact ⟨_, rfl⟩
  rw [floatText, Number.render, hd]
  exact (isNumberText_renderMagnitude .json d).signed d.negative

/-- A text that opens as a number does is read as one. -/
theorem readValue?_number {fuel depth : ℕ} (h : IsNumberText cs) (rest : List Char) :
    readValue? (fuel + 1) depth (cs ++ rest) = readNumber? (cs ++ rest) := by
  obtain ⟨c, tail, rfl, hc⟩ := h.opens
  have hspace : isSpace c = false := h.isSpace_eq_false c List.mem_cons_self
  have hskip : skipSpaces (c :: (tail ++ rest)) = c :: (tail ++ rest) :=
    List.dropWhile_cons_of_neg (Bool.eq_false_iff.mp hspace)
  have hne {c' : Char} {cs : List Char} (heq : c :: (tail ++ rest) = c' :: cs)
      (hdigit : c'.isDigit = false) (hminus : c' ≠ '-') : False := by
    obtain ⟨rfl, -⟩ := List.cons.inj heq
    rcases hc with hc | rfl
    · rw [hdigit] at hc
      cases hc
    · exact hminus rfl
  rw [List.cons_append, readValue?, hskip]
  split
  all_goals first
    | rfl
    | next heq => exact (hne heq (by decide) (by decide)).elim

/-- **A number that is read back from its text is read back in front of anything that ends a number.** -/
theorem readNumber?_floatText (hfinite : x.isFinite = true)
    (hback : parse? (ofNumber x).compact = some (ofNumber x)) (hrest : EndsNumber rest) :
    readNumber? (floatText x ++ rest) = some (.float x, rest) := by
  have htext := isNumberText_floatText hfinite
  rw [ofNumber, if_pos hfinite, parse?, compact, String.toList_ofList, compactChars] at hback
  have hvalue : readValue? (2 * (floatText x).length + 2) maxDepth (floatText x ++ []) =
      readNumber? (floatText x ++ []) := readValue?_number htext []
  rw [List.append_nil] at hvalue
  simp only [Option.bind_eq_bind, hvalue, Option.bind_eq_some_iff, Prod.exists] at hback
  obtain ⟨j, cs', hread, hend⟩ := hback
  split at hend
  · next hempty =>
    cases hend
    cases cs' with
    | nil => exact readNumber?_append hread hrest
    | cons c cs' =>
        have hspace : isSpace c = false :=
          htext.isSpace_eq_false c ((suffix_of_readNumber? hread).subset List.mem_cons_self)
        rw [skipSpaces, List.dropWhile_cons_of_neg (Bool.eq_false_iff.mp hspace)] at hempty
        cases hempty
  · cases hend

end Json

end ErrorAnalysis
