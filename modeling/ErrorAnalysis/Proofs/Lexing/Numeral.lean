import ErrorAnalysis.Proofs.Lexing.Characters
import ErrorAnalysis.Proofs.Number.Shortest

/-!
# Reading Printed Numbers

The text of a finite number without a sign is a numeral: digits, and for a number that is not
integral a point and more digits. Reading takes the whole numeral, whatever it stands in front of
in a command, and gives the number back.

## Main results

* `Decimal.Numeral`: the positional notations of a decimal, with the digits that they are made of.
* `Decimal.numeral_positional`: positional notation is a numeral of the same value.
* `Token.readNumber?_text`: **numbers read back**, in front of anything that ends a word.
-/

namespace ErrorAnalysis

/-! ### What may follow a word -/

/-- The characters that stand right behind a name or a number in a printed command. -/
def wordEnds : List Char := [' ', ',', ')', ']', '(', '=']

/-- A text that no name and no number goes on into. -/
def EndsWord (rest : List Char) : Prop :=
  ∀ c ∈ rest.head?, c ∈ wordEnds

theorem endsWord_nil : EndsWord [] := by
  simp [EndsWord]

theorem endsWord_cons {c : Char} (rest : List Char) (h : c ∈ wordEnds) : EndsWord (c :: rest) := by
  simpa [EndsWord] using h

/-- A run of characters stops at the first one that is not of its kind. -/
theorem span_append {p : Char → Bool} {cs rest : List Char} (hcs : ∀ c ∈ cs, p c = true)
    (hrest : ∀ c ∈ rest.head?, p c = false) :
    (cs ++ rest).takeWhile p = cs ∧ (cs ++ rest).dropWhile p = rest := by
  have hstop : rest.takeWhile p = [] ∧ rest.dropWhile p = rest := by
    cases rest with
    | nil => exact ⟨rfl, rfl⟩
    | cons c rest =>
        have hc : p c = false := hrest c rfl
        exact ⟨List.takeWhile_cons_of_neg (by simp [hc]), List.dropWhile_cons_of_neg (by simp [hc])⟩
  rw [List.takeWhile_append_of_pos hcs, List.dropWhile_append_of_pos hcs, hstop.1, hstop.2]
  exact ⟨List.append_nil cs, rfl⟩

/-- A run of characters stops where the word ends. -/
theorem EndsWord.span {p : Char → Bool} {cs rest : List Char} (h : EndsWord rest)
    (hp : ∀ c ∈ wordEnds, p c = false) (hcs : ∀ c ∈ cs, p c = true) :
    (cs ++ rest).takeWhile p = cs ∧ (cs ++ rest).dropWhile p = rest :=
  span_append hcs fun c hc => hp c (h c hc)

/-- A text that ends a word does not start with a character that is no end of a word. -/
theorem EndsWord.ne_cons {c : Char} {rest tail : List Char} (h : EndsWord rest)
    (hc : c ∉ wordEnds) : rest ≠ c :: tail := by
  rintro rfl
  exact hc (h c rfl)

/-! ### Numerals -/

namespace Decimal

/-- The numeral `whole` or `whole.fraction` of a decimal. -/
structure Numeral (d : Decimal) (whole fraction : List Char) : Prop where
  whole_ne : whole ≠ []
  whole_digit : ∀ c ∈ whole, c.isDigit = true
  fraction_digit : ∀ c ∈ fraction, c.isDigit = true
  nearest_eq : Number.nearest ⟨digitsValue (whole ++ fraction), 0 - fraction.length⟩
    = Number.nearest d

theorem digitsValue_digitsOf (n : ℕ) : digitsValue (digitsOf n) = n :=
  Nat.ofDigitChars_ten_toDigits

theorem isDigit_of_mem_digitsOf {n : ℕ} {c : Char} (h : c ∈ digitsOf n) : c.isDigit = true :=
  Nat.isDigit_of_mem_toDigits (by decide) (by decide) h

theorem digitsValue_append_zeros (ds : List Char) (k : ℕ) :
    digitsValue (ds ++ List.replicate k '0') = digitsValue ds * 10 ^ k := by
  have h : Nat.ofDigitChars 10 (ds ++ List.replicate k '0') 0 = 10 ^ k * Nat.ofDigitChars 10 ds 0 := by
    rw [Nat.ofDigitChars_append, Nat.ofDigitChars_replicate_zero]
  exact h.trans (Nat.mul_comm ..)

theorem digitsValue_zeros_append (ds : List Char) (k : ℕ) :
    digitsValue (List.replicate k '0' ++ ds) = digitsValue ds := by
  have h : Nat.ofDigitChars 10 (List.replicate k '0' ++ ds) 0 = Nat.ofDigitChars 10 ds 0 := by
    rw [Nat.ofDigitChars_append, Nat.ofDigitChars_replicate_zero, Nat.mul_zero]
  exact h

/-- A numeral without a fraction, or with one behind a point. -/
def spelled (whole fraction : List Char) : List Char :=
  if fraction.isEmpty then whole else whole ++ '.' :: fraction

theorem isDigit_of_mem_zeros {k : ℕ} {c : Char} (h : c ∈ List.replicate k '0') :
    c.isDigit = true := by
  rw [List.eq_of_mem_replicate h]
  rfl

section Positional

variable {d : Decimal}

/-- Digits with zeros behind them. -/
theorem numeral_trailing (h : 0 ≤ d.exponent) :
    d.Numeral (digitsOf d.coefficient ++ List.replicate d.exponent.toNat '0') [] where
  whole_ne := List.append_ne_nil_of_left_ne_nil Nat.toDigits_ne_nil _
  whole_digit := by
    intro c hc
    rcases List.mem_append.mp hc with hc | hc
    · exact isDigit_of_mem_digitsOf hc
    · exact isDigit_of_mem_zeros hc
  fraction_digit := by simp
  nearest_eq := by
    rw [List.append_nil, digitsValue_append_zeros, digitsValue_digitsOf]
    have hneg : (-d.exponent).toNat = 0 := by omega
    simp only [Number.nearest, Nat.pow_eq, hneg, List.length_nil, Int.ofNat_zero, Int.sub_zero,
      Int.neg_zero, Int.toNat_zero, Nat.pow_zero, Nat.mul_one]

/-- Digits with a point between them. -/
theorem numeral_inside {places : ℕ} (h : d.exponent = -places)
    (hlt : places < (digitsOf d.coefficient).length) :
    d.Numeral ((digitsOf d.coefficient).take ((digitsOf d.coefficient).length - places))
      ((digitsOf d.coefficient).drop ((digitsOf d.coefficient).length - places)) where
  whole_ne := by
    intro hnil
    have := congrArg List.length hnil
    simp only [List.length_take, List.length_nil] at this
    omega
  whole_digit := fun _ hc => isDigit_of_mem_digitsOf (List.mem_of_mem_take hc)
  fraction_digit := fun _ hc => isDigit_of_mem_digitsOf (List.mem_of_mem_drop hc)
  nearest_eq := by
    rw [List.take_append_drop, digitsValue_digitsOf, List.length_drop]
    congr 2
    omega

/-- Digits behind a point, with zeros in front of them. -/
theorem numeral_leading {places : ℕ} (h : d.exponent = -places)
    (hge : (digitsOf d.coefficient).length ≤ places) :
    d.Numeral ['0'] (List.replicate (places - (digitsOf d.coefficient).length) '0' ++
      digitsOf d.coefficient) where
  whole_ne := List.cons_ne_nil _ _
  whole_digit := by simp
  fraction_digit := by
    intro c hc
    rcases List.mem_append.mp hc with hc | hc
    · exact isDigit_of_mem_zeros hc
    · exact isDigit_of_mem_digitsOf hc
  nearest_eq := by
    rw [← List.append_assoc, List.singleton_append, ← List.replicate_succ, digitsValue_zeros_append,
      digitsValue_digitsOf, List.length_append, List.length_replicate]
    congr 2
    omega

/-- **Positional notation is a numeral** of the same value. -/
theorem numeral_positional (d : Decimal) :
    ∃ whole fraction, d.positional = spelled whole fraction ∧ d.Numeral whole fraction := by
  have hne : digitsOf d.coefficient ≠ [] := Nat.toDigits_ne_nil
  simp only [positional]
  split
  · next hpos => exact ⟨_, _, by simp [spelled], numeral_trailing hpos⟩
  · next hneg =>
    obtain ⟨places, hplaces⟩ : ∃ n, n = (-d.exponent).toNat := ⟨_, rfl⟩
    have hexponent : d.exponent = -places := by omega
    rw [← hplaces]
    split
    · next hlt =>
      refine ⟨_, _, ?_, numeral_inside hexponent hlt⟩
      have hdrop : (digitsOf d.coefficient).drop ((digitsOf d.coefficient).length - places) ≠ [] := by
        intro hnil
        have := List.drop_eq_nil_iff.mp hnil
        omega
      simp [spelled, hdrop]
    · next hge =>
      refine ⟨_, _, ?_, numeral_leading hexponent (by omega)⟩
      simp [spelled, hne]

end Positional

/-- The text of a number that is neither negative nor infinite is a numeral that reads back. -/
theorem exists_numeral_text {x : Number} (hfin : x.isFinite = true) (hsign : x.isNegative = false) :
    ∃ whole fraction d, x.text.toList = spelled whole fraction ∧ Numeral d whole fraction ∧
      Number.nearest d = x := by
  obtain ⟨d, hd⟩ : ∃ d, x.finite? = some d := by
    simp only [Number.finite?, hfin, if_true]
    split <;> exact ⟨_, rfl⟩
  have hneg : d.negative = false := by
    simp only [Number.finite?, hfin, if_true, hsign] at hd
    split at hd <;> exact Option.some.inj hd ▸ rfl
  have htext : x.text.toList = Number.renderMagnitude .plain d := by
    simp [Number.text, Number.render, hd, hneg]
  rw [htext, Number.renderMagnitude]
  split
  · next hzero =>
    obtain ⟨p, hcanonical, -, hmag⟩ := Number.isCanonical_of_finite? hd
    have hx : x = ⟨0⟩ := by
      rcases hcanonical.leading_or with hlead | rfl
      · rw [hzero] at hlead
        exact absurd hlead (by decide)
      · rw [hzero, ← Number.bits_eq_magnitude hsign] at hmag
        exact congrArg Number.mk (UInt64.toNat_inj.mp (hmag.trans (by simp)))
    refine ⟨['0'], [], ⟨0, 0⟩, rfl, ⟨by simp, by simp, by simp, rfl⟩, ?_⟩
    rw [hx, Number.nearest_of_coefficient_eq_zero rfl]
  · next hm =>
    obtain ⟨whole, fraction, hspelled, hnumeral⟩ := numeral_positional (d.shortest .up)
    refine ⟨whole, fraction, d.shortest .up, ?_, hnumeral, Number.nearest_shortest .up hd hsign hm⟩
    simp [Number.Style.plain, hspelled]

end Decimal

/-! ### Reading -/

namespace Token

open Number (splitDigits)

theorem splitDigits_append {digits rest : List Char} (hd : ∀ c ∈ digits, c.isDigit = true)
    (h : ∀ c ∈ rest.head?, c.isDigit = false) : splitDigits (digits ++ rest) = (digits, rest) := by
  obtain ⟨htake, hdrop⟩ := span_append hd h
  rw [splitDigits, htake, hdrop]

theorem isDigit_eq_false_of_endsWord {rest : List Char} (h : EndsWord rest) :
    ∀ c ∈ rest.head?, c.isDigit = false := by
  have key : ∀ c ∈ wordEnds, c.isDigit = false := by decide
  exact fun c hc => key c (h c hc)

/-- What ends a word does not start with an exponent. -/
theorem readExponent_of_endsWord {rest : List Char} (h : EndsWord rest) :
    readExponent rest = (0, rest) := by
  cases rest with
  | nil => rfl
  | cons c rest =>
      have hc : c ∈ wordEnds := h c rfl
      have he : ¬(c = 'e' ∨ c = 'E') := by
        rintro (rfl | rfl)
        · exact absurd hc (by decide)
        · exact absurd hc (by decide)
      rw [readExponent, if_neg he]

/-- What ends a word does not start with a point. -/
theorem readFraction_of_endsWord {rest : List Char} (h : EndsWord rest) :
    readFraction rest = ([], rest) := by
  cases rest with
  | nil => rfl
  | cons c rest =>
      have hc : c ≠ '.' := by
        rintro rfl
        exact h.ne_cons (by decide) rfl
      rw [readFraction]
      rintro _ ⟨⟩
      exact hc rfl

/-- Reading takes a whole numeral. -/
theorem readNumber?_spelled {d : Decimal} {whole fraction rest : List Char}
    (hn : d.Numeral whole fraction) (h : EndsWord rest) :
    readNumber? (Decimal.spelled whole fraction ++ rest) = some (Number.nearest d, rest) := by
  have hwhole : whole.isEmpty = false := by simp [hn.whole_ne]
  obtain ⟨tail, htext, htail, hfraction⟩ : ∃ tail,
      Decimal.spelled whole fraction ++ rest = whole ++ tail ∧
        (∀ c ∈ tail.head?, c.isDigit = false) ∧ readFraction tail = (fraction, rest) := by
    rw [Decimal.spelled]
    split
    · next hnil =>
      obtain rfl := List.isEmpty_iff.mp hnil
      exact ⟨rest, rfl, isDigit_eq_false_of_endsWord h, readFraction_of_endsWord h⟩
    · refine ⟨'.' :: (fraction ++ rest), by simp, by simp, ?_⟩
      rw [readFraction, splitDigits_append hn.fraction_digit (isDigit_eq_false_of_endsWord h)]
  simp only [readNumber?, htext, splitDigits_append hn.whole_digit htail, hwhole, hfraction,
    readExponent_of_endsWord h, Number.ofDecimal_eq_nearest, hn.nearest_eq, Bool.false_eq_true,
    if_false]

/-- **Numbers read back**, in front of anything that ends a word. -/
theorem readNumber?_text {x : Number} {rest : List Char} (hfin : x.isFinite = true)
    (hsign : x.isNegative = false) (h : EndsWord rest) :
    readNumber? (x.text.toList ++ rest) = some (x, rest) := by
  obtain ⟨whole, fraction, d, htext, hnumeral, hnearest⟩ :=
    Decimal.exists_numeral_text hfin hsign
  rw [htext, readNumber?_spelled hnumeral h, hnearest]

end Token

end ErrorAnalysis
