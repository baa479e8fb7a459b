import Mathlib.Tactic
import ErrorAnalysis.Command
import ErrorAnalysis.Token.Lexer

/-!
# Characters of Names

The classes of characters are tables of boundaries. This module reads off them what the layout of
a command relies on: no character of a name is blank, a digit, or one of the marks that commands
give a meaning to.

## Main results

* `CharClass.contains_cons_cons`: membership goes through the boundaries two by two.
* `continuesName_eq_false_of_isBlank`: no character of a name is blank.
* `startsName_eq_false_of_isDigit`: no digit starts a name.
-/

namespace ErrorAnalysis

/-- What holds of every character of a text is decided along the text, and not over all of
Unicode. -/
instance decidableForallMemChars (p : Char → Prop) [DecidablePred p] (cs : List Char) :
    Decidable (∀ c ∈ cs, p c) :=
  List.decidableBAll p cs

/-! ### Classes by their boundaries -/

@[simp] theorem CharClass.contains_nil (c : Char) : (CharClass.mk []).contains c = false := rfl

/-- Between its first two boundaries a class holds a character, and from the second on it goes by
the boundaries that are left. -/
theorem CharClass.contains_cons_cons {a b : ℕ} (bs : List ℕ) (c : Char) (hab : a ≤ b) :
    (CharClass.mk (a :: b :: bs)).contains c = true ↔
      (a ≤ c.toNat ∧ c.toNat < b) ∨ (b ≤ c.toNat ∧ (CharClass.mk bs).contains c = true) := by
  simp only [contains]
  by_cases hb : b ≤ c.toNat
  · have ha : a ≤ c.toNat := le_trans hab hb
    simp [ha, hb]
    omega
  · by_cases ha : a ≤ c.toNat
    · simp [ha, hb]
      omega
    · simp [ha, hb]

/-! ### Blanks -/

/-- The code points of blank characters. -/
def blankCodes : List ℕ :=
  [0x9, 0xA, 0xB, 0xC, 0xD, 0x20, 0x85, 0xA0, 0x1680, 0x2000, 0x2001, 0x2002, 0x2003, 0x2004,
    0x2005, 0x2006, 0x2007, 0x2008, 0x2009, 0x200A, 0x2028, 0x2029, 0x202F, 0x205F, 0x3000]

/-- There are twenty-five blank characters. -/
theorem toNat_mem_blankCodes {c : Char} (h : isBlank c = true) : c.toNat ∈ blankCodes := by
  rw [isBlank, blankClass] at h
  simp (disch := decide) only [CharClass.contains_cons_cons, CharClass.contains_nil,
    Bool.false_eq_true, and_false, or_false] at h
  simp only [blankCodes, List.mem_cons, List.not_mem_nil, or_false]
  omega

namespace Token

/-- No character of a name is blank. -/
theorem continuesName_eq_false_of_isBlank {c : Char} (h : ErrorAnalysis.isBlank c = true) :
    continuesName c = false := by
  have key : ∀ n ∈ blankCodes, continuesName (Char.ofNat n) = false := by decide +kernel
  rw [← Char.ofNat_toNat c]
  exact key _ (toNat_mem_blankCodes h)

/-- A character of a name is not blank. -/
theorem isBlank_eq_false_of_continuesName {c : Char} (h : continuesName c = true) :
    ErrorAnalysis.isBlank c = false := by
  cases hb : ErrorAnalysis.isBlank c with
  | false => rfl
  | true => rw [continuesName_eq_false_of_isBlank hb] at h; exact absurd h (by simp)

/-! ### Names -/

/-- A character that starts a name can continue one. -/
theorem continuesName_of_startsName {c : Char} (h : startsName c = true) :
    continuesName c = true := by
  simp only [startsName, isAlphabetic, Bool.or_eq_true] at h
  simp only [continuesName, isAlphanumeric, Bool.or_eq_true]
  rcases h with h | h
  · left
    split
    · next hlt =>
      rw [if_pos hlt] at h
      simp [Char.isAlphanum, h]
    · next hge =>
      rw [if_neg hge] at h
      simp [h]
  · exact .inr h

/-- What holds of the characters with the code points of digits holds of every digit. -/
theorem of_isDigit {p : Char → Prop} (h : ∀ n ∈ List.range' 48 10, p (Char.ofNat n)) {c : Char}
    (hc : c.isDigit = true) : p c := by
  simp only [Char.isDigit, ge_iff_le, Bool.and_eq_true, decide_eq_true_eq] at hc
  have h1 : (48 : ℕ) ≤ c.toNat := hc.1
  have h2 : c.toNat ≤ 57 := hc.2
  rw [← Char.ofNat_toNat c]
  exact h _ (List.mem_range'_1.mpr ⟨h1, by omega⟩)

/-- No digit starts a name. -/
theorem startsName_eq_false_of_isDigit {c : Char} (h : c.isDigit = true) :
    startsName c = false :=
  of_isDigit (p := fun c => startsName c = false) (by decide +kernel) h

/-- A character of a name is none of the marks, quotes and line breaks of commands. -/
theorem ne_of_continuesName {c : Char} (h : continuesName c = true) (d : Char)
    (hd : continuesName d = false) : c ≠ d := by
  rintro rfl
  rw [h] at hd
  exact absurd hd (by simp)

end Token

end ErrorAnalysis
