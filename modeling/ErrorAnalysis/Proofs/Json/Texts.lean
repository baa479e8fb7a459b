import Mathlib.Tactic
import ErrorAnalysis.Json.Reader
import ErrorAnalysis.Json.Writer

/-!
# Reading back Texts

A quoted text is read back whatever follows its closing quote. Inside the quotes each character stands
for itself or is escaped, and is read back by itself, so that the text is read back character by
character; no character is half a surrogate pair.

## Main results

* `Json.readString?_quote`: **every text is read back from its quoted form.**
-/

namespace ErrorAnalysis

namespace Json

/-- A control character is escaped by two hexadecimal digits that are read back. -/
theorem controlEscape_eq {c : Char} (h : c.toNat < 0x20) :
    ∃ high low, controlEscape c = ['\\', 'u', '0', '0', high, low] ∧
      hexUnit? '0' '0' high low = some c.toNat := by
  have hall : ∀ n < 0x20,
      List.replicate (4 - (Nat.toDigits 16 n).length) '0' ++ Nat.toDigits 16 n =
        ['0', '0', Nat.digitChar (n / 16), Nat.digitChar (n % 16)] ∧
      hexUnit? '0' '0' (Nat.digitChar (n / 16)) (Nat.digitChar (n % 16)) = some n := by
    decide +kernel
  obtain ⟨hdigits, hunit⟩ := hall c.toNat h
  refine ⟨_, _, ?_, hunit⟩
  rw [controlEscape, List.append_assoc, hdigits]
  rfl

/-- A character that stands for itself is read as itself. -/
theorem readUnits?_cons {c : Char} (hquote : c ≠ '"') (hslash : c ≠ '\\') (hcontrol : ¬ c.toNat < 0x20)
    (rest : List Char) :
    readUnits? (c :: rest) = (readUnits? rest).map fun p => (c.toNat :: p.1, p.2) := by
  rw [readUnits?, if_neg hcontrol]
  · cases readUnits? rest <;> rfl
  · exact hquote
  · exact fun _ _ _ _ _ h => absurd h hslash
  · exact fun h => absurd h hslash
  · exact fun _ _ h => absurd h hslash

/-- An escape of one letter is read as the character that it stands for. -/
theorem readUnits?_escape {letter c : Char} (h : escape? letter = some c) (hletter : letter ≠ 'u')
    (rest : List Char) :
    readUnits? ('\\' :: letter :: rest) =
      (readUnits? rest).map fun p => (c.toNat :: p.1, p.2) := by
  rw [readUnits?, h]
  · cases readUnits? rest <;> rfl
  · exact fun _ _ _ _ _ hu => absurd hu hletter

/-- Each character is read back from its form inside a string. -/
theorem readUnits?_quoteChar (c : Char) (rest : List Char) :
    readUnits? (quoteChar c ++ rest) =
      (readUnits? rest).map fun p => (c.toNat :: p.1, p.2) := by
  unfold quoteChar
  split_ifs with hquote hslash hback hfeed hline hreturn htab hcontrol
  · subst hquote
    exact readUnits?_escape rfl (by decide) rest
  · subst hslash
    exact readUnits?_escape rfl (by decide) rest
  · subst hback
    exact readUnits?_escape rfl (by decide) rest
  · subst hfeed
    exact readUnits?_escape rfl (by decide) rest
  · subst hline
    exact readUnits?_escape rfl (by decide) rest
  · subst hreturn
    exact readUnits?_escape rfl (by decide) rest
  · subst htab
    exact readUnits?_escape rfl (by decide) rest
  · obtain ⟨high, low, hescape, hunit⟩ := controlEscape_eq hcontrol
    rw [hescape, List.cons_append, List.cons_append, List.cons_append, List.cons_append,
      List.cons_append, List.cons_append, List.nil_append, readUnits?, hunit]
    cases readUnits? rest <;> rfl
  · exact readUnits?_cons hquote hslash hcontrol rest

theorem readUnits?_quoted (cs rest : List Char) :
    readUnits? (cs.flatMap quoteChar ++ '"' :: rest) = some (cs.map Char.toNat, rest) := by
  induction cs with
  | nil => rfl
  | cons c cs ih =>
      rw [List.flatMap_cons, List.append_assoc, readUnits?_quoteChar, ih]
      rfl

/-- A character is no half of a surrogate pair. -/
theorem joinPairs?_toNat (cs : List Char) : joinPairs? (cs.map Char.toNat) = some cs := by
  induction cs with
  | nil => rfl
  | cons c cs ih =>
      have hvalid : c.toNat < 0xD800 ∨ 0xDFFF < c.toNat ∧ c.toNat < 0x110000 := c.valid
      have hlow : isLowSurrogate c.toNat = false := by
        rw [isLowSurrogate, decide_eq_false_iff_not]
        omega
      have hhigh : isHighSurrogate c.toNat = false := by
        rw [isHighSurrogate, decide_eq_false_iff_not]
        omega
      rw [List.map_cons, joinPairs?.eq_def]
      simp only [hlow, hhigh, ih, Char.ofNat_toNat, Bool.false_eq_true, if_false, Option.map_some]

/-- **Every text is read back from its quoted form.** -/
theorem readString?_quote (s : String) (rest : List Char) :
    readString? (s.toList.flatMap quoteChar ++ '"' :: rest) = some (some s, rest) := by
  rw [readString?, readUnits?_quoted, Option.bind_eq_bind, Option.bind_some]
  dsimp only
  rw [joinPairs?_toNat, Option.map_some, String.ofList_toList]
  rfl

end Json

end ErrorAnalysis
