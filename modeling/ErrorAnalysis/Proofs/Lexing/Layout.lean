import ErrorAnalysis.Proofs.Lexing.Characters
import ErrorAnalysis.Proofs.Syntax.Trees

/-!
# Normal Layout

A text in normal layout has no tabs, line breaks or foreign quotation marks, and no blanks at its
ends. Normalising a command changes nothing about such a text. The texts that queries are printed as
are built from pieces in normal layout, so the property is stated with the closure under joining that
the printer needs.

## Main results

* `Framed.append`, `Framed.join`: pieces in normal layout join to one.
* `Framed.normalize`: **normal layout is kept as it is.**
* `isControlBlank_of_mem_normalize`: a normalised command has no tabs, line breaks or foreign marks.
-/

namespace ErrorAnalysis

namespace Command

/-- A character that normalising a command keeps. -/
def IsPlain (c : Char) : Prop :=
  isControlBlank c = false ∧ plainQuote c = c

instance (c : Char) : Decidable (IsPlain c) :=
  inferInstanceAs (Decidable (_ ∧ _))

/-- A text in normal layout. Its first character does not go on with an equals sign either. -/
structure Framed (cs : List Char) : Prop where
  plain : ∀ c ∈ cs, IsPlain c
  opens : ∃ c tail, cs = c :: tail ∧ isBlank c = false ∧ c ≠ '='
  closes : ∃ init c, cs = init ++ [c] ∧ isBlank c = false

namespace Framed

variable {xs ys zs : List Char}

/-- Anything plain may stand between two pieces in normal layout. -/
theorem join (hx : Framed xs) (hy : ∀ c ∈ ys, IsPlain c) (hz : Framed zs) :
    Framed (xs ++ ys ++ zs) where
  plain := by
    intro c hc
    rcases List.mem_append.mp hc with hc | hc
    · rcases List.mem_append.mp hc with hc | hc
      · exact hx.plain c hc
      · exact hy c hc
    · exact hz.plain c hc
  opens := by
    obtain ⟨c, tail, rfl, hc⟩ := hx.opens
    exact ⟨c, tail ++ ys ++ zs, by simp, hc⟩
  closes := by
    obtain ⟨init, c, rfl, hc⟩ := hz.closes
    exact ⟨xs ++ ys ++ init, c, by simp, hc⟩

theorem append (hx : Framed xs) (hz : Framed zs) : Framed (xs ++ zs) := by
  have hjoin : Framed (xs ++ [] ++ zs) := hx.join (by simp) hz
  rwa [List.append_nil] at hjoin

/-- A run of plain characters between two that are neither blank nor, in front, an equals sign. -/
theorem of_cons_append {c d : Char} (hc : IsPlain c ∧ isBlank c = false ∧ c ≠ '=')
    (hxs : ∀ x ∈ xs, IsPlain x) (hd : IsPlain d ∧ isBlank d = false) :
    Framed (c :: (xs ++ [d])) where
  plain := by
    intro x hx
    rcases List.mem_cons.mp hx with rfl | hx
    · exact hc.1
    · rcases List.mem_append.mp hx with hx | hx
      · exact hxs x hx
      · exact List.mem_singleton.mp hx ▸ hd.1
  opens := ⟨c, _, rfl, hc.2⟩
  closes := ⟨c :: xs, d, rfl, hd.2⟩

/-- A run of characters none of which is blank or an equals sign. -/
theorem of_forall (hne : xs ≠ []) (h : ∀ c ∈ xs, IsPlain c ∧ isBlank c = false ∧ c ≠ '=') :
    Framed xs where
  plain := fun c hc => (h c hc).1
  opens := by
    obtain ⟨c, tail, rfl⟩ := List.exists_cons_of_ne_nil hne
    exact ⟨c, tail, rfl, (h c List.mem_cons_self).2⟩
  closes := by
    refine ⟨xs.dropLast, xs.getLast hne, (List.dropLast_append_getLast hne).symm, ?_⟩
    exact (h _ (List.getLast_mem hne)).2.1

end Framed

/-! ### Normalising -/

theorem joinLines_of_plain {cs : List Char} (h : ∀ c ∈ cs, IsPlain c) : joinLines cs = cs := by
  induction cs with
  | nil => rfl
  | cons c cs ih =>
      have hc : isControlBlank c = false := (h c List.mem_cons_self).1
      simp [joinLines, hc, ih fun d hd => h d (List.mem_cons_of_mem _ hd)]

theorem trimLeft_of_cons {c : Char} {cs : List Char} (h : isBlank c = false) :
    trimLeft (c :: cs) = c :: cs :=
  List.dropWhile_cons_of_neg (by simp [h])

/-- **Normal layout is kept as it is.** -/
theorem Framed.normalize {cs : List Char} (h : Framed cs) :
    Command.normalize (String.ofList cs) = String.ofList cs := by
  have hquotes : cs.map plainQuote = cs :=
    (List.map_congr_left fun c hc => (h.plain c hc).2).trans (List.map_id' cs)
  obtain ⟨c, tail, hopen, hc, -⟩ := h.opens
  obtain ⟨init, d, hclose, hd⟩ := h.closes
  have hleft : trimLeft cs = cs := by rw [hopen, trimLeft_of_cons hc]
  have hright : trimRight cs = cs := by
    have : cs.reverse = d :: init.reverse := by rw [hclose]; simp
    rw [trimRight, this, trimLeft_of_cons hd, ← this, List.reverse_reverse]
  rw [Command.normalize, String.toList_ofList, joinLines_of_plain h.plain, hquotes, trim, hleft,
    hright]

/-! ### Normalised commands -/

theorem isControlBlank_of_mem_joinLines {cs : List Char} :
    ∀ c ∈ joinLines cs, isControlBlank c = false := by
  fun_induction joinLines cs with
  | case1 => simp
  | case2 => simp [isControlBlank]
  | case3 _ _ _ _ _ ih => exact ih
  | case4 _ _ _ _ _ ih =>
      exact List.forall_mem_cons.mpr ⟨by decide, ih⟩
  | case5 c cs hc ih =>
      exact List.forall_mem_cons.mpr ⟨by simpa using hc, ih⟩

theorem subset_trim (cs : List Char) : trim cs ⊆ cs := by
  intro c hc
  rw [trim, trimRight, List.mem_reverse] at hc
  have hinner := (List.dropWhile_sublist isBlank).subset hc
  rw [List.mem_reverse] at hinner
  exact (List.dropWhile_sublist isBlank).subset hinner

/-- No tabs, line breaks or foreign marks are left in a normalised command. -/
theorem isControlBlank_of_mem_normalize {cmd : String} {c : Char}
    (h : c ∈ (normalize cmd).toList) : isControlBlank c = false ∧ c ∉ Expr.unquotable := by
  rw [normalize, String.toList_ofList] at h
  obtain ⟨d, hd, rfl⟩ := List.mem_map.mp (subset_trim _ h)
  have hcontrol := isControlBlank_of_mem_joinLines d hd
  by_cases hquote : d = '\'' ∨ d = '\u201C' ∨ d = '\u201D'
  · have : plainQuote d = '"' := by simp [plainQuote, hquote, or_assoc]
    rw [this]
    decide
  · have hkept : plainQuote d = d := by simp [plainQuote, hquote, or_assoc]
    rw [hkept]
    refine ⟨hcontrol, fun hmem => ?_⟩
    have hcr : d ≠ '\r' := by
      rintro rfl
      exact absurd hcontrol (by decide)
    simp only [Expr.unquotable, List.mem_cons, List.not_mem_nil, or_false] at hmem
    tauto

end Command

end ErrorAnalysis
