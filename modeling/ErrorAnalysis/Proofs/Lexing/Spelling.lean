import ErrorAnalysis.Query
import ErrorAnalysis.Proofs.Lexing.Layout
import ErrorAnalysis.Proofs.Lexing.Numeral

/-!
# Spelling Tokens

A piece of text **spells** some tokens if, in front of any text that it does not run into, it is cut
into these tokens and the text behind it is cut as it would be alone. Names and numbers run into what
goes on with a word; a less-than sign runs into an equals sign. What a piece may stand in front of is
part of the statement, so that pieces compose.

## Main results

* `spells_word`: names and reserved words.
* `spells_number`, `spells_quoteLiteral`: numbers and texts between quotes read back.
* `Spells.append`: pieces compose.
* `Lexes.tokens_eq`: a text in normal layout is a command of the tokens that it is cut into.
-/

namespace ErrorAnalysis

namespace Token

/-! ### Cutting -/

/-- Wherever the text starts, it is cut into these tokens and blanks. -/
def Lexes (cs : List Char) (ts : List Token) : Prop :=
  ∀ position, ∃ located, scanFrom position cs = .ok located ∧
    ((located.map (·.token)).filter fun t => !t.isBlank) = ts

theorem lexes_nil : Lexes [] [] :=
  fun position => ⟨[], by rw [scanFrom], rfl⟩

/-- The first token of a text in front of the tokens of the rest. -/
theorem Lexes.cons {cs rest : List Char} {t : Token} {ts : List Token}
    (hnext : next? cs = some (t, rest)) (h : Lexes rest ts) :
    Lexes cs ([t].filter (fun t => !t.isBlank) ++ ts) := by
  intro position
  cases cs with
  | nil => exact absurd hnext (by simp [next?])
  | cons c cs =>
      rw [scanFrom]
      split
      · next hnone => exact absurd (hnext.symm.trans hnone) (by simp)
      · next t' rest' hsome =>
        obtain ⟨rfl, rfl⟩ : t = t' ∧ rest = rest' := by
          simpa using hnext.symm.trans hsome
        obtain ⟨located, hscan, hfilter⟩ :=
          h (position + (byteLength (c :: cs) - byteLength rest))
        refine ⟨_, congrArg (Except.map _) hscan, ?_⟩
        rw [List.map_cons, ← List.singleton_append, List.filter_append, hfilter]

/-- In front of a text that `F` holds of, the piece is cut into these tokens, and the text behind it
as it is alone. -/
def Spells (F : List Char → Prop) (cs : List Char) (ts : List Token) : Prop :=
  ∀ ⦃rest us⦄, F rest → Lexes rest us → Lexes (cs ++ rest) (ts ++ us)

section Spells

variable {F G : List Char → Prop} {cs ds : List Char} {ts us : List Token}

/-- Pieces compose if the second one is such as the first one may stand in front of. -/
theorem Spells.append (hc : Spells F cs ts) (hd : Spells G ds us)
    (h : ∀ rest, G rest → F (ds ++ rest)) : Spells G (cs ++ ds) (ts ++ us) := by
  intro rest vs hG hrest
  rw [List.append_assoc, List.append_assoc]
  exact hc (h rest hG) (hd hG hrest)

theorem Spells.mono (h : Spells F cs ts) (hFG : ∀ rest, G rest → F rest) : Spells G cs ts :=
  fun _ _ hG hrest => h (hFG _ hG) hrest

theorem spells_nil : Spells F [] [] :=
  fun _ _ _ hrest => hrest

theorem spells_of_next? {t : Token} (ht : t.isBlank = false)
    (h : ∀ rest, F rest → next? (cs ++ rest) = some (t, rest)) : Spells F cs [t] := by
  intro rest us hF hrest
  simpa [ht] using hrest.cons (h rest hF)

theorem spells_of_readMark? {t : Token} (ht : t.isBlank = false)
    (h : ∀ rest, F rest → readMark? (cs ++ rest) = some (t, rest)) : Spells F cs [t] := by
  refine spells_of_next? ht fun rest hF => ?_
  have hmark := h rest hF
  cases hcs : cs ++ rest with
  | nil => exact absurd (hcs ▸ hmark) (by simp [readMark?])
  | cons c tail =>
      rw [hcs] at hmark
      simp only [next?, hmark]

end Spells

/-! ### Marks -/

/-- The characters that a mark may start with. -/
def markStarts : List Char :=
  ['a', 'g', '=', '!', '<', '>', '+', '-', '*', '/', '%', '^', '~', '&', '|', '(', ')', '[', ']', ',']

theorem readMark?_eq_none {c : Char} {rest : List Char} (h : c ∉ markStarts) :
    readMark? (c :: rest) = none := by
  unfold readMark?
  split
  all_goals first
    | rfl
    | (next heq =>
        obtain ⟨rfl, -⟩ := List.cons.inj heq
        exact absurd (by decide) h)

/-- A text that does not start with an equals sign. -/
def NoEquals (rest : List Char) : Prop :=
  ∀ c ∈ rest.head?, c ≠ '='

/-- A text that does not start with a space or a tab. -/
def NoSpace (rest : List Char) : Prop :=
  ∀ c ∈ rest.head?, isSpaceOrTab c = false

/-- A text in normal layout starts with neither, whatever follows it. -/
theorem noEquals_of_framed {cs : List Char} (h : Command.Framed cs) (rest : List Char) :
    NoEquals (cs ++ rest) := by
  obtain ⟨c, tail, rfl, -, hc⟩ := h.opens
  simpa [NoEquals] using hc

theorem noSpace_of_framed {cs : List Char} (h : Command.Framed cs) (rest : List Char) :
    NoSpace (cs ++ rest) := by
  obtain ⟨c, tail, rfl, hc, -⟩ := h.opens
  have hne (d : Char) (hd : ErrorAnalysis.isBlank d = true) : c ≠ d := by
    rintro rfl
    exact absurd hc (by simp [hd])
  simp [NoSpace, isSpaceOrTab, hne ' ' (by decide), hne '\t' (by decide)]

/-- A bracket, a comma or the mark in front of the name of a block stands in front of anything. -/
theorem spells_delimiter (d : Delimiter) : Spells (fun _ => True) d.text.toList [.delimiter d] := by
  cases d <;> exact spells_of_readMark? rfl fun _ _ => rfl

theorem spells_blockMark (kind : BlockKind) :
    Spells (fun _ => True) (kind.text ++ ":").toList [.blockMark kind] := by
  cases kind <;> exact spells_of_readMark? rfl fun _ _ => rfl

/-- An operator stands in front of anything but an equals sign. -/
theorem spells_operator (o : Operator) : Spells NoEquals o.text.toList [.operator o] := by
  refine spells_of_readMark? rfl fun rest hrest => ?_
  have hne : ∀ tail, rest ≠ '=' :: tail := by
    rintro tail rfl
    exact hrest '=' rfl rfl
  cases o with
  | lt =>
      show readMark? ('<' :: rest) = _
      unfold readMark?
      split <;> simp_all
  | gt =>
      show readMark? ('>' :: rest) = _
      unfold readMark?
      split <;> simp_all
  | assign =>
      show readMark? ('=' :: rest) = _
      unfold readMark?
      split <;> simp_all
  | _ => rfl

/-! ### Runs of characters -/

/-- A run of blanks is taken as far as it goes. -/
theorem next?_of_isSpaceOrTab {c : Char} (hc : isSpaceOrTab c = true) (cs : List Char) :
    next? (c :: cs) = some (.blank (String.ofList (c :: cs.takeWhile isSpaceOrTab)),
      cs.dropWhile isSpaceOrTab) := by
  have hmark : readMark? (c :: cs) = none := by
    refine readMark?_eq_none fun hmem => ?_
    have hnone : ∀ d ∈ markStarts, isSpaceOrTab d = false := by decide
    simp [hnone c hmem] at hc
  have hquote : c ≠ '"' := by
    rintro rfl
    exact absurd hc (by decide)
  simp only [next?, hmark, readRun?, hquote, hc, if_false, if_true]

/-- A run of blanks in front of something else. -/
theorem next?_blanks {word rest : List Char} (hne : word ≠ []) (hword : ∀ c ∈ word, isSpaceOrTab c = true)
    (hrest : NoSpace rest) : next? (word ++ rest) = some (.blank (String.ofList word), rest) := by
  obtain ⟨c, word, rfl⟩ := List.exists_cons_of_ne_nil hne
  obtain ⟨hc, hword⟩ := List.forall_mem_cons.mp hword
  obtain ⟨htake, hdrop⟩ := span_append hword hrest
  rw [List.cons_append, next?_of_isSpaceOrTab hc, htake, hdrop]

/-- A space in front of a text that starts with none. -/
theorem spells_space : Spells NoSpace [' '] [] :=
  fun _ _ hF hrest => hrest.cons (next?_blanks (by simp) (by decide) hF)

/-- A word: a character that starts a name and any that go on with it. -/
def IsWord (cs : List Char) : Prop :=
  ∃ c tail, cs = c :: tail ∧ startsName c = true ∧ ∀ d ∈ tail, continuesName d = true

theorem IsWord.continuesName {cs : List Char} (h : IsWord cs) :
    ∀ d ∈ cs, continuesName d = true := by
  obtain ⟨c, tail, rfl, hc, htail⟩ := h
  exact List.forall_mem_cons.mpr ⟨continuesName_of_startsName hc, htail⟩

/-- A name and what follows it are told apart. -/
theorem IsWord.span {cs rest : List Char} (h : IsWord cs) (hrest : EndsWord rest) :
    (cs ++ rest).takeWhile Token.continuesName = cs ∧
      (cs ++ rest).dropWhile Token.continuesName = rest :=
  hrest.span (by decide +kernel) h.continuesName

/-- A mark that starts with a letter is the mark in front of the name of a block. -/
theorem exists_of_readMark?_letter {c : Char} {cs : List Char} {r : Token × List Char}
    (hc : startsName c = true) (h : readMark? (c :: cs) = some r) :
    ∃ kind : BlockKind, ∃ tail, c :: cs = kind.text.toList ++ ':' :: tail := by
  unfold readMark? at h
  split at h
  · next heq => exact ⟨.attr, _, heq⟩
  · next heq => exact ⟨.group, _, heq⟩
  all_goals first
    | (next heq =>
        obtain ⟨rfl, -⟩ := List.cons.inj heq
        exact absurd hc (by decide +kernel))
    | exact absurd h (by simp)

/-- No mark stands at the start of a word. -/
theorem readMark?_word {cs rest : List Char} (hcs : IsWord cs) (hrest : EndsWord rest) :
    readMark? (cs ++ rest) = none := by
  have hdrop := (hcs.span hrest).2
  obtain ⟨c, tail, rfl, hc, -⟩ := hcs
  cases hmark : readMark? (c :: (tail ++ rest)) with
  | none => exact hmark
  | some r =>
      obtain ⟨kind, after, heq⟩ := exists_of_readMark?_letter hc hmark
      have hcolon : (kind.text.toList ++ ':' :: after).dropWhile continuesName = ':' :: after := by
        cases kind <;> rfl
      rw [List.cons_append, heq, hcolon] at hdrop
      exact absurd hdrop.symm (hrest.ne_cons (by decide))

theorem isBlank_ofName (name : String) : (ofName name).isBlank = false := by
  unfold ofName
  split <;> rfl

/-- **Names and reserved words** are read whole. -/
theorem spells_word {cs : List Char} (hcs : IsWord cs) :
    Spells EndsWord cs [ofName (String.ofList cs)] := by
  refine spells_of_next? (isBlank_ofName _) fun rest hrest => ?_
  have hmark := readMark?_word hcs hrest
  obtain ⟨htake, hdrop⟩ := hcs.span hrest
  obtain ⟨c, tail, rfl, hc, -⟩ := hcs
  have hcont := continuesName_of_startsName hc
  have hquote : c ≠ '"' := ne_of_continuesName hcont _ (by decide)
  have hspace : isSpaceOrTab c = false := by
    have h1 := ne_of_continuesName hcont ' ' (by decide)
    have h2 := ne_of_continuesName hcont '\t' (by decide)
    simp [isSpaceOrTab, h1, h2]
  have hdigit : c.isDigit = false := by
    by_contra hcontra
    exact absurd (startsName_eq_false_of_isDigit (by simpa using hcontra)) (by simp [hc])
  rw [List.cons_append] at hmark htake hdrop ⊢
  rw [List.takeWhile_cons_of_pos hcont] at htake
  rw [List.dropWhile_cons_of_pos hcont] at hdrop
  simp only [next?, hmark, readRun?, hquote, hspace, hdigit, hc, htake, hdrop, if_false, if_true,
    Bool.false_eq_true]

theorem isWord_of_isName {name : String} (h : Expr.isName name = true) : IsWord name.toList := by
  unfold Expr.isName at h
  split at h
  · exact absurd h (by simp)
  · next c cs heq =>
    simp only [Bool.and_eq_true, List.all_eq_true] at h
    exact ⟨c, cs, heq, h.1.1, h.1.2⟩

theorem ofName_of_isName {name : String} (h : Expr.isName name = true) :
    ofName name = .identifier name := by
  unfold Expr.isName at h
  split at h
  · exact absurd h (by simp)
  · simp only [Bool.and_eq_true, Option.isNone_iff_eq_none] at h
    rw [ofName, h.2]

/-- A name that is not reserved is an identifier. -/
theorem spells_name {name : String} (h : Expr.isName name = true) :
    Spells EndsWord name.toList [.identifier name] := by
  have hword := spells_word (isWord_of_isName h)
  rwa [String.ofList_toList, ofName_of_isName h] at hword

/-! ### Numbers and texts -/

/-- **Numbers** read back. -/
theorem spells_number {x : Number} (hfin : x.isFinite = true) (hsign : x.isNegative = false) :
    Spells EndsWord x.text.toList [.number x] := by
  refine spells_of_next? rfl fun rest hrest => ?_
  have hread := readNumber?_text hfin hsign hrest
  obtain ⟨c, tail, htext, hc⟩ : ∃ c tail, x.text.toList = c :: tail ∧ c.isDigit = true := by
    obtain ⟨whole, fraction, d, htext, hnumeral, -⟩ := Decimal.exists_numeral_text hfin hsign
    obtain ⟨c, tail, rfl⟩ := List.exists_cons_of_ne_nil hnumeral.whole_ne
    have hc := hnumeral.whole_digit c List.mem_cons_self
    rw [htext, Decimal.spelled]
    split <;> exact ⟨c, _, rfl, hc⟩
  have hmark : readMark? (c :: (tail ++ rest)) = none :=
    readMark?_eq_none (of_isDigit (p := (· ∉ markStarts)) (by decide) hc)
  have hkind : c ≠ '"' ∧ isSpaceOrTab c = false :=
    of_isDigit (p := fun c => c ≠ '"' ∧ isSpaceOrTab c = false) (by decide) hc
  rw [htext, List.cons_append] at hread ⊢
  simp only [next?, hmark, readRun?, hkind.1, hkind.2, hc, hread, Option.map_some, if_false, if_true,
    Bool.false_eq_true]

theorem unescapeLiteral?_escapeLiteral (cs rest : List Char) :
    unescapeLiteral? (escapeLiteral cs ++ '"' :: rest) = some (cs, rest) := by
  induction cs with
  | nil => rfl
  | cons c cs ih =>
      rw [escapeLiteral] at ih ⊢
      rw [List.flatMap_cons, List.append_assoc, escapeChar]
      by_cases hquote : c = '"'
      · simp [hquote, unescapeLiteral?, unescapeChar?, ih]
      · by_cases hslash : c = '\\'
        · simp [hslash, unescapeLiteral?, unescapeChar?, ih]
        · by_cases hline : c = '\n'
          · simp [hline, unescapeLiteral?, unescapeChar?, ih]
          · by_cases htab : c = '\t'
            · simp [htab, unescapeLiteral?, unescapeChar?, ih]
            · simp only [hquote, hslash, hline, htab, if_false, List.singleton_append]
              rw [unescapeLiteral?]
              · simp [ih]
              all_goals simp_all

/-- **Texts between quotes** read back, in front of anything. -/
theorem spells_quoteLiteral (s : String) :
    Spells (fun _ => True) (quoteLiteral s).toList [.str s] := by
  refine spells_of_next? rfl fun rest _ => ?_
  have hread := unescapeLiteral?_escapeLiteral s.toList rest
  rw [quoteLiteral, String.toList_ofList, List.cons_append, List.append_assoc]
  simp only [next?, readMark?_eq_none (by decide : '"' ∉ markStarts), readRun?, if_true]
  rw [List.singleton_append, hread]
  simp

/-! ### Commands -/

/-- **Commands.** A text in normal layout that is cut into tokens is a command of these tokens. -/
theorem Lexes.tokens_eq {s : String} {ts : List Token} (h : Lexes s.toList ts)
    (hlayout : Command.Framed s.toList) : Query.tokens s = .ok ts := by
  obtain ⟨located, hscan, hfilter⟩ := h 0
  have hnormal := hlayout.normalize
  rw [String.ofList_toList] at hnormal
  rw [Query.tokens, hnormal, scan, hscan]
  exact congrArg Except.ok hfilter

theorem Spells.lexes {cs : List Char} {ts : List Token} (h : Spells EndsWord cs ts) :
    Lexes cs ts := by
  have hcut := h endsWord_nil lexes_nil
  rwa [List.append_nil, List.append_nil] at hcut

end Token

end ErrorAnalysis
