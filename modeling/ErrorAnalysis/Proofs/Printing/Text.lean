import ErrorAnalysis.Proofs.Lexing.Spelling
import ErrorAnalysis.Proofs.Printing.Tokens

/-!
# Reading Printed Trees

The text of a tree is in normal layout and spells the tokens of the tree. So it is read as the tree
that these tokens derive, and for a tree that can be written as it is, this is the tree itself.

## Main results

* `Expr.prints_text`: the text of a tree spells its tokens.
* `Expr.parse_text_eq_readBack`: what the text of a tree is read as.
* `Expr.parse_text_of_printable`: **printing a tree and reading it gives the tree back.**
-/

namespace ErrorAnalysis

open Command (Framed IsPlain)
open Grammar (commaSeparated)
open Token

/-! ### Pieces of text -/

/-- A text in normal layout that spells tokens, in front of whatever ends a word. -/
structure Prints (s : String) (ts : List Token) : Prop where
  framed : Framed s.toList
  spells : Spells EndsWord s.toList ts

/-- A character of a name is kept in normal layout. -/
theorem isPlain_of_continuesName {c : Char} (h : continuesName c = true) :
    IsPlain c ∧ ErrorAnalysis.isBlank c = false ∧ c ≠ '=' := by
  have hne := ne_of_continuesName h
  have h1 := hne '\n' (by decide)
  have h2 := hne '\t' (by decide)
  have h3 := hne '\r' (by decide)
  have h4 := hne '\'' (by decide)
  have h5 := hne '\u201C' (by decide +kernel)
  have h6 := hne '\u201D' (by decide +kernel)
  refine ⟨⟨?_, ?_⟩, isBlank_eq_false_of_continuesName h, hne '=' (by decide)⟩
  · simp [Command.isControlBlank, h1, h2, h3]
  · simp [Command.plainQuote, h4, h5, h6]

theorem framed_of_isWord {cs : List Char} (h : IsWord cs) : Framed cs := by
  refine Framed.of_forall ?_ fun c hc => isPlain_of_continuesName (h.continuesName c hc)
  obtain ⟨c, tail, rfl, -⟩ := h
  exact List.cons_ne_nil c tail

theorem prints_word {s : String} (h : IsWord s.toList) : Prints s [ofName s] := by
  refine ⟨framed_of_isWord h, ?_⟩
  have hspells := spells_word h
  rwa [String.ofList_toList] at hspells

theorem prints_name {s : String} (h : Expr.isName s = true) : Prints s [.identifier s] :=
  ⟨framed_of_isWord (isWord_of_isName h), spells_name h⟩

/-- A finite number without a sign is printed as digits and points. -/
theorem framed_number {x : Number} (hfin : x.isFinite = true) (hsign : x.isNegative = false) :
    Framed x.text.toList := by
  obtain ⟨whole, fraction, d, htext, hnumeral, -⟩ := Decimal.exists_numeral_text hfin hsign
  have hdigit (c : Char) (hc : c.isDigit = true) :
      IsPlain c ∧ ErrorAnalysis.isBlank c = false ∧ c ≠ '=' :=
    of_isDigit (p := fun c => IsPlain c ∧ ErrorAnalysis.isBlank c = false ∧ c ≠ '=') (by decide) hc
  rw [htext, Decimal.spelled]
  split
  · exact Framed.of_forall hnumeral.whole_ne fun c hc => hdigit c (hnumeral.whole_digit c hc)
  · refine Framed.of_forall (by simp) fun c hc => ?_
    rcases List.mem_append.mp hc with hc | hc
    · exact hdigit c (hnumeral.whole_digit c hc)
    · rcases List.mem_cons.mp hc with rfl | hc
      · decide
      · exact hdigit c (hnumeral.fraction_digit c hc)

/-- An infinite number without a sign is printed as a name. -/
theorem text_of_infinite {x : Number} (hfin : x.isFinite = false) (hsign : x.isNegative = false)
    (hnan : x.isNaN = false) : x.text = "inf" := by
  simp [Number.text, Number.render, Number.finite?, Number.nonFiniteText, hfin, hsign, hnan]

/-- Escaping leaves no character that normalising a command would change. -/
theorem isPlain_of_mem_escapeChar {c d : Char} (hc : c ∉ Expr.unquotable) (hd : d ∈ escapeChar c) :
    IsPlain d := by
  simp only [Expr.unquotable, List.mem_cons, List.not_mem_nil, or_false, not_or] at hc
  unfold escapeChar at hd
  split_ifs at hd with _ _ hline htab
  case neg =>
    obtain rfl := List.mem_singleton.mp hd
    exact ⟨by simp [Command.isControlBlank, hline, htab, hc], by simp [Command.plainQuote, hc]⟩
  all_goals
    revert d
    decide

/-- A text between quotes is in normal layout, for its line breaks and tabs are escaped. -/
theorem framed_quoteLiteral {s : String} (h : Expr.isQuotable s = true) :
    Framed (quoteLiteral s).toList := by
  rw [quoteLiteral, String.toList_ofList]
  refine Framed.of_cons_append (by decide) (fun c hc => ?_) (by decide)
  obtain ⟨d, hd, hc⟩ := List.mem_flatMap.mp hc
  have hquotable : d ∉ Expr.unquotable := by
    simpa using List.all_eq_true.mp h d hd
  exact isPlain_of_mem_escapeChar hquotable hc

theorem prints_quoteLiteral {s : String} (h : Expr.isQuotable s = true) :
    Prints (quoteLiteral s) [.str s] :=
  ⟨framed_quoteLiteral h, (spells_quoteLiteral s).mono fun _ _ => trivial⟩

theorem prints_literal {l : Literal} (h : Expr.isLegible (.literal l) = true) :
    Prints l.text [l.token] := by
  cases l with
  | num x =>
      obtain ⟨hsign, hnan⟩ : x.isNegative = false ∧ x.isNaN = false := by
        simpa [Expr.isLegible] using h
      rw [Literal.text, Literal.token]
      cases hfin : x.isFinite with
      | true => exact ⟨framed_number hfin hsign, spells_number hfin hsign⟩
      | false =>
          rw [text_of_infinite hfin hsign hnan]
          exact prints_name (by decide)
  | str s => exact prints_quoteLiteral h
  | bool b =>
      cases b with
      | true => exact prints_word (s := "true") ⟨'t', _, rfl, by decide⟩
      | false => exact prints_word (s := "false") ⟨'f', _, rfl, by decide⟩
  | none => exact prints_word (s := "None") ⟨'N', _, rfl, by decide⟩

/-! ### Brackets and operators -/

/-- Pieces in brackets, or nothing in brackets, stand in front of anything. -/
theorem spells_brackets (opens closes : Delimiter) {cs : List Char} {ts : List Token}
    (hcloses : ∃ c, closes.text.toList = [c] ∧ c ∈ wordEnds) (h : Spells EndsWord cs ts) :
    Spells EndsWord (opens.text.toList ++ (cs ++ closes.text.toList))
      (.delimiter opens :: (ts ++ [.delimiter closes])) := by
  obtain ⟨c, hc, hends⟩ := hcloses
  have hinner := h.append (spells_delimiter closes) fun rest _ => hc ▸ endsWord_cons rest hends
  have houter := (spells_delimiter opens).append hinner fun _ _ => trivial
  exact houter.mono fun _ _ => trivial

/-- A text, in parentheses if it needs them. -/
theorem prints_inParens {s : String} {ts : List Token} (h : Prints s ts) (needed : Bool) :
    Prints (Expr.inParens needed s) (Expr.tokensInParens needed ts) := by
  cases needed with
  | false => exact h
  | true =>
      have htext : (Expr.inParens true s).toList = '(' :: (s.toList ++ [')']) := by
        simp [Expr.inParens]
      refine ⟨?_, ?_⟩
      · rw [htext]
        exact Framed.of_cons_append (by decide) h.framed.plain (by decide)
      · rw [htext]
        exact spells_brackets .openParen .closeParen ⟨')', rfl, by decide⟩ h.spells

/-- The text of a binary operator, in front of the space behind it. -/
theorem spells_binaryOp (op : BinaryOp) :
    Spells (fun rest => rest.head? = some ' ') op.text.toList op.marks := by
  have hword {rest : List Char} (h : rest.head? = some ' ') : EndsWord rest := by
    simp [EndsWord, h, wordEnds]
  have hequals {rest : List Char} (h : rest.head? = some ' ') : NoEquals rest := by
    simp [NoEquals, h]
  cases op with
  | or => exact (spells_word ⟨'o', ['r'], rfl, by decide⟩).mono fun _ h => hword h
  | and => exact (spells_word ⟨'a', ['n', 'd'], rfl, by decide⟩).mono fun _ h => hword h
  | «in» => exact (spells_word ⟨'i', ['n'], rfl, by decide⟩).mono fun _ h => hword h
  | notIn =>
      have hnot := spells_word ⟨'n', ['o', 't'], rfl, by decide⟩
      have hin := spells_word ⟨'i', ['n'], rfl, by decide⟩
      have hspaced := (hnot.append spells_space fun rest _ => endsWord_cons rest (by decide)).append
        hin fun rest _ => by simp [NoSpace, isSpaceOrTab]
      exact hspaced.mono fun _ h => hword h
  | eq => exact (spells_operator .eq).mono fun _ h => hequals h
  | ne => exact (spells_operator .ne).mono fun _ h => hequals h
  | lt => exact (spells_operator .lt).mono fun _ h => hequals h
  | le => exact (spells_operator .le).mono fun _ h => hequals h
  | gt => exact (spells_operator .gt).mono fun _ h => hequals h
  | ge => exact (spells_operator .ge).mono fun _ h => hequals h
  | add => exact (spells_operator .plus).mono fun _ h => hequals h
  | sub => exact (spells_operator .minus).mono fun _ h => hequals h
  | mul => exact (spells_operator .times).mono fun _ h => hequals h
  | div => exact (spells_operator .divide).mono fun _ h => hequals h
  | mod => exact (spells_operator .modulo).mono fun _ h => hequals h

/-- A binary operator between two texts. -/
theorem prints_binary {s u : String} {ts us : List Token} (hs : Prints s ts) (hu : Prints u us)
    (op : BinaryOp) : Prints (s ++ " " ++ op.text ++ " " ++ u) (ts ++ op.marks ++ us) := by
  have htext : (s ++ " " ++ op.text ++ " " ++ u).toList
      = s.toList ++ ([' '] ++ op.text.toList ++ [' ']) ++ u.toList := by
    simp
  obtain ⟨c, tail, hop, hc⟩ : ∃ c tail, op.text.toList = c :: tail ∧ isSpaceOrTab c = false := by
    cases op <;> exact ⟨_, _, rfl, by decide⟩
  refine ⟨?_, ?_⟩
  · rw [htext]
    refine hs.framed.join ?_ hu.framed
    cases op <;> decide
  · have hright := spells_space.append hu.spells fun rest _ => noSpace_of_framed hu.framed rest
    have hmarks := (spells_binaryOp op).append hright fun _ _ => rfl
    have hspaced := spells_space.append hmarks fun rest _ => by simp [NoSpace, hop, hc]
    have hall := hs.spells.append hspaced fun rest _ => endsWord_cons _ (by decide)
    rw [htext]
    simpa using hall

/-- A sign in front of a text. -/
theorem prints_sign {s : String} {ts : List Token} (h : Prints s ts) {o : Operator} {c : Char}
    (ho : o.text.toList = [c]) (hc : IsPlain c ∧ ErrorAnalysis.isBlank c = false ∧ c ≠ '=') :
    Prints (o.text ++ s) (.operator o :: ts) := by
  have hframed : Framed o.text.toList := by
    rw [ho]
    exact Framed.of_forall (List.cons_ne_nil _ _) (by simpa using hc)
  refine ⟨?_, ?_⟩
  · rw [String.toList_append]
    exact hframed.append h.framed
  · rw [String.toList_append]
    exact (spells_operator o).append h.spells fun rest _ => noEquals_of_framed h.framed rest

/-- A unary operator in front of a text. -/
theorem prints_unary {s : String} {ts : List Token} (h : Prints s ts) (op : UnaryOp) :
    Prints (Expr.unaryText op s) (op.mark :: ts) := by
  cases op with
  | not =>
      have hword : IsWord "not".toList := ⟨'n', ['o', 't'], rfl, by decide⟩
      have hrest := spells_space.append h.spells fun rest _ => noSpace_of_framed h.framed rest
      have hall := (spells_word hword).append hrest fun rest _ => endsWord_cons _ (by decide)
      have htext : (Expr.unaryText .not s).toList = "not".toList ++ [' '] ++ s.toList := by
        simp [Expr.unaryText]
      refine ⟨?_, ?_⟩
      · rw [htext]
        exact (framed_of_isWord hword).join (by decide) h.framed
      · rw [htext, List.append_assoc]
        exact hall
  | neg => exact prints_sign h (o := .minus) rfl (by decide)
  | pos => exact prints_sign h (o := .plus) rfl (by decide)

/-! ### Sequences -/

/-- Texts with commas between them. -/
theorem prints_joinWith {s : String} {texts : List String} {ts : List Token}
    {pieces : List (List Token)} (hs : Prints s ts) (h : List.Forall₂ Prints texts pieces) :
    Prints (joinWith ", " (s :: texts)) (commaSeparated (ts :: pieces)) := by
  induction h generalizing s ts with
  | nil =>
      have htokens : commaSeparated [ts] = ts := List.append_nil ts
      rwa [joinWith, String.intercalate_singleton, htokens]
  | @cons u us texts pieces hu _ ih =>
      have hrest := ih hu
      have htext : (joinWith ", " (s :: u :: texts)).toList
          = s.toList ++ ([','] ++ [' ']) ++ (joinWith ", " (u :: texts)).toList := by
        simp [joinWith, String.intercalate_cons_cons]
      refine ⟨?_, ?_⟩
      · rw [htext]
        exact hs.framed.join (by decide) hrest.framed
      · have hspaced := spells_space.append hrest.spells
          fun rest _ => noSpace_of_framed hrest.framed rest
        have hcomma := (spells_delimiter .comma).append hspaced fun _ _ => trivial
        have hall := hs.spells.append hcomma fun rest _ => endsWord_cons _ (by decide)
        rw [htext, List.append_assoc]
        exact hall

/-- Texts with commas between them, in brackets; there may be none. -/
theorem prints_brackets (opens closes : Delimiter) {c d : Char}
    (hopens : opens.text.toList = [c]) (hcloses : closes.text.toList = [d])
    (hc : IsPlain c ∧ ErrorAnalysis.isBlank c = false ∧ c ≠ '=')
    (hd : IsPlain d ∧ ErrorAnalysis.isBlank d = false) (hends : d ∈ wordEnds)
    {texts : List String} {pieces : List (List Token)} (h : List.Forall₂ Prints texts pieces) :
    Prints (opens.text ++ joinWith ", " texts ++ closes.text)
      (.delimiter opens :: (commaSeparated pieces ++ [.delimiter closes])) := by
  have htext : (opens.text ++ joinWith ", " texts ++ closes.text).toList
      = c :: ((joinWith ", " texts).toList ++ [d]) := by
    simp [hopens, hcloses]
  have hinner : Spells EndsWord (joinWith ", " texts).toList (commaSeparated pieces) ∧
      ∀ x ∈ (joinWith ", " texts).toList, IsPlain x := by
    cases h with
    | nil => exact ⟨spells_nil, by simp [joinWith]⟩
    | cons hs hrest =>
        have hjoin := prints_joinWith hs hrest
        exact ⟨hjoin.spells, hjoin.framed.plain⟩
  refine ⟨?_, ?_⟩
  · rw [htext]
    exact Framed.of_cons_append hc hinner.2 hd
  · have hspells := spells_brackets opens closes ⟨d, hcloses, hends⟩ hinner.1
    rw [hopens, hcloses] at hspells
    rw [htext]
    exact hspells

theorem prints_named {name s : String} {ts : List Token} (hname : Expr.isName name = true)
    (h : Prints s ts) :
    Prints (name ++ "=" ++ s) (.identifier name :: .operator .assign :: ts) := by
  have hword := prints_name hname
  have htext : (name ++ "=" ++ s).toList = name.toList ++ ['='] ++ s.toList := by simp
  refine ⟨?_, ?_⟩
  · rw [htext]
    exact hword.framed.join (by decide) h.framed
  · have hassign := (spells_operator .assign).append h.spells
      fun rest _ => noEquals_of_framed h.framed rest
    have hall := hword.spells.append hassign fun rest _ => endsWord_cons _ (by decide)
    rw [htext, List.append_assoc]
    exact hall

/-! ### Trees -/

namespace Expr

theorem prints_argTexts {args : List Arg}
    (hnames : ∀ a ∈ args, a.name?.all isName = true)
    (h : ∀ a ∈ args, Prints a.value.text a.value.tokens) :
    List.Forall₂ Prints (argTexts args) (argTokens args) := by
  induction args with
  | nil => exact .nil
  | cons a as ih =>
      obtain ⟨hname, hrest⟩ := List.forall_mem_cons.mp hnames
      obtain ⟨ha, has⟩ := List.forall_mem_cons.mp h
      cases a with
      | positional x => exact .cons ha (ih hrest has)
      | named name x => exact .cons (prints_named hname ha) (ih hrest has)

theorem prints_texts {items : List Expr} (h : ∀ x ∈ items, Prints x.text x.tokens) :
    List.Forall₂ Prints (texts items) (itemTokens items) := by
  induction items with
  | nil => exact .nil
  | cons x xs ih =>
      obtain ⟨hx, hxs⟩ := List.forall_mem_cons.mp h
      exact .cons hx (ih hxs)

/-- The mark of a kind of blocks and a name. -/
theorem prints_block {name : String} (h : isName name = true) (kind : BlockKind) :
    Prints (kind.text ++ ":" ++ name) [.blockMark kind, .identifier name] := by
  have hname := prints_name h
  have hkind : IsWord kind.text.toList := by
    cases kind with
    | attr => exact ⟨'a', ['t', 't', 'r'], rfl, by decide⟩
    | group => exact ⟨'g', ['r', 'o', 'u', 'p'], rfl, by decide⟩
  refine ⟨?_, ?_⟩
  · rw [String.toList_append, String.toList_append]
    exact (framed_of_isWord hkind).join (by decide) hname.framed
  · rw [String.toList_append]
    exact (spells_blockMark kind).append hname.spells fun _ _ => trivial

/-- The name of a function and arguments in parentheses. -/
theorem prints_call {function : String} {texts : List String} {pieces : List (List Token)}
    (hname : isName function = true) (h : List.Forall₂ Prints texts pieces) :
    Prints (function ++ "(" ++ joinWith ", " texts ++ ")")
      (.identifier function :: .delimiter .openParen ::
        (commaSeparated pieces ++ [.delimiter .closeParen])) := by
  have hword := prints_name hname
  have hbrackets := prints_brackets .openParen .closeParen rfl rfl (by decide) (by decide)
    (by decide) h
  have htext : (function ++ "(" ++ joinWith ", " texts ++ ")").toList
      = function.toList ++ ("(" ++ joinWith ", " texts ++ ")").toList := by
    simp
  refine ⟨?_, ?_⟩
  · rw [htext]
    exact hword.framed.append hbrackets.framed
  · rw [htext]
    refine hword.spells.append hbrackets.spells fun rest _ => ?_
    simp [EndsWord, wordEnds]

/-- **The text of a tree spells its tokens.** -/
theorem prints_text {t : Expr} (h : t.every isLegible = true) : Prints t.text t.tokens := by
  induction t using Expr.induction with
  | noOp => exact absurd h (by decide)
  | literal l => exact prints_literal h
  | list items ih =>
      have hitems := (every_list.mp h).2
      exact prints_brackets .openBracket .closeBracket rfl rfl (by decide) (by decide) (by decide)
        (prints_texts fun x hx => ih x hx (hitems x hx))
  | block kind name => exact prints_block h kind
  | unary op x ih =>
      exact prints_unary (prints_inParens (ih (every_unary.mp h).2) _) op
  | binary op x y ihx ihy =>
      obtain ⟨-, hx, hy⟩ := every_binary.mp h
      exact prints_binary (prints_inParens (ihx hx) _) (prints_inParens (ihy hy) _) op
  | ident name => exact prints_name h
  | call function args edit? ih =>
      obtain ⟨hcall, hargs⟩ := every_call.mp h
      simp only [isLegible, Bool.and_eq_true, List.all_eq_true] at hcall
      obtain ⟨⟨hname, hnames⟩, hedit⟩ := hcall
      have hprints := prints_argTexts hnames fun a ha => ih a ha (hargs a ha)
      cases edit? with
      | none => exact prints_call hname (List.rel_append hprints .nil)
      | some rid =>
          have hkeyword : isName "rewrite" = true := by decide
          have hrewrite := prints_named hkeyword (prints_quoteLiteral hedit)
          exact prints_call hname (List.rel_append hprints (.cons hrewrite .nil))

/-! ### Reading -/

/-- **What the text of a tree is read as.** -/
theorem parse_text_eq_readBack {t : Expr} (h : t.every isLegible = true) :
    Query.parse t.text = .ok t.readBack := by
  have hprints := prints_text h
  have hrank : Grammar.Level.disjunction.rank ≤ t.level.rank := by cases t.level <;> decide
  have hderives := (derives_tokens h).weaken hrank
  rw [Query.parse, hprints.spells.lexes.tokens_eq hprints.framed]
  exact Grammar.parseTokens_of_derives hderives

/-- A tree that can be printed as it is: its names, texts and numbers can be written, its numbers
are finite, and no call keeps an argument that asks for an edit. -/
def Printable (t : Expr) : Prop :=
  t.every isLegible = true ∧ t.every hasFiniteNumber = true ∧ t.every isLifted = true

instance (t : Expr) : Decidable t.Printable :=
  inferInstanceAs (Decidable (_ ∧ _))

/-- **Printing a tree and reading it gives the tree back.** -/
theorem parse_text_of_printable {t : Expr} (h : t.Printable) : Query.parse t.text = .ok t := by
  rw [parse_text_eq_readBack h.1, (readBack_eq_self_iff h.2.2).mpr h.2.1]

/-- A command that is how a tree is shown denotes the tree. -/
theorem parse_of_text_eq {t : Expr} {cmd : String} (htext : t.text = cmd)
    (hlegible : t.every isLegible = true) (hlifted : t.every isLifted = true)
    (hfinite : t.every hasFiniteNumber = true) : Query.parse cmd = .ok t := by
  rw [← htext, parse_text_eq_readBack hlegible, (readBack_eq_self_iff hlifted).mpr hfinite]

/-- A tree with comparisons within comparisons, signs within signs, texts that need escapes, a name in
another script, and a call with an edit. -/
def knottyTree : Expr :=
  .unary .not
    (.binary .notIn
      (.binary .lt
        (.unary .neg (.unary .neg (.literal (.num ⟨0x3FB999999999999A⟩))))
        (.binary .sub (.ident "größe") (.binary .sub (.ident "x_1") (.unary .pos (.ident "inf")))))
      (.list
        [.literal (.str "a \"quoted\"\tpart\\\n"),
          .call "count"
            [.positional (.list []),
              .named "where" (.binary .or (.block .attr "wh_word")
                (.unary .not (.binary .or (.literal .none) (.literal (.bool true)))))]
            (some "delete \"the\" last")]))

/-- The knotty tree is printable, and so its text is read as the tree itself. -/
theorem parse_text_knottyTree :
    Printable knottyTree ∧ Query.parse knottyTree.text = .ok knottyTree :=
  have h : Printable knottyTree := by decide +kernel
  ⟨h, parse_text_of_printable h⟩

end Expr

end ErrorAnalysis
