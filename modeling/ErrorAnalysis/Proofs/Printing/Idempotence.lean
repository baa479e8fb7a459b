import ErrorAnalysis.Proofs.Lexing.Legible
import ErrorAnalysis.Proofs.Printing.Text

/-!
# Reading a Second Time

A command that is a query is read as a tree, the tree is printed, and the text is read again. The tokens
of a command can be written, so the tree that they derive can be, and calls have taken out the
arguments that ask for an edit. One kind of node is still not read back: digits may denote a number
beyond the finite ones, which is infinity, and infinity has no numeral. It is printed as a name.

## Main results

* `Grammar.Derives.isLegible`: what tokens that can be written derive can be written.
* `Query.reparse_iff_finite`: **a query is read back as itself iff its numbers are finite.**
* `Query.not_reparse_of_overflow`: the query `1e999` is not.
-/

namespace ErrorAnalysis

/-! ### Derived trees -/

namespace Grammar

theorem mem_commaSeparated {pieces : List (List Token)} {piece : List Token} {x : Token}
    (hpiece : piece ∈ pieces) (hx : x ∈ piece) : x ∈ commaSeparated pieces := by
  cases pieces with
  | nil => exact absurd hpiece (by simp)
  | cons first rest =>
      rcases List.mem_cons.mp hpiece with rfl | hpiece
      · exact List.mem_append_left _ hx
      · exact List.mem_append_right _
          (List.mem_flatMap.mpr ⟨piece, hpiece, List.mem_cons_of_mem _ hx⟩)

/-- A name can be quoted. -/
theorem isQuotable_of_isName {name : String} (h : Expr.isName name = true) :
    Expr.isQuotable name = true := by
  have key : ∀ d ∈ Expr.unquotable, Token.continuesName d = false := by decide +kernel
  refine List.all_eq_true.mpr fun c hc => ?_
  have hcont := (Token.isWord_of_isName h).continuesName c hc
  have hnot : c ∉ Expr.unquotable := by
    intro hmem
    rw [key c hmem] at hcont
    exact absurd hcont (by simp)
  simpa using hnot

/-- The edit that an argument asks for can be quoted. -/
theorem isQuotable_of_edit? {a : Arg} {s : String} (h : a.edit? = some s)
    (hlegible : a.value.every Expr.isLegible = true) : Expr.isQuotable s = true := by
  unfold Arg.edit? at h
  split at h
  · obtain rfl := Option.some.inj h
    exact hlegible
  · obtain rfl := Option.some.inj h
    exact isQuotable_of_isName hlegible
  · exact absurd h (by simp)

/-- A call can be written if its arguments can, and it keeps none that asks for an edit. -/
theorem isLegible_mkCall {function : String} {args : List Arg}
    (hname : Expr.isName function = true) (hnames : ∀ a ∈ args, a.name?.all Expr.isName = true)
    (hvalues : ∀ a ∈ args,
      a.value.every Expr.isLegible = true ∧ a.value.every Expr.isLifted = true) :
    (Expr.mkCall function args).every Expr.isLegible = true ∧
      (Expr.mkCall function args).every Expr.isLifted = true := by
  have hkept : ∀ a ∈ args.filter fun a => a.edit?.isNone, a ∈ args ∧ a.edit?.isNone = true :=
    fun a ha => List.mem_filter.mp ha
  refine ⟨Expr.every_call.mpr ⟨?_, fun a ha => (hvalues a (hkept a ha).1).1⟩,
    Expr.every_call.mpr ⟨?_, fun a ha => (hvalues a (hkept a ha).1).2⟩⟩
  · simp only [Expr.isLegible, Bool.and_eq_true, List.all_eq_true]
    refine ⟨⟨hname, fun a ha => hnames a (hkept a ha).1⟩, ?_⟩
    cases hlast : (args.filterMap Arg.edit?).getLast? with
    | none => rfl
    | some s =>
        obtain ⟨a, ha, hedit⟩ := List.mem_filterMap.mp (List.mem_of_getLast? hlast)
        exact isQuotable_of_edit? hedit (hvalues a ha).1
  · exact List.all_eq_true.mpr fun a ha => (hkept a ha).2

/-- **What tokens that can be written derive can be written**, and its calls keep no argument that
asks for an edit. -/
theorem Derives.isLegible {l : Level} {ts : List Token} {t : Expr} (h : Derives l ts t)
    (hts : ∀ x ∈ ts, x.isLegible = true) :
    t.every Expr.isLegible = true ∧ t.every Expr.isLifted = true := by
  induction h with
  | stronger _ _ ih => exact ih hts
  | chain _ _ _ iha ihb =>
      have ha := iha fun x hx => hts x (by simp [hx])
      have hb := ihb fun x hx => hts x (by simp [hx])
      exact ⟨Expr.every_binary.mpr ⟨rfl, ha.1, hb.1⟩, Expr.every_binary.mpr ⟨rfl, ha.2, hb.2⟩⟩
  | operand _ _ ih =>
      have ha := ih fun x hx => hts x (by simp [hx])
      exact ⟨Expr.every_unary.mpr ⟨rfl, ha.1⟩, Expr.every_unary.mpr ⟨rfl, ha.2⟩⟩
  | compared _ _ _ iha ihb =>
      have ha := iha fun x hx => hts x (by simp [hx])
      have hb := ihb fun x hx => hts x (by simp [hx])
      exact ⟨Expr.every_binary.mpr ⟨rfl, ha.1, hb.1⟩, Expr.every_binary.mpr ⟨rfl, ha.2, hb.2⟩⟩
  | @constant token c hc =>
      have htoken := hts token (by simp)
      refine ⟨?_, rfl⟩
      unfold constant? at hc
      split at hc <;> first
        | (obtain rfl := Option.some.inj hc; exact htoken)
        | exact absurd hc (by simp)
  | block kind name => exact ⟨hts (.identifier name) (by simp), rfl⟩
  | @list items _ ih =>
      have hitem : ∀ i ∈ items,
          i.2.every Expr.isLegible = true ∧ i.2.every Expr.isLifted = true := by
        intro i hi
        refine ih i hi fun x hx => hts x ?_
        have := mem_commaSeparated (List.mem_map_of_mem (f := Prod.fst) hi) hx
        simp [this]
      refine ⟨Expr.every_list.mpr ⟨rfl, ?_⟩, Expr.every_list.mpr ⟨rfl, ?_⟩⟩
      · intro t ht
        obtain ⟨i, hi, rfl⟩ := List.mem_map.mp ht
        exact (hitem i hi).1
      · intro t ht
        obtain ⟨i, hi, rfl⟩ := List.mem_map.mp ht
        exact (hitem i hi).2
  | @call function args _ ih =>
      have htokens : ∀ a ∈ args, ∀ x ∈ a.allTokens, x.isLegible = true := by
        intro a ha x hx
        have := mem_commaSeparated (List.mem_map_of_mem (f := WrittenArg.allTokens) ha) hx
        exact hts x (by simp [this])
      refine isLegible_mkCall (hts (.identifier function) (by simp)) ?_ ?_
      · intro a ha
        obtain ⟨w, hw, rfl⟩ := List.mem_map.mp ha
        obtain ⟨name?, tokens, value⟩ := w
        cases name? with
        | none => rfl
        | some name => exact htokens _ hw (.identifier name) List.mem_cons_self
      · intro a ha
        obtain ⟨w, hw, rfl⟩ := List.mem_map.mp ha
        have hvalue := ih w hw fun x hx => htokens w hw x (by
          unfold WrittenArg.allTokens
          split <;> simp [hx])
        obtain ⟨name?, tokens, value⟩ := w
        cases name? <;> exact hvalue
  | name name => exact ⟨hts (.identifier name) (by simp), rfl⟩
  | parens _ ih => exact ih fun x hx => hts x (by simp [hx])

end Grammar

/-! ### Queries -/

namespace Query

/-- What a command is read as can be written. -/
theorem isLegible_of_parse {cmd : String} {t : Expr} (h : parse cmd = .ok t) :
    t.every Expr.isLegible = true ∧ t.every Expr.isLifted = true := by
  unfold parse at h
  cases hts : tokens cmd with
  | error e =>
      rw [hts] at h
      exact absurd h (by simp [bind, Except.bind])
  | ok ts =>
      rw [hts] at h
      exact (Grammar.derives_of_parseTokens h).isLegible (Token.isLegible_of_tokens hts)

/-- **A query is read back as itself iff its numbers are finite.** -/
theorem reparse_iff_finite {cmd : String} {t : Expr} (h : parse cmd = .ok t) :
    parse t.text = .ok t ↔ t.every Expr.hasFiniteNumber = true := by
  obtain ⟨hlegible, hlifted⟩ := isLegible_of_parse h
  rw [Expr.parse_text_eq_readBack hlegible, ← Expr.readBack_eq_self_iff hlifted]
  exact ⟨Except.ok.inj, congrArg Except.ok⟩

/-- The tree of a sum that is multiplied. -/
def scaledSum : Expr :=
  .binary .mul
    (.binary .add (.literal (.num ⟨0x4004000000000000⟩)) (.literal (.num ⟨0x4059000000000000⟩)))
    (.literal (.num ⟨0x401C000000000000⟩))

/-- The tokens of the sum, in front of those of the rest. -/
theorem lexes_scaledSum : Token.Lexes "(2.50+1e2)*7".toList
    [.delimiter .openParen, .number ⟨0x4004000000000000⟩, .operator .plus,
      .number ⟨0x4059000000000000⟩, .delimiter .closeParen, .operator .times,
      .number ⟨0x401C000000000000⟩] := by
  have hseven : Token.next? "7".toList = some (.number ⟨0x401C000000000000⟩, []) := by decide +kernel
  have htimes : Token.next? "*7".toList = some (.operator .times, "7".toList) := by decide +kernel
  have hclose : Token.next? ")*7".toList = some (.delimiter .closeParen, "*7".toList) := by
    decide +kernel
  have hhundred : Token.next? "1e2)*7".toList =
      some (.number ⟨0x4059000000000000⟩, ")*7".toList) := by decide +kernel
  have hplus : Token.next? "+1e2)*7".toList = some (.operator .plus, "1e2)*7".toList) := by
    decide +kernel
  have hhalves : Token.next? "2.50+1e2)*7".toList =
      some (.number ⟨0x4004000000000000⟩, "+1e2)*7".toList) := by decide +kernel
  have hopen : Token.next? "(2.50+1e2)*7".toList =
      some (.delimiter .openParen, "2.50+1e2)*7".toList) := by decide +kernel
  exact ((((((Token.lexes_nil.cons hseven).cons htimes).cons hclose).cons hhundred).cons hplus).cons
    hhalves).cons hopen

/-- How the sum may be written. -/
theorem parse_scaledSum : parse "(2.50+1e2)*7" = .ok scaledSum := by
  have hframed : Command.Framed "(2.50+1e2)*7".toList := Command.Framed.of_forall (by decide) (by decide)
  have hconstant (x : Number) : Grammar.Derives .atom [.number x] (.literal (.num x)) := .constant rfl
  have hsum : Grammar.Derives .sum
      ([.number ⟨0x4004000000000000⟩] ++ .operator .plus :: [.number ⟨0x4059000000000000⟩])
      (.binary .add (.literal (.num ⟨0x4004000000000000⟩)) (.literal (.num ⟨0x4059000000000000⟩))) :=
    .chain (by decide) ((hconstant _).weaken (by decide)) ((hconstant _).weaken (by decide))
  have hparens := Grammar.Derives.parens (hsum.weaken (by decide))
  have hscaled : Grammar.Derives .product
      (_ ++ .operator .times :: [.number ⟨0x401C000000000000⟩]) scaledSum :=
    .chain (by decide) (hparens.weaken (by decide)) ((hconstant _).weaken (by decide))
  rw [parse, lexes_scaledSum.tokens_eq hframed]
  exact Grammar.parseTokens_of_derives (hscaled.weaken (by decide))

/-- All of its numbers are finite, so the query is read back as itself. -/
theorem reparse_iff_finite_scaledSum :
    parse "(2.50+1e2)*7" = .ok scaledSum ∧ scaledSum.text = "(2.5 + 100) * 7" ∧
      parse scaledSum.text = .ok scaledSum :=
  ⟨parse_scaledSum, by decide +kernel, (reparse_iff_finite parse_scaledSum).mpr (by decide +kernel)⟩

/-- The command `1e999` is read as infinity. -/
theorem parse_overflow : parse "1e999" = .ok (.literal (.num Number.infinity)) := by
  have hframed : Command.Framed "1e999".toList := Command.Framed.of_forall (by decide) (by decide)
  have hnext : Token.next? "1e999".toList = some (.number Number.infinity, []) := by
    decide +kernel
  have hatom : Grammar.Derives .atom [.number Number.infinity] (.literal (.num Number.infinity)) :=
    .constant rfl
  rw [parse, (Token.lexes_nil.cons hnext).tokens_eq hframed]
  exact Grammar.parseTokens_of_derives (hatom.weaken (by decide))

/-- Infinity is printed as a name, so the query `1e999` is not read back as itself. -/
theorem not_reparse_of_overflow :
    ¬∀ (cmd : String) (t : Expr), parse cmd = .ok t → parse t.text = .ok t := by
  intro h
  have hback := h "1e999" _ parse_overflow
  rw [Expr.parse_text_eq_readBack (by decide)] at hback
  have hfinite := (Expr.readBack_eq_self_iff (by decide)).mp (Except.ok.inj hback)
  exact absurd hfinite (by decide)

end Query

end ErrorAnalysis
