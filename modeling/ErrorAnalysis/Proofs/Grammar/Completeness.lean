import Mathlib.Tactic
import ErrorAnalysis.Query
import ErrorAnalysis.Proofs.Grammar.Soundness

/-!
# Every Query Is Read

The grammar backs up, takes the first alternative that succeeds, and repeats as often as it can. Yet
no derivation is hidden by an earlier choice. The tokens that may follow an expression of a level
do not go on with it, and the first tokens of an expression tell the alternatives apart: a name in
front of an equals sign starts no value, and an expression is never followed by a bracket that would
make a call of the name at its end.

A rule is complete below a length if it reads all shorter expressions of its level, wherever they
end. Brackets hold shorter expressions, so completeness climbs from the rule inside the brackets to
the rule around them, and by induction to every length.

## Main results

* `complete_leftAssociative`: greedy repetition reads all of a chain.
* `complete_atom`: no alternative hides another.
* `complete_expression`: **every expression is read.**
* `parseTokens_iff_derives`: the parser accepts exactly the language, in which no sequence of tokens
  has two trees.
-/

namespace ErrorAnalysis

namespace Grammar

open ErrorAnalysis.Parser

/-- The rule reads every expression of the level that is shorter than `n`, where it ends. -/
def Complete (n : ℕ) (l : Level) (p : Rule Expr) : Prop :=
  ∀ ⦃input pos ts t post⦄, Derives l ts t → ts.length < n → input.toList.drop pos = ts ++ post →
    l.Stops post → p input pos = .ok (t, pos + ts.length)

theorem Complete.mono {n m : ℕ} {l : Level} {p : Rule Expr} (h : Complete n l p) (hm : m ≤ n) :
    Complete m l p :=
  fun _ _ _ _ _ ht hlen hdrop hpost => h ht (hlen.trans_le hm) hdrop hpost

theorem Complete.named {n : ℕ} {l : Level} {p : Rule Expr} (h : Complete n l p) (rule : String) :
    Complete n l (named rule p) :=
  fun _ _ _ _ _ ht hlen hdrop hpost => named_eq_ok.mpr (h ht hlen hdrop hpost)

/-- **Recursion.** A rule that reads a little more than the rule it is given reads all it can once
it is given itself. -/
theorem complete_fix {n : ℕ} {l : Level} {rule : Rule Expr → Rule Expr}
    (h : ∀ m < n, ∀ fuel, Complete m l (fixFuel rule fuel) →
      Complete (m + 1) l (rule (fixFuel rule fuel))) :
    Complete n l (fix rule) := by
  have hfuel (fuel : ℕ) : ∀ m ≤ fuel, m ≤ n → Complete m l (fixFuel rule fuel) := by
    induction fuel with
    | zero =>
        rintro m hm - input pos ts t post - hlen
        omega
    | succ fuel ih =>
        intro m hm hmn
        cases m with
        | zero =>
            rintro input pos ts t post - hlen
            omega
        | succ m => exact h m (by omega) fuel (ih m (by omega) (by omega))
  intro input pos ts t post ht hlen hdrop hpost
  have hsize := (progress_of_drop ht.ne_nil hdrop).2
  exact hfuel (input.size - pos + 1) (ts.length + 1) (by omega) (by omega) ht (by omega) hdrop hpost

/-! ### Operators -/

theorem lookup_binaryOps {l : Level} {mark : Token} {op : BinaryOp}
    (h : (mark, op) ∈ l.binaryOps) : l.binaryOps.lookup mark = some op := by
  have key : ∀ u ∈ l.binaryOps, l.binaryOps.lookup u.1 = some u.2 := by cases l <;> decide
  exact key _ h

theorem lookup_unaryOps {l : Level} {mark : Token} {op : UnaryOp}
    (h : (mark, op) ∈ l.unaryOps) : l.unaryOps.lookup mark = some op := by
  have key : ∀ u ∈ l.unaryOps, l.unaryOps.lookup u.1 = some u.2 := by cases l <;> decide
  exact key _ h

theorem lookup_eq_none {α : Type} {table : List (Token × α)} {x : Token}
    (h : ∀ m ∈ table, m.1 ≠ x) : table.lookup x = none := by
  cases hx : table.lookup x with
  | none => rfl
  | some value => exact absurd rfl (h _ (mem_of_lookup hx))

/-- The operators of a chain with their operands are read in front of what does not go on with the
operand. -/
theorem readsItems_links {n : ℕ} {l : Level} {op : Rule BinaryOp} {operand : Rule Expr}
    (hop : Selects op (l.binaryOps.lookup ·)) (h : Complete n l.next operand) {links : List Link}
    (hlinks : ∀ k ∈ links, (k.mark, k.op) ∈ l.binaryOps ∧ Derives l.next k.tokens k.value)
    (hlen : (links.flatMap Link.allTokens).length < n) (input : Array Token) :
    ReadsItems (pair op operand) l.next.Stops input
      (links.map fun k => (k.allTokens, (k.op, k.value))) := by
  intro i hi
  obtain ⟨k, hk, rfl⟩ := List.mem_map.mp hi
  obtain ⟨hmark, hvalue⟩ := hlinks k hk
  have hlength : k.tokens.length < n := by
    have := (List.sublist_flatten_of_mem (List.mem_map_of_mem (f := Link.allTokens) hk)).length_le
    rw [← List.flatMap_def, Link.allTokens, List.length_cons] at this
    omega
  refine ⟨List.cons_ne_nil _ _, fun pos post hdrop hpost => ?_⟩
  have hrest := h hvalue hlength (drop_succ hdrop) hpost
  refine pair_eq_ok.mpr ⟨pos + 1, hop.reads hdrop (lookup_binaryOps hmark), hrest.trans ?_⟩
  simp only [Link.allTokens, List.length_cons]
  congr 2
  omega

/-- **Greedy chains.** Repetition takes all operands of a chain, and stops where it ends. -/
theorem complete_leftAssociative {n : ℕ} {l : Level} {op : Rule BinaryOp} {operand : Rule Expr}
    (hl : l ∈ Level.chaining) (hop : Selects op (l.binaryOps.lookup ·)) (h : Complete n l.next operand) :
    Complete n l (leftAssociative op operand) := by
  intro input pos ts t post ht hlen hdrop hpost
  obtain ⟨xs, a, links, ha, hlinks, rfl, rfl⟩ := ht.chain_inv hl
  rw [List.append_assoc] at hdrop
  rw [List.length_append] at hlen
  have hfollow : ∀ k ∈ links, ∀ ys, l.next.Stops (k.allTokens ++ ys) := by
    intro k hk ys
    obtain ⟨htight, hlt⟩ := Level.tightness_of_binaryOps (hlinks k hk).1
    exact Level.stops_cons.mpr (htight ▸ hlt)
  have hfirst : operand input pos = .ok (a, pos + xs.length) := by
    refine h ha (by omega) hdrop ?_
    cases links with
    | nil => exact hpost.next
    | cons k links =>
        rw [List.flatMap_cons, List.append_assoc]
        exact hfollow k List.mem_cons_self _
  have hend : ∀ ⦃pos⦄, input.toList.drop pos = post → Fails (pair op operand) input pos := by
    intro pos hdrop
    refine (hop.fails fun x hx => lookup_eq_none ?_).pair
    rintro m hm rfl
    have := hpost _ (hdrop ▸ hx)
    have := (Level.tightness_of_binaryOps hm).1
    omega
  have hfst : (links.map fun k => (k.allTokens, (k.op, k.value))).flatMap Prod.fst
      = links.flatMap Link.allTokens := List.flatMap_map ..
  have hmany := many_of_readsItems (readsItems_links hop h hlinks (by omega) input)
    (by
      intro i hi ys
      obtain ⟨k, hk, rfl⟩ := List.mem_map.mp hi
      exact hfollow k hk ys)
    hpost.next hend ((drop_add_length hdrop).trans (by rw [hfst]))
  rw [hfst, List.map_map] at hmany
  refine map_eq_ok.mpr ⟨_, pair_eq_ok.mpr ⟨_, hfirst, hmany.trans ?_⟩, rfl⟩
  rw [List.length_append, Nat.add_assoc]
  rfl

/-- **Repeated operators** in front of an expression of the next level are all read. -/
theorem complete_operand {n : ℕ} {l : Level} {op : Rule UnaryOp} {below : Rule Expr}
    (rule : String) (hl : l ∈ Level.prefixing)
    (hop : Selects op (l.unaryOps.lookup ·)) (h : Complete n l.next below) :
    Complete n l (fix fun self => named rule <|
      choice [(pair op self).map fun (op, operand) => .unary op operand, below]) := by
  refine complete_fix fun m hm fuel hself => Complete.named ?_ rule
  intro input pos ts t post ht hlen hdrop hpost
  rcases ht.operand_inv hl with ⟨mark, u, xs, a, hmark, ha, rfl, rfl⟩ | ht
  · rw [List.length_cons] at hlen
    have hrest := hself ha (by omega) (drop_succ hdrop) hpost
    refine choice_of_ok (map_eq_ok.mpr ⟨(u, a), pair_eq_ok.mpr ⟨pos + 1, ?_, ?_⟩, rfl⟩)
    · exact hop.reads hdrop (lookup_unaryOps hmark)
    · rw [hrest, List.length_cons]
      congr 2
      omega
  · have hfails : Fails op input pos := by
      obtain ⟨first, rest, rfl, hfirst⟩ := ht.exists_cons
      refine hop.fails fun x hx => lookup_eq_none ?_
      rintro u hu rfl
      obtain rfl : first = u.1 := by simpa [hdrop] using hx
      have hlt : ∀ l ∈ Level.prefixing, l.rank < l.next.rank := by decide
      have := hlt l hl
      have := Level.opening_of_unaryOps hu
      omega
    exact choice_of_fails hfails.pair.map (choice_of_ok (h ht (by omega) hdrop hpost.next))

theorem comparisonOp_of_mem {input : Array Token} {pos : ℕ} {marks post : List Token}
    {op : BinaryOp} (h : (marks, op) ∈ comparisons) (hdrop : input.toList.drop pos = marks ++ post) :
    comparisonOp input pos = .ok (op, pos + marks.length) := by
  have hshort := selects_marks shortComparisons
  refine named_eq_ok.mpr ?_
  rcases List.mem_append.mp h with h | h
  · obtain ⟨⟨t, op'⟩, hm, heq⟩ := List.mem_map.mp h
    obtain ⟨rfl, rfl⟩ := Prod.mk.inj heq
    have key : ∀ m ∈ shortComparisons, shortComparisons.lookup m.1 = some m.2 := by decide
    exact choice_append_of_ok (hshort.reads hdrop (key _ hm))
  · obtain ⟨rfl, rfl⟩ := Prod.mk.inj (List.mem_singleton.mp h)
    have hnot := (selects_token (.keyword .not)).reads hdrop (a := .keyword .not) (by simp)
    have hin := (selects_token (.keyword .in)).reads
      (drop_succ hdrop) (a := .keyword .in) (by simp)
    refine choice_append_of_fails (hshort.fails ?_)
      (choice_of_ok (map_eq_ok.mpr ⟨_, pair_eq_ok.mpr ⟨_, hnot, hin⟩, rfl⟩))
    intro x hx
    obtain rfl : Token.keyword .not = x := by simpa [hdrop] using hx
    decide

theorem fails_comparisonOp {input : Array Token} {pos : ℕ}
    (h : ∀ x ∈ (input.toList.drop pos).head?, tightness x ≠ 4) :
    Fails comparisonOp input pos := by
  refine sound_comparisonOp.fails fun marks op post hmarks hdrop => ?_
  obtain ⟨first, rest, rfl, hfirst⟩ := exists_cons_of_comparisons hmarks
  exact h first (by simp [hdrop]) hfirst

section Rules

variable {n : ℕ} {e : Rule Expr}

/-- A comparison is read if it is there, and nothing else is taken for one. -/
theorem complete_comparison (h : Complete n .sum (additive e)) :
    Complete n .comparison (comparison e) := by
  refine Complete.named ?_ "comparison"
  intro input pos ts t post ht hlen hdrop hpost
  cases ht with
  | stronger _ ht =>
      have hfails : Fails comparisonOp input (pos + ts.length) := by
        refine fails_comparisonOp fun x hx => ?_
        rw [drop_add_length hdrop] at hx
        exact (hpost x hx).ne
      exact map_eq_ok.mpr ⟨_, pair_eq_ok.mpr
        ⟨_, h ht hlen hdrop hpost.next, optional_of_fails hfails.pair⟩, rfl⟩
  | @compared xs marks ys op a b hop ha hb =>
      simp only [List.append_assoc] at hdrop
      simp only [List.length_append] at hlen ⊢
      have hleft : additive e input pos = .ok (a, pos + xs.length) := by
        refine h ha (by omega) hdrop ?_
        obtain ⟨first, rest, rfl, hfirst⟩ := exists_cons_of_comparisons hop
        exact Level.stops_cons.mpr (hfirst ▸ by decide)
      have hmarks := comparisonOp_of_mem hop (drop_add_length hdrop)
      have hright := h hb (by omega) (drop_add_length (drop_add_length hdrop)) hpost.next
      refine map_eq_ok.mpr ⟨(a, some (op, b)), pair_eq_ok.mpr
        ⟨_, hleft, optional_of_ok (pair_eq_ok.mpr ⟨_, hmarks, hright.trans ?_⟩)⟩, rfl⟩
      congr 2
      omega
  | operand hop => exact absurd hop (by simp [Level.unaryOps])
  | chain hop => exact absurd hop (by simp [Level.binaryOps])

/-! ### Atoms -/

variable {input : Array Token} {pos : ℕ} {first : Token} {rest : List Token}

theorem fails_token {t : Token} (hdrop : input.toList.drop pos = first :: rest) (h : first ≠ t) :
    Fails (token t) input pos :=
  (selects_token t).fails (by simp [hdrop, h])

theorem token_eq_ok {t : Token} (hdrop : input.toList.drop pos = t :: rest) :
    token t input pos = .ok (t, pos + 1) :=
  (selects_token t).reads hdrop (by simp)

theorem fails_identifier (hdrop : input.toList.drop pos = first :: rest)
    (h : ∀ name, first ≠ .identifier name) : Fails identifier input pos := by
  refine sound_identifier.fails fun ts name post hts hcontra => ?_
  rw [hts, hdrop] at hcontra
  exact h name (List.cons.inj hcontra).1

theorem identifier_eq_ok {name : String} (hdrop : input.toList.drop pos = .identifier name :: rest) :
    identifier input pos = .ok (name, pos + 1) :=
  selects_identifier.reads hdrop rfl

theorem fails_block (hdrop : input.toList.drop pos = first :: rest)
    (h : ∀ kind, first ≠ .blockMark kind) : Fails block input pos := by
  refine (((selects_satisfy _).fails fun x hx => ?_).pair.map).named
  obtain rfl : first = x := by simpa [hdrop] using hx
  cases first with
  | blockMark kind => exact absurd rfl (h kind)
  | _ => rfl

/-- An expression does not start with a token that opens none. -/
theorem fails_of_opening_eq_zero {p : Rule Expr} {l : Level} (hp : Sound p (Derives l))
    (hdrop : input.toList.drop pos = first :: rest) (h : opening first = 0) :
    Fails p input pos := by
  refine hp.fails fun ts t post ht hcontra => ?_
  obtain ⟨first', rest', rfl, hfirst⟩ := ht.exists_cons
  obtain rfl : first = first' := (List.cons.inj (hdrop.symm.trans hcontra)).1
  have : 1 ≤ l.rank := by cases l <;> decide
  omega

/-- A written argument starts with its name or like its value. -/
theorem exists_cons_allTokens {w : WrittenArg} (h : Derives .disjunction w.tokens w.value) :
    ∃ first rest, w.allTokens = first :: rest ∧ 1 ≤ opening first := by
  cases w with
  | mk name? tokens value =>
      cases name? with
      | none => exact h.exists_cons
      | some name => exact ⟨_, _, rfl, by simp [opening]⟩

/-- **Arguments.** A name and an equals sign are read as such, and never hide a value. -/
theorem argument_eq_ok {w : WrittenArg} {post : List Token} (he : Complete n .disjunction e)
    (h : Derives .disjunction w.tokens w.value) (hlen : w.allTokens.length < n)
    (hdrop : input.toList.drop pos = w.allTokens ++ post) (hpost : Level.disjunction.Stops post) :
    argument e input pos = .ok (w.arg, pos + w.allTokens.length) := by
  refine named_eq_ok.mpr ?_
  cases w with
  | mk name? tokens value =>
      cases name? with
      | some name =>
          replace h : Derives .disjunction tokens value := h
          simp only [WrittenArg.allTokens, List.length_cons] at hlen hdrop ⊢
          have hassign := drop_succ hdrop
          have hvalue := he h (by omega) (drop_succ hassign) hpost
          refine choice_of_ok (map_eq_ok.mpr ⟨(name, .operator .assign, value), ?_, rfl⟩)
          refine pair_eq_ok.mpr ⟨_, identifier_eq_ok hdrop, pair_eq_ok.mpr
            ⟨_, token_eq_ok hassign, hvalue.trans ?_⟩⟩
          congr 2
          omega
      | none =>
          have hassign : post.head? ≠ some (.operator .assign) := fun hhead =>
            absurd (hpost _ hhead) (by decide)
          have hfails : Fails (triple identifier (token (.operator .assign)) e) input pos := by
            have hprefix := sound_identifier.pair (sound_token (Token.operator .assign))
            refine fails_of_forall_ne ?_
            rintro ⟨⟨name, mark, value'⟩, next⟩ hr
            obtain ⟨mid, hname, hr⟩ := pair_eq_ok.mp hr
            obtain ⟨start, hmark, -⟩ := pair_eq_ok.mp hr
            obtain ⟨ts, hts, -, xs, ys, rfl, rfl, rfl⟩ :=
              hprefix (pair_eq_ok.mpr ⟨mid, hname, hmark⟩)
            exact h.not_assignment hassign name _ (hdrop.symm.trans hts)
          exact choice_of_fails hfails.map
            (choice_of_ok (map_eq_ok.mpr ⟨value, he h hlen hdrop hpost, rfl⟩))

/-- Items between brackets are all read. -/
theorem between_separatedBy_eq_ok {α : Type} {p : Rule α} {items : List (List Token × α)}
    {opens closes : Token} {post : List Token}
    (hcloses : closes ≠ .delimiter .comma) (hstops : Level.disjunction.Stops (closes :: post))
    (hitems : ReadsItems p Level.disjunction.Stops input items)
    (hempty : ∀ ⦃pos⦄, input.toList.drop pos = closes :: post → Fails p input pos)
    (hdrop : input.toList.drop pos
      = opens :: (commaSeparated (items.map Prod.fst) ++ closes :: post)) :
    between (token opens) (separatedBy comma p) (token closes) input pos
      = .ok (items.map Prod.snd, pos + (commaSeparated (items.map Prod.fst)).length + 2) := by
  have hinner := drop_succ hdrop
  have hcomma : ∀ ⦃pos ys⦄, input.toList.drop pos = .delimiter .comma :: ys →
      ∃ t, comma input pos = .ok (t, pos + 1) :=
    fun pos ys hdrop => ⟨_, named_eq_ok.mpr (token_eq_ok hdrop)⟩
  have hread := separatedBy_of_readsItems hitems (fun ys => Level.stops_cons.mpr (by decide)) hstops
    hcomma (fun pos hdrop => (fails_token hdrop hcloses).named) hempty hinner
  have hclose := token_eq_ok (drop_add_length hinner)
  refine between_eq_ok.mpr ⟨opens, _, closes, _, token_eq_ok hdrop, hread, hclose.trans ?_⟩
  congr 2
  simp only [commaSeparated]
  omega

theorem list_eq_ok (hsound : Sound e (Derives .disjunction)) (he : Complete n .disjunction e)
    {items : List (List Token × Expr)} {post : List Token}
    (hitems : ∀ i ∈ items, Derives .disjunction i.1 i.2)
    (hlen : (commaSeparated (items.map Prod.fst)).length < n)
    (hdrop : input.toList.drop pos = .delimiter .openBracket ::
      (commaSeparated (items.map Prod.fst) ++ .delimiter .closeBracket :: post)) :
    list e input pos
      = .ok (.list (items.map Prod.snd), pos + (commaSeparated (items.map Prod.fst)).length + 2) := by
  have hread : ReadsItems e Level.disjunction.Stops input items := by
    intro i hi
    have hbound : i.1.length ≤ (commaSeparated (items.map Prod.fst)).length :=
      length_le_separated (List.mem_map_of_mem hi)
    exact ⟨(hitems i hi).ne_nil, fun pos post hdrop hpost =>
      he (hitems i hi) (by omega) hdrop hpost⟩
  have hbetween := between_separatedBy_eq_ok (by decide) (Level.stops_cons.mpr (by decide)) hread
    (fun pos hdrop => fails_of_opening_eq_zero hsound hdrop rfl) hdrop
  exact named_eq_ok.mpr (map_eq_ok.mpr ⟨_, hbetween, rfl⟩)

theorem call_eq_ok (hsound : Sound e (Derives .disjunction)) (he : Complete n .disjunction e)
    {function : String} {args : List WrittenArg} {post : List Token}
    (hargs : ∀ a ∈ args, Derives .disjunction a.tokens a.value)
    (hlen : (commaSeparated (args.map (·.allTokens))).length < n)
    (hdrop : input.toList.drop pos = .identifier function :: .delimiter .openParen ::
      (commaSeparated (args.map (·.allTokens)) ++ .delimiter .closeParen :: post)) :
    call e input pos = .ok (.mkCall function (args.map (·.arg)),
      pos + (commaSeparated (args.map (·.allTokens))).length + 3) := by
  let items := args.map fun w => (w.allTokens, w.arg)
  have hfst : items.map Prod.fst = args.map (·.allTokens) := List.map_map ..
  have hsnd : items.map Prod.snd = args.map (·.arg) := List.map_map ..
  have hread : ReadsItems (argument e) Level.disjunction.Stops input items := by
    intro i hi
    obtain ⟨w, hw, rfl⟩ := List.mem_map.mp hi
    have hbound : w.allTokens.length ≤ (commaSeparated (args.map (·.allTokens))).length :=
      length_le_separated (List.mem_map_of_mem hw)
    obtain ⟨first, rest, hcons, -⟩ := exists_cons_allTokens (hargs w hw)
    refine ⟨fun hnil => List.cons_ne_nil first rest (hcons.symm.trans hnil), ?_⟩
    exact fun pos post hdrop hpost => argument_eq_ok he (hargs w hw) (by omega) hdrop hpost
  have hempty : ∀ ⦃pos⦄, input.toList.drop pos = .delimiter .closeParen :: post →
      Fails (argument e) input pos := by
    intro pos hdrop
    refine (sound_argument hsound).fails ?_
    rintro ts a post ⟨w, hw, rfl, rfl⟩ hcontra
    obtain ⟨first, rest, hcons, hfirst⟩ := exists_cons_allTokens hw
    rw [hdrop, hcons] at hcontra
    obtain rfl := (List.cons.inj hcontra).1
    exact absurd hfirst (by decide)
  rw [← hfst] at hdrop
  have hbetween := between_separatedBy_eq_ok (by decide) (Level.stops_cons.mpr (by decide)) hread
    hempty (drop_succ hdrop)
  rw [hfst, hsnd] at hbetween
  refine named_eq_ok.mpr (map_eq_ok.mpr
    ⟨_, pair_eq_ok.mpr ⟨_, identifier_eq_ok hdrop, hbetween.trans ?_⟩, rfl⟩)
  congr 2
  omega

theorem parenthesized_eq_ok (he : Complete n .disjunction e) {ts post : List Token} {t : Expr}
    (ht : Derives .disjunction ts t) (hlen : ts.length < n)
    (hdrop : input.toList.drop pos = .delimiter .openParen ::
      (ts ++ .delimiter .closeParen :: post)) :
    parenthesized e input pos = .ok (t, pos + ts.length + 2) := by
  have hinner := drop_succ hdrop
  have hread := he ht hlen hinner (Level.stops_cons.mpr (by decide))
  have hclose := token_eq_ok (drop_add_length hinner)
  refine between_eq_ok.mpr
    ⟨_, _, Token.delimiter .closeParen, _, token_eq_ok hdrop, hread, hclose.trans ?_⟩
  congr 2
  omega

/-- **No alternative hides another**: each atom is read in front of whatever may follow it. -/
theorem complete_atom (hsound : Sound e (Derives .disjunction))
    (he : Complete n .disjunction e) : Complete (n + 1) .atom (atom e) := by
  refine Complete.named ?_ "atom"
  intro input pos ts t post ht hlen hdrop hpost
  have hliteral {first : Token} {rest : List Token} (hdrop : input.toList.drop pos = first :: rest)
      (h : constant? first = none) : Fails (map Expr.literal literal) input pos :=
    (selects_literal.fails (by simp [hdrop, h])).map
  have hlist {first : Token} {rest : List Token} (hdrop : input.toList.drop pos = first :: rest)
      (h : first ≠ .delimiter .openBracket) : Fails (list e) input pos :=
    (fails_token hdrop h).between.map.named
  cases ht with
  | stronger hne => exact absurd rfl hne
  | chain hop => exact absurd hop (by simp [Level.binaryOps])
  | operand hop => exact absurd hop (by simp [Level.unaryOps])
  | @constant token c hc =>
      exact choice_of_ok (map_eq_ok.mpr ⟨c, selects_literal.reads hdrop hc, rfl⟩)
  | block kind name =>
      have hname := identifier_eq_ok (drop_succ hdrop)
      refine choice_of_fails (hliteral hdrop rfl) (choice_of_ok ?_)
      exact named_eq_ok.mpr (map_eq_ok.mpr
        ⟨_, pair_eq_ok.mpr ⟨_, (selects_satisfy _).reads hdrop rfl, hname⟩, rfl⟩)
  | @list items hitems =>
      simp only [List.length_cons, List.length_append, List.length_nil] at hlen ⊢
      rw [List.cons_append, List.append_assoc] at hdrop
      refine choice_of_fails (hliteral hdrop rfl)
        (choice_of_fails (fails_block hdrop (by simp)) (choice_of_ok ?_))
      exact list_eq_ok hsound he hitems (by omega) hdrop
  | @call function args hargs =>
      simp only [List.length_cons, List.length_append, List.length_nil] at hlen ⊢
      rw [List.cons_append, List.cons_append, List.append_assoc] at hdrop
      refine choice_of_fails (hliteral hdrop rfl) (choice_of_fails (fails_block hdrop (by simp))
        (choice_of_fails (hlist hdrop (by simp)) (choice_of_ok ?_)))
      exact call_eq_ok hsound he hargs (by omega) hdrop
  | name name =>
      have hname := identifier_eq_ok hdrop
      have hparen : Fails (token (.delimiter .openParen)) input (pos + 1) := by
        refine (selects_token _).fails fun x hx => ?_
        rw [drop_succ hdrop] at hx
        have hx' : x ≠ .delimiter .openParen := by
          rintro rfl
          exact absurd (hpost _ hx) (by decide)
        exact if_neg hx'
      refine choice_of_fails (hliteral hdrop rfl) (choice_of_fails (fails_block hdrop (by simp))
        (choice_of_fails (hlist hdrop (by simp))
          (choice_of_fails (Fails.pair_right hname hparen.between).map.named (choice_of_ok ?_))))
      exact map_eq_ok.mpr ⟨name, hname, rfl⟩
  | @parens ts t ht =>
      simp only [List.length_cons, List.length_append, List.length_nil] at hlen ⊢
      rw [List.cons_append, List.append_assoc] at hdrop
      have hname := fails_identifier hdrop (by simp)
      refine choice_of_fails (hliteral hdrop rfl) (choice_of_fails (fails_block hdrop (by simp))
        (choice_of_fails (hlist hdrop (by simp)) (choice_of_fails hname.pair.map.named
          (choice_of_fails hname.map (choice_of_ok ?_)))))
      exact parenthesized_eq_ok he ht (by omega) hdrop

/-! ### Levels -/

/-- One step of the recursion: a rule that reads expressions shorter than `n` between brackets
reads expressions shorter than `n + 1`. -/
theorem complete_disjunction (hsound : Sound e (Derives .disjunction))
    (he : Complete n .disjunction e) : Complete (n + 1) .disjunction (disjunction e) := by
  have hsigned : Complete (n + 1) .signed (signed e) :=
    complete_operand "unary" (by decide) selects_signOp (complete_atom hsound he)
  have hproduct : Complete (n + 1) .product (multiplicative e) :=
    (complete_leftAssociative (by decide) selects_multiplicativeOp hsigned).named _
  have hsum : Complete (n + 1) .sum (additive e) :=
    (complete_leftAssociative (by decide) selects_additiveOp hproduct).named _
  have hnegation : Complete (n + 1) .negation (negation e) :=
    complete_operand "logical not" (by decide) selects_notOp (complete_comparison hsum)
  have hconjunction : Complete (n + 1) .conjunction (conjunction e) :=
    (complete_leftAssociative (by decide) selects_andOp hnegation).named _
  exact (complete_leftAssociative (by decide) selects_orOp hconjunction).named _

end Rules

/-- **Every expression is read**, however long it is. -/
theorem complete_expression (n : ℕ) : Complete n .disjunction expression := by
  refine complete_fix fun m _ fuel hself => ?_
  have hsound : Sound (fixFuel (fun self => named "expression" (disjunction self)) fuel)
      (Derives .disjunction) :=
    sound_fixFuel (fun _ h => (sound_disjunction h).named) fuel
  exact (complete_disjunction hsound hself).named _

/-! ### The parser -/

theorem derives_of_parseTokens {ts : List Token} {t : Expr} (h : Query.parseTokens ts = .ok t) :
    Derives .disjunction ts t := by
  obtain ⟨r, hr⟩ : ∃ r, expression ts.toArray 0 = r := ⟨_, rfl⟩
  unfold Query.parseTokens at h
  rw [hr] at h
  cases r with
  | error e => exact absurd h (by simp)
  | ok r =>
      obtain ⟨x, pos⟩ := r
      obtain ⟨xs, hxs, rfl, hd⟩ := sound_expression hr
      dsimp only at h
      split at h
      · exact absurd h (by simp)
      · next hpos =>
        obtain rfl := Except.ok.inj h
        have hnil : ts.drop (0 + xs.length) = [] := List.drop_eq_nil_of_le (by omega)
        simp only [List.drop_zero, hnil, List.append_nil] at hxs
        exact hxs ▸ hd

theorem parseTokens_of_derives {ts : List Token} {t : Expr} (h : Derives .disjunction ts t) :
    Query.parseTokens ts = .ok t := by
  have hread : expression ts.toArray 0 = .ok (t, 0 + ts.length) :=
    complete_expression (ts.length + 1) h (Nat.lt_succ_self _) (List.append_nil ts).symm
      (Level.stops_nil _)
  unfold Query.parseTokens
  rw [hread]
  exact if_neg (by omega)

/-- **The parser accepts exactly the language of queries**, and reads each query as the one tree
that it has. -/
theorem parseTokens_iff_derives :
    (∀ (ts : List Token) (t : Expr), Query.parseTokens ts = .ok t ↔ Derives .disjunction ts t) ∧
      ∀ (ts : List Token) (t u : Expr),
        Derives .disjunction ts t → Derives .disjunction ts u → t = u := by
  refine ⟨fun ts t => ⟨derives_of_parseTokens, parseTokens_of_derives⟩, ?_⟩
  intro ts t u ht hu
  exact Except.ok.inj ((parseTokens_of_derives ht).symm.trans (parseTokens_of_derives hu))

end Grammar

end ErrorAnalysis
