import Mathlib.Tactic
import ErrorAnalysis.Proofs.Grammar.Derivation

/-!
# What the Grammar Reads Is a Query

Each rule of the grammar is sound for its level of the language: what it reads derives the tree that
it yields. A rule is sound if the rule for whole expressions, which it uses between brackets, is
sound for disjunctions; the recursion closes by `sound_fix`.

The tokens that the rules for single operators and constants take are stated here once, as
selections, for soundness and completeness alike.

## Main results

* `selects_marks`: a choice between operators looks a token up in their table.
* `sound_leftAssociative`: a chain of operands, at any level that chains.
* `sound_expression`: **what is read as an expression is one.**
-/

namespace ErrorAnalysis

namespace Grammar

open ErrorAnalysis.Parser

/-! ### Single tokens -/

theorem selects_token (t : Token) : Selects (token t) fun x => if x = t then some x else none :=
  selects_equal Token.text t

theorem selects_mark {α : Type} (t : Token) (value : α) :
    Selects (mark t value) fun x => if x = t then some value else none :=
  ((selects_token t).map _).congr fun x => by split <;> rfl

theorem lookup_cons_eq_ite {α : Type} (m : Token × α) (table : List (Token × α)) (x : Token) :
    (m :: table).lookup x = if x = m.1 then some m.2 else table.lookup x := by
  rw [List.lookup_cons]
  by_cases hx : x = m.1
  · simp [hx]
  · simp [hx, beq_eq_false_iff_ne.mpr hx]

theorem mem_of_lookup {α : Type} {table : List (Token × α)} {mark : Token} {value : α}
    (h : table.lookup mark = some value) : (mark, value) ∈ table := by
  induction table with
  | nil => exact absurd h (by simp)
  | cons m table ih =>
      rw [lookup_cons_eq_ite] at h
      split at h
      · next hm =>
        obtain rfl := Option.some.inj h
        exact hm ▸ List.mem_cons_self
      · exact List.mem_cons_of_mem _ (ih h)

/-- A choice between operators looks a token up in their table. -/
theorem selects_marks {α : Type} (table : List (Token × α)) :
    Selects (choice (table.map fun m => mark m.1 m.2)) (table.lookup ·) := by
  induction table with
  | nil => exact selects_choice_nil
  | cons m table ih =>
      refine ((selects_mark m.1 m.2).choice_cons ih).congr fun x => ?_
      rw [lookup_cons_eq_ite]
      split <;> simp

theorem selects_orOp : Selects orOp (Level.disjunction.binaryOps.lookup ·) :=
  selects_marks Level.disjunction.binaryOps

theorem selects_andOp : Selects andOp (Level.conjunction.binaryOps.lookup ·) :=
  selects_marks Level.conjunction.binaryOps

theorem selects_additiveOp : Selects additiveOp (Level.sum.binaryOps.lookup ·) :=
  selects_marks Level.sum.binaryOps

theorem selects_multiplicativeOp : Selects multiplicativeOp (Level.product.binaryOps.lookup ·) :=
  selects_marks Level.product.binaryOps

theorem selects_signOp : Selects signOp (Level.signed.unaryOps.lookup ·) :=
  selects_marks Level.signed.unaryOps

theorem selects_notOp : Selects notOp (Level.negation.unaryOps.lookup ·) := by
  have h := (selects_token (.keyword .not)).choice_cons
    ((selects_token (.operator .caret)).choice_cons
      ((selects_token (.operator .tilde)).choice_cons selects_choice_nil))
  refine ((h.map fun _ => UnaryOp.not).named _).congr fun x => ?_
  simp only [Level.unaryOps, lookup_cons_eq_ite, List.lookup_nil]
  by_cases h1 : x = .keyword .not
  · simp [h1]
  · by_cases h2 : x = .operator .caret
    · simp [h2]
    · by_cases h3 : x = .operator .tilde <;> simp [h1, h2, h3]

theorem selects_literal : Selects literal constant? :=
  ((selects_satisfy _).named _).congr fun x => by
    cases x with
    | keyword k => cases k <;> rfl
    | _ => rfl

/-- The name of an identifier. -/
def identifierName? : Token → Option String
  | .identifier name => some name
  | _ => none

theorem identifierName?_eq_some {x : Token} {name : String} :
    identifierName? x = some name ↔ x = .identifier name := by
  cases x <;> simp [identifierName?]

theorem selects_identifier : Selects identifier identifierName? :=
  ((selects_satisfy _).named _).congr fun x => by cases x <;> rfl

theorem sound_token (t : Token) : Sound (token t) fun ts _ => ts = [t] := by
  refine (selects_token t).sound.mono ?_
  rintro ts a ⟨x, rfl, hx⟩
  obtain ⟨rfl, -⟩ : x = t ∧ x = a := by simpa using hx
  rfl

theorem sound_identifier : Sound identifier fun ts name => ts = [.identifier name] := by
  refine selects_identifier.sound.mono ?_
  rintro ts name ⟨x, rfl, hx⟩
  rw [identifierName?_eq_some.mp hx]

theorem sound_comma : Sound comma fun ts _ => ts = [.delimiter .comma] :=
  (sound_token _).named

/-! ### Atoms -/

section Rules

variable {e : Rule Expr}

theorem sound_block : Sound block (Derives .atom) := by
  refine (((selects_satisfy _).sound.pair sound_identifier).map.named).mono ?_
  rintro ts _ ⟨⟨kind, name⟩, ⟨xs, ys, rfl, ⟨x, rfl, hx⟩, rfl⟩, rfl⟩
  obtain rfl : x = .blockMark kind := by
    cases x <;> simp_all
  exact .block kind name

theorem sound_list (he : Sound e (Derives .disjunction)) : Sound (list e) (Derives .atom) := by
  refine (((sound_token _).between (sound_comma.separatedBy he) (sound_token _)).map.named).mono ?_
  rintro ts _ ⟨_, ⟨xs, ys, zs, -, -, rfl, rfl, ⟨items, rfl, rfl, hitems⟩, rfl⟩, rfl⟩
  exact .list hitems

/-- What is read as an argument is a value, or a name, an equals sign and a value. -/
theorem sound_argument (he : Sound e (Derives .disjunction)) :
    Sound (argument e) fun ts a => ∃ w : WrittenArg,
      Derives .disjunction w.tokens w.value ∧ ts = w.allTokens ∧ a = w.arg := by
  refine Sound.named (sound_choice ?_)
  rintro p (_ | ⟨_, _ | ⟨_, ⟨⟩⟩⟩)
  · refine ((sound_identifier.pair ((sound_token _).pair he)).map).mono ?_
    rintro ts _ ⟨⟨name, _, value⟩, ⟨_, _, rfl, rfl, _, tokens, rfl, rfl, hvalue⟩, rfl⟩
    exact ⟨⟨some name, tokens, value⟩, hvalue, rfl, rfl⟩
  · refine he.map.mono ?_
    rintro ts _ ⟨value, hvalue, rfl⟩
    exact ⟨⟨none, ts, value⟩, hvalue, rfl, rfl⟩

theorem sound_call (he : Sound e (Derives .disjunction)) : Sound (call e) (Derives .atom) := by
  have hargs := (sound_token (.delimiter .openParen)).between
    (sound_comma.separatedBy (sound_argument he)) (sound_token (.delimiter .closeParen))
  refine ((sound_identifier.pair hargs).map.named).mono ?_
  rintro ts _ ⟨⟨function, _⟩, ⟨xs, _, rfl, rfl, ys, zs, us, -, -, rfl, rfl,
    ⟨items, rfl, rfl, hitems⟩, rfl⟩, rfl⟩
  choose! written hwritten htokens harg using hitems
  have hfst : items.map Prod.fst = (items.map written).map WrittenArg.allTokens := by
    rw [List.map_map]
    exact List.map_congr_left htokens
  have hsnd : items.map Prod.snd = (items.map written).map WrittenArg.arg := by
    rw [List.map_map]
    exact List.map_congr_left harg
  rw [hfst, hsnd]
  refine .call function ?_
  intro a ha
  obtain ⟨i, hi, rfl⟩ := List.mem_map.mp ha
  exact hwritten i hi

theorem sound_parenthesized (he : Sound e (Derives .disjunction)) :
    Sound (parenthesized e) (Derives .atom) := by
  refine ((sound_token _).between he (sound_token _)).mono ?_
  rintro ts t ⟨xs, ys, zs, -, -, rfl, rfl, ht, rfl⟩
  exact .parens ht

theorem sound_atom (he : Sound e (Derives .disjunction)) : Sound (atom e) (Derives .atom) := by
  refine Sound.named (sound_choice ?_)
  rintro p (_ | ⟨_, _ | ⟨_, _ | ⟨_, _ | ⟨_, _ | ⟨_, _ | ⟨_, ⟨⟩⟩⟩⟩⟩⟩⟩)
  · refine selects_literal.sound.map.mono ?_
    rintro ts _ ⟨c, ⟨x, rfl, hc⟩, rfl⟩
    exact .constant hc
  · exact sound_block
  · exact sound_list he
  · exact sound_call he
  · refine sound_identifier.map.mono ?_
    rintro ts _ ⟨name, rfl, rfl⟩
    exact .name name
  · exact sound_parenthesized he

/-! ### Operators -/

/-- **Chains.** Operands with operators of a level between them are an expression of the level. -/
theorem sound_leftAssociative {l : Level} {op : Rule BinaryOp} {operand : Rule Expr}
    (hl : l ≠ .atom) (hop : Selects op (l.binaryOps.lookup ·))
    (hoperand : Sound operand (Derives l.next)) :
    Sound (leftAssociative op operand) (Derives l) := by
  refine ((hoperand.pair (hop.sound.pair hoperand).many).map).mono ?_
  rintro ts _ ⟨⟨first, _⟩, ⟨xs, _, rfl, hfirst, items, rfl, rfl, hitems⟩, rfl⟩
  have hlink : ∀ i ∈ items, ∃ k : Link, ((k.mark, k.op) ∈ l.binaryOps ∧
      Derives l.next k.tokens k.value) ∧ i.1 = k.allTokens ∧ i.2 = (k.op, k.value) := by
    intro i hi
    obtain ⟨_, ys, htokens, ⟨mark, rfl, hmark⟩, hy⟩ := hitems i hi
    exact ⟨⟨mark, i.2.1, ys, i.2.2⟩, ⟨mem_of_lookup hmark, hy⟩, htokens, rfl⟩
  choose! link hlink htokens hvalue using hlink
  have hfst : items.flatMap Prod.fst = (items.map link).flatMap Link.allTokens := by
    rw [List.flatMap_map]
    exact List.flatMap_congr htokens
  have hsnd : items.map Prod.snd = (items.map link).map fun k => (k.op, k.value) := by
    rw [List.map_map]
    exact List.map_congr_left hvalue
  rw [hfst, hsnd]
  refine derives_foldLeft (.stronger hl hfirst) _ ?_
  intro k hk
  obtain ⟨i, hi, rfl⟩ := List.mem_map.mp hk
  exact hlink i hi

/-- Operators of a level in front of an expression of the level are one. -/
theorem sound_operand {l : Level} {op : Rule UnaryOp} {p : Rule Expr}
    (hop : Selects op (l.unaryOps.lookup ·)) (hp : Sound p (Derives l)) :
    Sound ((pair op p).map fun (op, operand) => .unary op operand) (Derives l) := by
  refine ((hop.sound.pair hp).map).mono ?_
  rintro ts _ ⟨⟨op, operand⟩, ⟨_, ys, rfl, ⟨mark, rfl, hmark⟩, hy⟩, rfl⟩
  exact .operand (mem_of_lookup hmark) hy

/-- Operators of a level in front of an expression of the level, or an expression of the next one. -/
theorem sound_operands {l : Level} {op : Rule UnaryOp} {next self : Rule Expr} (hl : l ≠ .atom)
    (hop : Selects op (l.unaryOps.lookup ·)) (hnext : Sound next (Derives l.next)) (name : String)
    (hself : Sound self (Derives l)) :
    Sound (named name (choice [(pair op self).map fun (op, operand) => .unary op operand, next]))
      (Derives l) := by
  refine Sound.named (sound_choice ?_)
  rintro p (_ | ⟨_, _ | ⟨_, ⟨⟩⟩⟩)
  · exact sound_operand hop hself
  · exact hnext.mono fun _ _ h => .stronger hl h

theorem sound_signed (he : Sound e (Derives .disjunction)) : Sound (signed e) (Derives .signed) :=
  sound_fix fun _ hself => sound_operands (by decide) selects_signOp (sound_atom he) "unary" hself

theorem sound_multiplicative (he : Sound e (Derives .disjunction)) :
    Sound (multiplicative e) (Derives .product) :=
  (sound_leftAssociative (by decide) selects_multiplicativeOp (sound_signed he)).named

theorem sound_additive (he : Sound e (Derives .disjunction)) : Sound (additive e) (Derives .sum) :=
  (sound_leftAssociative (by decide) selects_additiveOp (sound_multiplicative he)).named

/-- What is read as a comparison operator is one. -/
theorem sound_comparisonOp : Sound comparisonOp fun ts op => (ts, op) ∈ comparisons := by
  refine Sound.named (sound_choice fun p hp => ?_)
  replace hp : p ∈ shortComparisons.map (fun m => mark m.1 m.2) ++ _ := hp
  rcases List.mem_append.mp hp with hp | hp
  · obtain ⟨⟨t, op⟩, hm, rfl⟩ := List.mem_map.mp hp
    refine (selects_mark t op).sound.mono ?_
    rintro ts op' ⟨x, rfl, hx⟩
    obtain ⟨rfl, rfl⟩ : x = t ∧ op = op' := by simpa using hx
    exact List.mem_append_left _ (List.mem_map_of_mem hm)
  · obtain rfl := List.mem_singleton.mp hp
    refine ((sound_token _).pair (sound_token _)).map.mono ?_
    rintro ts op ⟨_, ⟨xs, ys, rfl, rfl, rfl⟩, rfl⟩
    exact List.mem_append_right _ List.mem_cons_self

theorem sound_comparison (he : Sound e (Derives .disjunction)) :
    Sound (comparison e) (Derives .comparison) := by
  have hsum := sound_additive he
  refine ((hsum.pair (sound_comparisonOp.pair hsum).optional).map.named).mono ?_
  rintro ts _ ⟨⟨left, _⟩, ⟨xs, ys, rfl, hleft, ⟨rfl, rfl⟩ | ⟨⟨op, right⟩, hright, rfl⟩⟩, rfl⟩
  · rw [List.append_nil]
    exact .stronger (by decide) hleft
  · obtain ⟨marks, zs, rfl, hop, hright⟩ := hright
    rw [← List.append_assoc]
    exact .compared hop hleft hright

theorem sound_negation (he : Sound e (Derives .disjunction)) :
    Sound (negation e) (Derives .negation) :=
  sound_fix fun _ hself =>
    sound_operands (by decide) selects_notOp (sound_comparison he) "logical not" hself

theorem sound_disjunction (he : Sound e (Derives .disjunction)) :
    Sound (disjunction e) (Derives .disjunction) :=
  (sound_leftAssociative (by decide) selects_orOp
    (sound_leftAssociative (l := .conjunction) (by decide) selects_andOp
      (sound_negation he)).named).named

end Rules

/-- **What is read as an expression is one.** -/
theorem sound_expression : Sound expression (Derives .disjunction) :=
  sound_fix fun _ hself => (sound_disjunction hself).named

end Grammar

end ErrorAnalysis
