import ErrorAnalysis.Proofs.Lexing.Tiling

/-!
# The Tokens of a Command Can Be Written

Whatever a command holds, the tokens that it is cut into can be written in a query again. Names are
read as names, numbers are read from digits and have no sign, and a text between quotes holds only
what an escape puts there and what the normalised command has, in which none of the marks is left that
normalising folds.

## Main results

* `isLegible_of_next?`: a token that is read can be written.
* `isLegible_of_tokens`: **all tokens of a command can be written.**
-/

namespace ErrorAnalysis

namespace Token

/-- Whether the name, number or text of a token can be written in a query. -/
def isLegible : Token → Bool
  | .identifier name => Expr.isName name
  | .number x => !x.isNegative && !x.isNaN
  | .str s => Expr.isQuotable s
  | _ => true

/-! ### Single tokens -/

/-- The inside of a text between quotes holds nothing that cannot be quoted if the command does
not. -/
theorem quotable_of_unescapeLiteral? {cs : List Char} {r : List Char × List Char}
    (h : unescapeLiteral? cs = some r) (hcs : ∀ c ∈ cs, c ∉ Expr.unquotable) :
    ∀ c ∈ r.1, c ∉ Expr.unquotable := by
  fun_induction unescapeLiteral? cs generalizing r with
  | case1 => exact absurd h (by simp)
  | case2 rest =>
      obtain rfl := Option.some.inj h
      simp
  | case3 => exact absurd h (by simp)
  | case4 c rest ih =>
      simp only [Option.bind_eq_bind, Option.bind_eq_some_iff, Option.pure_def,
        Option.some.injEq] at h
      obtain ⟨x, hx, r', hr', rfl⟩ := h
      have hescape : x ∉ Expr.unquotable := by
        unfold unescapeChar? at hx
        split_ifs at hx <;> obtain rfl := Option.some.inj hx <;> decide
      exact List.forall_mem_cons.mpr ⟨hescape, ih hr' fun d hd => hcs d (by simp [hd])⟩
  | case5 c rest _ _ _ ih =>
      simp only [Option.bind_eq_bind, Option.bind_eq_some_iff, Option.pure_def,
        Option.some.injEq] at h
      obtain ⟨r', hr', rfl⟩ := h
      obtain ⟨hc, hrest⟩ := List.forall_mem_cons.mp hcs
      exact List.forall_mem_cons.mpr ⟨hc, ih hr' hrest⟩

/-- A number has no sign. -/
theorem isLegible_of_readNumber? {cs : List Char} {r : Number × List Char}
    (h : readNumber? cs = some r) : isLegible (.number r.1) = true := by
  unfold readNumber? at h
  dsimp only at h
  split at h
  · exact absurd h (by simp)
  · obtain rfl := Option.some.inj h
    rw [isLegible, (Number.sign_ofDecimal _).1, (Number.sign_ofDecimal _).2]
    rfl

theorem isLegible_of_readMark? {cs : List Char} {r : Token × List Char}
    (h : readMark? cs = some r) : r.1.isLegible = true := by
  revert h
  fun_cases readMark? cs
  case case24 => simp
  all_goals
    intro h
    obtain rfl := Option.some.inj h
    rfl

/-- A word is a reserved word or a name. -/
theorem isLegible_ofName {cs : List Char} (h : IsWord cs) :
    (ofName (String.ofList cs)).isLegible = true := by
  obtain ⟨c, tail, rfl, hc, htail⟩ := h
  unfold ofName
  split
  · rfl
  · next hnone =>
    have hall : tail.all continuesName = true := List.all_eq_true.mpr htail
    simp only [isLegible, Expr.isName, String.toList_ofList, hc, hall, hnone]
    rfl

theorem isLegible_of_readRun? {c : Char} {rest : List Char} {r : Token × List Char}
    (h : readRun? c rest = some r) (hrest : ∀ d ∈ rest, d ∉ Expr.unquotable) :
    r.1.isLegible = true := by
  unfold readRun? at h
  split at h
  · obtain ⟨r', hr', rfl⟩ := Option.map_eq_some_iff.mp h
    simpa [isLegible, Expr.isQuotable] using quotable_of_unescapeLiteral? hr' hrest
  split at h
  · obtain rfl := Option.some.inj h
    rfl
  split at h
  · obtain ⟨r', hr', rfl⟩ := Option.map_eq_some_iff.mp h
    exact isLegible_of_readNumber? hr'
  split at h
  · next hc =>
    obtain rfl := Option.some.inj h
    exact isLegible_ofName ⟨c, _, rfl, hc, List.all_eq_true.mp List.all_takeWhile⟩
  · exact absurd h (by simp)

/-- **A token that is read can be written.** -/
theorem isLegible_of_next? {cs : List Char} {r : Token × List Char} (h : next? cs = some r)
    (hcs : ∀ c ∈ cs, c ∉ Expr.unquotable) : r.1.isLegible = true := by
  revert h
  fun_cases next? cs with
  | case1 => simp
  | case2 c rest r' hr' =>
      intro h
      obtain rfl := Option.some.inj h
      exact isLegible_of_readMark? hr'
  | case3 c rest _ =>
      intro h
      exact isLegible_of_readRun? h fun d hd => hcs d (List.mem_cons_of_mem _ hd)

/-! ### Commands -/

theorem isLegible_of_scanFrom {position : ℕ} {cs : List Char} {located : List Located}
    (h : scanFrom position cs = .ok located) (hcs : ∀ c ∈ cs, c ∉ Expr.unquotable) :
    ∀ l ∈ located, l.token.isLegible = true := by
  revert hcs
  refine scan_ok_induction (by simp) (fun position word rest t ls _ hword _ ih hcs => ?_) h
  exact List.forall_mem_cons.mpr ⟨isLegible_of_next? (hword rest List.prefix_rfl) hcs,
    ih (List.forall_mem_append.mp hcs).2⟩

/-- **All tokens of a command can be written.** -/
theorem isLegible_of_tokens {cmd : String} {ts : List Token} (h : Query.tokens cmd = .ok ts) :
    ∀ t ∈ ts, t.isLegible = true := by
  unfold Query.tokens at h
  split at h
  · exact absurd h (by simp)
  · next located hscan =>
    obtain rfl := Except.ok.inj h
    intro t ht
    obtain ⟨l, hl, rfl⟩ := List.mem_map.mp (List.mem_filter.mp ht).1
    exact isLegible_of_scanFrom hscan (fun c hc => (Command.isControlBlank_of_mem_normalize hc).2) l hl

end Token

end ErrorAnalysis
