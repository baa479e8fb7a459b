import ErrorAnalysis.Proofs.Blocks.Memoization
import ErrorAnalysis.Proofs.Dependencies.Flags

/-!
# Queries that do not Depend on the Selected Edit

The selected edit is read in one place: where a call asks for it, by itself or because its function
declares it. A query without a dependency on the edit therefore has the same values whatever edit is
selected, with one exception. The dependencies of a call take a parameter that the caller gives for
settled, while evaluation reads the declaration of the function all the same. If such a call gives the
parameter by position, it depends on the selected edit and does not say so.

## Main definitions

* `Registry.LeavesEditOut`: a call leaves the parameter for the edit to its default.

## Main results

* `Registry.evaluate_setEdit`: **a current query without a dependency on the edit, whose calls leave
  the parameter for it out, does not change with the selected edit.**
* `Registry.evaluateOver_of_not_shouldRecompute_edit`: nor does what is recorded for a block.
* `Registry.valueOn_setEdit_countByPosition`: a query that gives the parameter by position does.
-/

namespace ErrorAnalysis

namespace Registry

variable {r : Registry} {rid rid' : String} {s : Scope}

/-- A call that asks for no edit leaves the parameter for it to its default, if this is the selected
one. -/
def LeavesEditOut (r : Registry) : Expr → Prop
  | .call function args none => ∀ f p, r.functions.get function = .ok f →
      f.param? "rewrite" = some p → p.default?.bind Value.str? = some Ambient.selected →
      p ∈ omittedParams f args false
  | _ => True

/-! ### Calls -/

section Calls

variable {function : String} {args : List Arg} {edit? : Option String} {f : Function}

/-- A call without a dependency on the edit does not ask for the selected one, and nor does its
function. -/
theorem ne_selected_of_asked (hf : r.functions.get function = .ok f)
    (hflag : (r.dependencies (.call function args edit?)).edit = false)
    (hout : r.LeavesEditOut (.call function args edit?)) {name : String}
    (hname : (edit? <|> f.declaredEdit?) = some name) : name ≠ Ambient.selected := by
  cases edit? with
  | some asked =>
      obtain rfl := Option.some.inj hname
      exact Dependencies.ne_selected_of_ofName
        (Dependencies.edit_eq_false ofName_le_of_edit hflag)
  | none =>
      rintro rfl
      replace hname : f.declaredEdit? = some Ambient.selected := hname
      obtain ⟨v, hv, htext⟩ := Option.bind_eq_some_iff.mp hname
      obtain ⟨p, hp, hdefault⟩ := Option.bind_eq_some_iff.mp hv
      have hvalue : p.default?.bind Value.str? = some Ambient.selected := by
        rw [hdefault]
        exact htext
      exact Dependencies.ne_selected_of_ofName (Dependencies.edit_eq_false
        (ofName_le_of_omitted hf (hout f p hf hp hvalue) hvalue) hflag) rfl

/-- Its scope does not change with the selected edit. -/
theorem forCall_setEdit (hf : r.functions.get function = .ok f)
    (hflag : (r.dependencies (.call function args edit?)).edit = false)
    (hout : r.LeavesEditOut (.call function args edit?)) (s : Scope) :
    s.forCall (r.setEdit rid).ambient f edit? = s.forCall r.ambient f edit? := by
  rw [Scope.forCall, Scope.forCall]
  cases hname : (edit? <|> f.declaredEdit?) with
  | none => rfl
  | some name =>
      have hne := ne_selected_of_asked hf hflag hout hname
      simp only [Ambient.edit, if_neg hne]

/-- Functions do not read the selected edit. -/
theorem call_setEdit (f : Function) (i : Instance) (given : List Given) :
    (r.setEdit rid).call f i given = r.call f i given := by
  have hrun (args : Args) : f.body.run args (r.setEdit rid).ambient = f.body.run args r.ambient :=
    Builtin.run_congr rfl fun _ => rfl
  simp only [call, hrun]
  rfl

end Calls

/-! ### Queries -/

variable {q : Query.Compiled}

theorem evaluate_setEdit_eq (hq : r.IsCurrent q) (hflag : q.deps.edit = false)
    (hout : ∀ y, r.Visits q.root y → r.LeavesEditOut y) (s : Scope) :
    (r.setEdit rid).evaluate q.root s = r.evaluate q.root s := by
  have hfunctions : (r.setEdit rid).functions = r.functions := rfl
  have hitem : s.item = s.item := rfl
  refine evaluateAt_congr_on hfunctions rfl rfl (fun y hy depth => ?_) _ hitem
  have hdeps := Dependencies.edit_eq_false (hq.dependencies_le hy) hflag
  cases y with
  | ident name => exact fun _ _ => rfl
  | call function args edit? =>
      exact fun f hf s _ => ⟨forCall_setEdit hf hdeps (hout _ hy) s,
        fun i given _ _ => call_setEdit f i given⟩
  | _ => trivial

/-- The results of a block that has not to be computed again after the edit was changed are the same
when they are. -/
theorem evaluateOver_of_not_shouldRecompute_edit {β : Type} [Block β] {store : Store β}
    {name : String} {b : β} (hfind : Assoc.find? store name = some b)
    (hfresh : store.shouldRecompute name "rewrite" = false) (hq : r.IsCurrent (Block.query b))
    (hout : ∀ y, r.Visits (Block.query b).root y → r.LeavesEditOut y) (rid rid' : String)
    (kind : BlockKind) (policy : FailurePolicy) (items : List Item) :
    (r.setEdit rid').evaluateOver (Block.query b).root kind policy items =
      (r.setEdit rid).evaluateOver (Block.query b).root kind policy items := by
  rw [Store.shouldRecompute, hfind] at hfresh
  refine evaluateFrom_congr fun item _ => ?_
  rw [evaluate_setEdit_eq hq hfresh hout, evaluate_setEdit_eq hq hfresh hout]

/-- **A current query without a dependency on the edit does not change with the selected edit,** if
the calls that it visits leave the parameter for the edit to its default. It yields the same value
from the same instances or the same error, in every scope and so on every unedited variant. What is
recorded for a block with the query, which has not to be computed again, is the same as well. -/
theorem evaluate_setEdit (hq : r.IsCurrent q)
    (hout : ∀ y, r.Visits q.root y → r.LeavesEditOut y) (rid rid' : String) :
    (q.deps.edit = false → ∀ s,
      (r.setEdit rid').evaluate q.root s = (r.setEdit rid).evaluate q.root s) ∧
    ∀ {β : Type} [Block β] (store : Store β) (name : String) (b : β),
      Assoc.find? store name = some b → Block.query b = q →
      store.shouldRecompute name "rewrite" = false → ∀ kind policy items,
        (r.setEdit rid').evaluateOver q.root kind policy items =
          (r.setEdit rid).evaluateOver q.root kind policy items := by
  constructor
  · intro hflag s
    rw [evaluate_setEdit_eq hq hflag hout, evaluate_setEdit_eq hq hflag hout]
  · rintro β _ store name b hfind rfl hfresh kind policy items
    exact evaluateOver_of_not_shouldRecompute_edit hfind hfresh hq hout rid rid' kind policy items

/-! ### Edits by name and by position -/

/-- The count on the variant that an edit made, by the keyword for edits. -/
def swappedCount : Expr :=
  .call "apply" [.positional (.block .attr "count")] (some "swap")

/-- The same with the edit by position, which is no more than an argument. -/
def countByPosition : Expr :=
  .call "apply" [.positional (.ident "n"), .positional (.literal (.str "swap"))] none

theorem compile_swappedCount :
    countRegistry.compile "apply(attr:count, rewrite=\"swap\")" =
      .ok ⟨"apply(attr:count, rewrite=\"swap\")", swappedCount, {}⟩ := by
  have hparse : Query.parse "apply(attr:count, rewrite=\"swap\")" = .ok swappedCount :=
    Expr.parse_of_text_eq (by decide +kernel) (by decide) (by decide) (by decide)
  have hdeps : countRegistry.dependencies swappedCount = {} := by decide +kernel
  rw [compile_of_parse hparse, hdeps]

/-- An attribute for the count on the edited variant, with nothing recorded. -/
def swappedAttribute : Attribute :=
  { countAttribute with
    name := "swapped"
    query := ⟨"apply(attr:count, rewrite=\"swap\")", swappedCount, {}⟩ }

/-- The count on an edited variant is compiled without a dependency on the selected edit, and does
not change with it. An attribute for it has not to be computed again. -/
theorem evaluate_setEdit_swappedCount :
    countRegistry.compile "apply(attr:count, rewrite=\"swap\")" = .ok swappedAttribute.query ∧
      ∀ rid rid',
        (∀ s, (countRegistry.setEdit rid').evaluate swappedCount s =
          (countRegistry.setEdit rid).evaluate swappedCount s) ∧
        ∀ kind policy items,
          (countRegistry.setEdit rid').evaluateOver swappedCount kind policy items =
            (countRegistry.setEdit rid).evaluateOver swappedCount kind policy items := by
  have hcount : Query.parse "n" = .ok (.ident "n") :=
    Expr.parse_of_text_eq (by decide +kernel) (by decide) (by decide) (by decide)
  have hcurrent : countRegistry.IsCurrent swappedAttribute.query := by
    refine ⟨isCompiled_of_compile compile_swappedCount, fun name a hname hfind => ?_⟩
    obtain rfl := eq_count_of_reaches rfl hname
    obtain rfl := Option.some.inj hfind
    exact isCompiled_of_compile (compile_of_parse hcount)
  have hout : ∀ y, countRegistry.Visits swappedCount y → countRegistry.LeavesEditOut y := by
    rintro y (hnode | ⟨name, a, hname, hfind, hnode⟩)
    · cases hnode with
      | self => trivial
      | argument ha hnode =>
          obtain rfl := List.mem_singleton.mp ha
          cases hnode
          trivial
    · obtain rfl := eq_count_of_reaches rfl hname
      obtain rfl := Option.some.inj hfind
      cases hnode
      trivial
  refine ⟨compile_swappedCount, fun rid rid' => ?_⟩
  obtain ⟨hvalues, hblocks⟩ := evaluate_setEdit hcurrent hout rid rid'
  refine ⟨hvalues rfl, ?_⟩
  exact hblocks [("swapped", swappedAttribute)] "swapped" swappedAttribute rfl rfl rfl

/-- **The count with the edit by position is compiled without a dependency on the selected edit, and
changes with it:** on the first question from four to two. -/
theorem valueOn_setEdit_countByPosition :
    countRegistry.compile "apply(n, \"swap\")" =
        .ok ⟨"apply(n, \"swap\")", countByPosition, {}⟩ ∧
      ∃ item ∈ countedQuestions.allItems,
        ((countRegistry.setEdit Instance.noEdit).valueOn countByPosition item).result.map
            Value.number? = .ok (some 4) ∧
        ((countRegistry.setEdit "swap").valueOn countByPosition item).result.map
            Value.number? = .ok (some 2) := by
  have hparse : Query.parse "apply(n, \"swap\")" = .ok countByPosition :=
    Expr.parse_of_text_eq (by decide +kernel) (by decide) (by decide) (by decide)
  have hdeps : countRegistry.dependencies countByPosition = {} := by decide +kernel
  refine ⟨hdeps ▸ compile_of_parse hparse, _, List.mem_cons_self, ?_, ?_⟩
  · decide +kernel
  · decide +kernel

end Registry

end ErrorAnalysis
