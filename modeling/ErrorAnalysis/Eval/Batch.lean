import ErrorAnalysis.Eval.Basic

/-!
# Evaluation over many items

A query is evaluated on one item after the other, and the results that count are recorded by key.
An item whose evaluation fails is left out, or ends the run, as the policy says. What is said about runs
holds of those that end, which they do if the evaluation on each item does.

## Main definitions

* `Outcome`: what a run recorded, and what failed.
* `Registry.evaluateOver`: a run over items.
-/

namespace ErrorAnalysis

/-- What a run recorded, and the questions that failed. -/
structure Outcome where
  values : Assoc InstanceKey Value := []
  failures : List (String × EvalError) := []

/-- Whether nothing failed. -/
def Outcome.isComplete (o : Outcome) : Bool :=
  o.failures.isEmpty

/-- Whether a value is recorded: for an attribute if there is one, and for a group if it is
true. -/
def BlockKind.keeps (kind : BlockKind) (v : Value) : Bool :=
  match kind with
  | .attr => !v.isNull
  | .group => v == .bool true

/-- The outcome with a result recorded. -/
def Outcome.record (o : Outcome) (kind : BlockKind) (qid : String) (v : Sourced) : Outcome :=
  if kind.keeps v.value then
    { o with values := Assoc.insert o.values (v.recordKey qid) v.value }
  else o

namespace Registry

variable {m : Type → Type} [Monad m] [AsksPatterns m]

/-- Evaluates a tree on items one after the other, where `o` is the outcome so far. This is a run only if
the evaluation ends on each item that is come to: where it does not there is no outcome at all, although
a mark of it is noted here like an error. -/
def evaluateFrom (r : Registry) (x : Expr) (kind : BlockKind) (policy : FailurePolicy)
    (o : Outcome) : List Item → m Outcome
  | [] => pure o
  | item :: items => do
    match ← (r.evaluate x ⟨item, Instance.noEdit⟩).run with
    | .ok v => r.evaluateFrom x kind policy (o.record kind item.qid v) items
    | .error e =>
      match policy with
      | .failFast => pure { failures := [(item.qid, e)] }
      | .skipFailing =>
        r.evaluateFrom x kind policy { o with failures := o.failures ++ [(item.qid, e)] } items

/-- Evaluates a tree on items one after the other. -/
def evaluateOver (r : Registry) (x : Expr) (kind : BlockKind) (policy : FailurePolicy)
    (items : List Item) : m Outcome :=
  r.evaluateFrom x kind policy {} items

end Registry

end ErrorAnalysis
