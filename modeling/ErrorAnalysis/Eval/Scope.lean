import ErrorAnalysis.Ambient
import ErrorAnalysis.Dataset.Basic
import ErrorAnalysis.Function.Basic

/-!
# Where a query is evaluated, and what it yields

A query is evaluated on an item at one of its variants. It yields a value together with the
instances that the value came from.

## Main definitions

* `Scope`: an item and the edit that made the variant in question.
* `Scope.forCall`: the scope of a call, which may be on another variant.
* `Sourced`: a value with the instances that it came from.
-/

namespace ErrorAnalysis

/-! ### Scopes -/

/-- An item and the edit that made the variant in question. -/
structure Scope where
  item : Item
  edit : String := Instance.noEdit

namespace Scope

/-- Whether the unedited variant is in question. -/
def isUnedited (s : Scope) : Bool :=
  s.edit == Instance.noEdit

/-- The variant in question, if there is one. -/
def instance? (s : Scope) : Option Instance :=
  s.item.byEdit? s.edit

end Scope

/-- The edit that a function asks for by itself. -/
def Function.declaredEdit? (f : Function) : Option String :=
  ((f.param? "rewrite").bind (·.default?)).bind Value.str?

/-- The scope of a call that asks for an edit, or whose function does. Once an edited variant is
in question, calls stay with it. -/
def Scope.forCall (s : Scope) (a : Ambient) (f : Function) (edit? : Option String) : Scope :=
  if s.isUnedited then
    match edit? <|> f.declaredEdit? with
    | some rid => { s with edit := a.edit rid }
    | none => s
  else s

/-! ### Sourced values -/

/-- A value with the instances that it came from. -/
structure Sourced where
  value : Value
  sources : SortedSet InstanceKey := []

namespace Sourced

/-- Null, from nowhere. -/
def null : Sourced :=
  ⟨.null, []⟩

/-- A value that came from a single instance. -/
def ofInstance (i : Instance) (v : Value) : Sourced :=
  ⟨v, [i.key]⟩

/-- The instances that several values came from. -/
def sourcesOf (vs : List Sourced) : SortedSet InstanceKey :=
  vs.foldl (fun sources v => sources.union v.sources) []

/-- The key under which a result is recorded: that of the only instance that it came from, or that
of the unedited variant. -/
def recordKey (v : Sourced) (qid : String) : InstanceKey :=
  match v.sources with
  | [k] => k
  | _ => InstanceKey.unedited qid

end Sourced

end ErrorAnalysis
