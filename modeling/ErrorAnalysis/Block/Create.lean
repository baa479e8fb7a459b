import ErrorAnalysis.Eval.Batch
import ErrorAnalysis.Query.Compile

/-!
# Making blocks

A block is made by evaluating its query over a sample of a dataset, unless there is a block for an
equal query already, whose result is then used again.

Where a dataset has more items than a query is to be evaluated on, some are drawn at random. Chance is a
part of the options here, so that making a block is a function of them.

## Main definitions

* `Draw`: a way to choose some of a number of things.
* `Sampling`: what items are drawn by.
* `CreateOptions`: how a block is made.
* `CreateOptions.sample`: the items that a query is evaluated on.
* `Registry.createAttribute`, `Registry.createGroup`: making a block.
* `Registry.importAttributes`, `Registry.importGroups`: making blocks from definitions.
-/

namespace ErrorAnalysis

/-! ### Samples -/

/-- A way to choose some of a number of things by their positions: each of them once at most, and as many
as are wanted. It stands for a generator of random numbers. -/
structure Draw where
  positions : Nat → Nat → List Nat
  nodup : ∀ count size, (positions count size).Nodup
  lt : ∀ count size, ∀ i ∈ positions count size, i < count
  length_eq : ∀ count size, size ≤ count → (positions count size).length = size

namespace Draw

/-- Chooses the first ones. -/
def first : Draw where
  positions count size := List.range (min size count)
  nodup _ _ := List.nodup_range
  lt _ _ _ h := Nat.lt_of_lt_of_le (List.mem_range.mp h) (Nat.min_le_right _ _)
  length_eq _ _ h := by rw [List.length_range, Nat.min_eq_left h]

/-- The chosen items of a list. -/
def choose {α : Type} (draw : Draw) (xs : List α) (size : Nat) : List α :=
  (draw.positions xs.length size).filterMap fun i => xs[i]?

end Draw

/-- What items are drawn by: the generators that are started with a seed, and one that is started by
chance. -/
structure Sampling where
  seeded : Nat → Draw := fun _ => .first
  fresh : Draw := .first

/-- The generator for a seed, or without one the one that is started by chance. -/
def Sampling.draw (s : Sampling) (seed? : Option Nat) : Draw :=
  seed?.elim s.fresh s.seeded

/-- How a block is made. -/
structure CreateOptions where
  /-- The questions to evaluate the query on, all if absent. -/
  sampleList? : Option (List String) := none
  /-- How many items to evaluate the query on, at most. -/
  testSize? : Option Nat := none
  /-- Whether to evaluate the query even if there is a block for an equal one. -/
  force : Bool := false
  /-- Whether to add the block to the registry. -/
  save : Bool := true
  /-- What items are drawn by, if there are too many. -/
  sampling : Sampling := {}

namespace CreateOptions

/-- Whether the result of another block may be used again. -/
def allowsReuse (o : CreateOptions) : Bool :=
  !o.force && o.sampleList?.isNone

/-- The number of items to evaluate a query on, at most. -/
def size (o : CreateOptions) (config : Config) (d : Dataset) : Nat :=
  (o.testSize? <|> config.testSize?).getD d.size

/-- The items that are asked for. -/
def candidates (o : CreateOptions) (d : Dataset) : List Item :=
  match o.sampleList? with
  | some qids => qids.filterMap d.item?
  | none => d.allItems

/-- The items to evaluate a query on: those that are asked for, or as many of them as are wanted, by
questions. -/
def sample (o : CreateOptions) (config : Config) (d : Dataset) (size : Nat) : List Item :=
  let items := o.candidates d
  if items.length ≤ size then items
  else
    ((o.sampling.draw config.sampleSeed?).choose items size).mergeSort fun a b =>
      (compare a.qid b.qid).isLE

end CreateOptions

/-- The items without a query: the unedited variants of all items that have one. -/
def uneditedMembers (items : List Item) : SortedSet InstanceKey :=
  SortedSet.ofList ((items.filter fun item => item.unedited?.isSome).map Item.uneditedKey)

namespace Registry

variable {m : Type → Type} [Monad m] [AsksPatterns m]

/-! ### Attributes -/

/-- The attribute for a query, with a registered one that may stand in for the evaluation. -/
def attributeFor (r : Registry) (d : Dataset) (source : Definition) (q : Query.Compiled)
    (o : CreateOptions) : m Attribute := do
  let size := o.size r.config d
  let known? := if o.allowsReuse then r.attributes.findEquivalent? q size else none
  match known? with
  | some known =>
    pure { known with name := source.name, description := source.description, query := q }
  | none => do
    let outcome ← r.evaluateOver q.root .attr r.config.failurePolicy
      (o.sample r.config d size)
    pure {
      name := source.name
      description := source.description
      query := q
      values := outcome.values
      dtype := Dtype.ofValues (Assoc.values outcome.values)
      testSize := size }

/-- The query of an attribute. An attribute has to have a command. -/
def attributeQuery (r : Registry) (source : Definition) : Except AnalysisError Query.Compiled :=
  if isAllBlank source.cmd.toList then .error (.emptyCommand .attr source.name)
  else r.compile source.cmd

/-- Makes an attribute. -/
def createAttribute (r : Registry) (d : Dataset) (source : Definition) (o : CreateOptions) :
    Except AnalysisError (Attribute × Registry) := do
  let q ← r.attributeQuery source
  let made := r.attributeFor d source q o
  let r := r.remember made.asked
  pure (made.value, if o.save then r.saveAttribute made.value else r)

/-! ### Groups -/

/-- The query of a group. A group without a command has the query that does nothing. -/
def groupQuery (r : Registry) (cmd : String) : Except AnalysisError Query.Compiled :=
  if isAllBlank cmd.toList then .ok .nothing else r.compile cmd

/-- The members of a group: without a query the unedited variants, and with one the instances that
it holds of. -/
def membersFor (r : Registry) (q : Query.Compiled) (items : List Item) :
    m (SortedSet InstanceKey) := do
  if q.root.isNoOp then pure (uneditedMembers items)
  else do
    let outcome ← r.evaluateOver q.root .group r.config.failurePolicy items
    pure (Assoc.keys outcome.values)

/-- The group for a query, with a registered one that may stand in for the evaluation. -/
def groupFor (r : Registry) (d : Dataset) (source : Definition) (q : Query.Compiled)
    (o : CreateOptions) : m Group := do
  let size := o.size r.config d
  let known? := if o.allowsReuse then r.groups.findEquivalent? q size else none
  match known? with
  | some known =>
    pure { known with name := source.name, description := source.description, query := q }
  | none => do
    let members ← r.membersFor q (o.sample r.config d size)
    pure {
      name := source.name
      description := source.description
      query := q
      dictionary := Group.dictionaryOf members
      testSize := size }

/-- Makes a group. -/
def createGroup (r : Registry) (d : Dataset) (source : Definition) (o : CreateOptions) :
    Except AnalysisError (Group × Registry) := do
  let q ← r.groupQuery source.cmd
  let made := r.groupFor d source q o
  let r := r.remember made.asked
  pure (made.value, if o.save then r.saveGroup made.value else r)

/-! ### Definitions -/

/-- Makes blocks from their definitions in order, up to the first that fails. Those made before
stay. Items are drawn for one block after the other, by the next of `chance`. -/
def importWith {β : Type}
    (create : Sampling → Registry → Definition → Except AnalysisError (β × Registry))
    (chance : Nat → Sampling) (r : Registry) :
    List Definition → Except AnalysisError (List β) × Registry
  | [] => (.ok [], r)
  | source :: sources =>
    match create (chance 0) r source with
    | .error e => (.error e, r)
    | .ok (b, r) =>
      let (rest, r) := importWith create (fun i => chance (i + 1)) r sources
      (rest.map (b :: ·), r)

/-- Makes attributes from their definitions. -/
def importAttributes (r : Registry) (d : Dataset) (chance : Nat → Sampling)
    (sources : List Definition) : Except AnalysisError (List Attribute) × Registry :=
  r.importWith (fun sampling r source => r.createAttribute d source { sampling }) chance sources

/-- Makes groups from their definitions. -/
def importGroups (r : Registry) (d : Dataset) (chance : Nat → Sampling)
    (sources : List Definition) : Except AnalysisError (List Group) × Registry :=
  r.importWith (fun sampling r source => r.createGroup d source { sampling }) chance sources

end Registry

end ErrorAnalysis
