import ErrorAnalysis.Proofs.Blocks.Making
import ErrorAnalysis.Proofs.Data.Filing

/-!
# Histories of a Registry

A registry changes by making blocks and taking them out, and by selecting what surrounds an
evaluation. Two choices are left open here: which items are drawn if a block is to be computed on fewer
than are asked for, and which one of several blocks for equal queries stands in for a new one. What
holds of all histories then holds for any way to choose, also for the one by the draws that an operation
of a registry is given.

## Main definitions

* `CreateOptions.Draws`: the items that a query may be evaluated on.
* `Store.CanStandIn`, `Store.Makes`: how a block is made, by reuse or by evaluation.
* `Registry.MakesAttribute`, `Registry.MakesGroup`: the blocks that can be made from a definition.
* `Registry.BlockStep`, `Registry.Step`: the steps of a history.

## Main results

* `Registry.makesAttribute_attributeFor`, `Registry.makesGroup_groupFor`: **what a registry makes is
  one of the blocks that can be made.**
* `Registry.steps_importAttributes`, `Registry.steps_importGroups`: an import makes one block after the
  other.
-/

namespace ErrorAnalysis

/-! ### Samples -/

namespace CreateOptions

variable {o : CreateOptions} {config : Config} {d : Dataset} {size : ℕ} {items : List Item}

/-- The items that a query may be evaluated on: those that are asked for if there are no more than
`size` of them, and otherwise any `size` of them. -/
inductive Draws (o : CreateOptions) (d : Dataset) (size : ℕ) : List Item → Prop
  | all (h : (o.candidates d).length ≤ size) : Draws o d size (o.candidates d)
  | part {items : List Item} (h : size < (o.candidates d).length) (hlength : items.length = size)
      (hitems : items.Subperm (o.candidates d)) : Draws o d size items

theorem Draws.length_le (h : o.Draws d size items) : items.length ≤ size := by
  cases h with
  | all h => exact h
  | part _ hlength _ => exact hlength.le

theorem Draws.mem_allItems (h : o.Draws d size items) {item : Item} (hitem : item ∈ items) :
    item ∈ d.allItems := by
  cases h with
  | all _ => exact mem_candidates hitem
  | part _ _ hitems => exact mem_candidates (hitems.subset hitem)

/-- All items are drawn if they are no more than there are to be. -/
theorem Draws.eq_candidates (h : o.Draws d size items)
    (hlength : (o.candidates d).length ≤ size) : items = o.candidates d := by
  cases h with
  | all _ => rfl
  | part hsize _ _ => exact absurd hlength (not_le.mpr hsize)

/-- A sample is one of those that may be drawn. -/
theorem draws_sample : o.Draws d size (o.sample config d size) := by
  rw [sample]
  split
  · next h => exact .all h
  · next h =>
      have hlt := not_le.mp h
      refine .part hlt ?_ ((List.mergeSort_perm _ _).subperm.trans Draw.subperm_choose)
      rw [List.length_mergeSort, Draw.length_choose hlt.le]

end CreateOptions

/-! ### Blocks -/

namespace Store

variable {β : Type} [Block β] {store : Store β} {q : Query.Compiled} {size : ℕ} {b : β}

/-- A block of a store can stand in for a query: it is for an equal one, and was computed on so many
items at least. -/
def CanStandIn (store : Store β) (q : Query.Compiled) (size : ℕ) (b : β) : Prop :=
  b ∈ Assoc.values store ∧ size ≤ Block.testSize b ∧ (Block.query b).equivalent q = true

theorem canStandIn_of_findEquivalent? (h : store.findEquivalent? q size = some b) :
    store.CanStandIn q size b := by
  have hholds := List.find?_some h
  rw [Bool.and_eq_true, decide_eq_true_eq] at hholds
  exact ⟨List.mem_of_find?_eq_some h, hholds⟩

theorem not_canStandIn_of_findEquivalent? (h : store.findEquivalent? q size = none) (b : β) :
    ¬ store.CanStandIn q size b := by
  rintro ⟨hmem, hsize, hequal⟩
  have hnot := List.find?_eq_none.mp h b hmem
  rw [hequal, Bool.and_true, decide_eq_true_eq] at hnot
  exact hnot hsize

/-- How a block is made for a query: from one that can stand in for it if the options allow that and
there is any, and otherwise by evaluation on items that are drawn. -/
inductive Makes (store : Store β) (d : Dataset) (q : Query.Compiled) (o : CreateOptions) (size : ℕ)
    (takeOver : β → β) (compute : List Item → β) : β → Prop
  | reused {known : β} (hreuse : o.allowsReuse = true) (hknown : store.CanStandIn q size known) :
      Makes store d q o size takeOver compute (takeOver known)
  | computed {items : List Item}
      (hnone : o.allowsReuse = true → ∀ known, ¬ store.CanStandIn q size known)
      (hitems : o.Draws d size items) : Makes store d q o size takeOver compute (compute items)

/-- A block is made from the first one that can stand in, or on a sample. -/
theorem makes_of_findEquivalent? {d : Dataset} {o : CreateOptions} {config : Config} {takeOver : β → β}
    {compute : List Item → β} :
    store.Makes d q o size takeOver compute
      (((if o.allowsReuse then store.findEquivalent? q size else none).map takeOver).getD
        (compute (o.sample config d size))) := by
  by_cases hreuse : o.allowsReuse = true
  · rw [if_pos hreuse]
    cases hfind : store.findEquivalent? q size with
    | some known => exact .reused hreuse (canStandIn_of_findEquivalent? hfind)
    | none =>
        exact .computed (fun _ => not_canStandIn_of_findEquivalent? hfind)
          CreateOptions.draws_sample
  · rw [if_neg hreuse]
    exact .computed (fun h => absurd h hreuse) CreateOptions.draws_sample

end Store

namespace Registry

variable {r r' : Registry} {d : Dataset} {source : Definition} {q : Query.Compiled}
  {o : CreateOptions} {a : Attribute} {g : Group}

/-- The attribute of a definition with the values of another one. -/
def takeOverAttribute (source : Definition) (q : Query.Compiled) (known : Attribute) : Attribute :=
  { known with name := source.name, description := source.description, query := q }

/-- The attribute of a definition, computed on items. -/
def computeAttribute (r : Registry) (source : Definition) (q : Query.Compiled) (size : ℕ)
    (items : List Item) : Attribute :=
  let values := (r.evaluateOver q.root .attr r.config.failurePolicy items).value.values
  { name := source.name
    description := source.description
    query := q
    values
    dtype := Dtype.ofValues (Assoc.values values)
    testSize := size }

/-- The group of a definition with the members of another one. -/
def takeOverGroup (source : Definition) (q : Query.Compiled) (known : Group) : Group :=
  { known with name := source.name, description := source.description, query := q }

/-- The group of a definition, computed on items. -/
def computeGroup (r : Registry) (source : Definition) (q : Query.Compiled) (size : ℕ)
    (items : List Item) : Group where
  name := source.name
  description := source.description
  query := q
  dictionary := Group.dictionaryOf (r.membersFor q items).value
  testSize := size

/-- An attribute can be made from a definition. -/
def MakesAttribute (r : Registry) (d : Dataset) (source : Definition) (q : Query.Compiled)
    (o : CreateOptions) : Attribute → Prop :=
  r.attributes.Makes d q o (o.size r.config d) (takeOverAttribute source q)
    (r.computeAttribute source q (o.size r.config d))

/-- A group can be made from a definition. -/
def MakesGroup (r : Registry) (d : Dataset) (source : Definition) (q : Query.Compiled)
    (o : CreateOptions) : Group → Prop :=
  r.groups.Makes d q o (o.size r.config d) (takeOverGroup source q)
    (r.computeGroup source q (o.size r.config d))

/-- **What a registry makes is one of the attributes that can be made.** -/
theorem makesAttribute_attributeFor :
    r.MakesAttribute d source q o (r.attributeFor d source q o).value := by
  have heq : (r.attributeFor d source q o).value =
      ((r.reusable? d q o).map (takeOverAttribute source q)).getD
        (r.computeAttribute source q (o.size r.config d)
          (o.sample r.config d (o.size r.config d))) := by
    rw [attributeFor_eq]
    cases r.reusable? d q o <;> rfl
  rw [heq]
  exact Store.makes_of_findEquivalent?

/-- **What a registry makes is one of the groups that can be made.** -/
theorem makesGroup_groupFor : r.MakesGroup d source q o (r.groupFor d source q o).value := by
  have heq : (r.groupFor d source q o).value =
      ((r.reusableGroup? d q o).map (takeOverGroup source q)).getD
        (r.computeGroup source q (o.size r.config d)
          (o.sample r.config d (o.size r.config d))) := by
    rw [groupFor_eq]
    cases r.reusableGroup? d q o <;> rfl
  rw [heq]
  exact Store.makes_of_findEquivalent?

/-! ### Steps -/

/-- Takes an attribute out. -/
def eraseAttribute (r : Registry) (name : String) : Registry :=
  { r with attributes := Assoc.erase r.attributes name }

/-- Takes a group out. -/
def eraseGroup (r : Registry) (name : String) : Registry :=
  { r with groups := Assoc.erase r.groups name }

/-- A block is made on a dataset with options that are allowed for its query, and saved or not, or one
is taken out. -/
inductive BlockStep (allowed : Dataset → Query.Compiled → CreateOptions → Prop) :
    Registry → Registry → Prop
  | makeAttribute {r : Registry} {d : Dataset} {source : Definition} {q : Query.Compiled}
      {o : CreateOptions} {a : Attribute} (asked : List String) (hallowed : allowed d q o)
      (hcmd : isAllBlank source.cmd.toList = false) (hq : r.compile source.cmd = .ok q)
      (hmade : r.MakesAttribute d source q o a) :
      BlockStep allowed r (if o.save then (r.remember asked).saveAttribute a else r.remember asked)
  | makeGroup {r : Registry} {d : Dataset} {source : Definition} {q : Query.Compiled}
      {o : CreateOptions} {g : Group} (asked : List String) (hallowed : allowed d q o)
      (hq : r.groupQuery source.cmd = .ok q) (hmade : r.MakesGroup d source q o g) :
      BlockStep allowed r (if o.save then (r.remember asked).saveGroup g else r.remember asked)
  | eraseAttribute (r : Registry) (name : String) : BlockStep allowed r (r.eraseAttribute name)
  | eraseGroup (r : Registry) (name : String) : BlockStep allowed r (r.eraseGroup name)

/-- A step of a history: with the blocks, over any dataset in order, or with what surrounds an
evaluation. -/
inductive Step : Registry → Registry → Prop
  | blocks {r r' : Registry} (h : BlockStep (fun d _ _ => d.IsFiled) r r') : Step r r'
  | importAttributes {d : Dataset} (hd : d.IsFiled) (r : Registry) (chance : ℕ → Sampling)
      (sources : List Definition) : Step r (r.importAttributes d chance sources).2
  | importGroups {d : Dataset} (hd : d.IsFiled) (r : Registry) (chance : ℕ → Sampling)
      (sources : List Definition) : Step r (r.importGroups d chance sources).2
  | setModel (r : Registry) (model? : Option String) : Step r (r.setModel model?)
  | setEdit (r : Registry) (rid : String) : Step r (r.setEdit rid)
  | setFrequencies (r : Registry) (targetType : String) (table : Assoc String ℕ) :
      Step r (r.setFrequencies targetType table)

variable {allowed : Dataset → Query.Compiled → CreateOptions → Prop}

theorem blockStep_createAttribute (hallowed : ∀ q, r.compile source.cmd = .ok q → allowed d q o)
    (h : r.createAttribute d source o = .ok (a, r')) : BlockStep allowed r r' := by
  have hcmd := isNotBlank_of_createAttribute h
  obtain ⟨q, hq, rfl, rfl⟩ := createAttribute_eq_ok h
  exact .makeAttribute _ (hallowed q hq) hcmd hq makesAttribute_attributeFor

theorem blockStep_createGroup (hallowed : ∀ q, r.groupQuery source.cmd = .ok q → allowed d q o)
    (h : r.createGroup d source o = .ok (g, r')) : BlockStep allowed r r' := by
  obtain ⟨q, hq, rfl, rfl⟩ := createGroup_eq_ok h
  exact .makeGroup _ (hallowed q hq) hq makesGroup_groupFor

/-- An import is a history of blocks if each block that it makes is a step. -/
theorem steps_importWith {β : Type}
    {create : Sampling → Registry → Definition → Except AnalysisError (β × Registry)}
    (hstep : ∀ s r source b r', create s r source = .ok (b, r') → BlockStep allowed r r')
    (chance : ℕ → Sampling) (r : Registry) (sources : List Definition) :
    Relation.ReflTransGen (BlockStep allowed) r (importWith create chance r sources).2 := by
  induction sources generalizing r chance with
  | nil => exact .refl
  | cons source sources ih =>
      rw [importWith]
      cases hcreate : create (chance 0) r source with
      | error e => exact .refl
      | ok made => exact .head (hstep _ r source made.1 made.2 hcreate) (ih _ made.2)

theorem steps_importAttributes (hallowed : ∀ q sampling, allowed d q { sampling })
    (chance : ℕ → Sampling) (r : Registry) (sources : List Definition) :
    Relation.ReflTransGen (BlockStep allowed) r (r.importAttributes d chance sources).2 :=
  steps_importWith (fun _ _ _ _ _ h => blockStep_createAttribute (fun q _ => hallowed q _) h)
    chance r sources

theorem steps_importGroups (hallowed : ∀ q sampling, allowed d q { sampling })
    (chance : ℕ → Sampling) (r : Registry) (sources : List Definition) :
    Relation.ReflTransGen (BlockStep allowed) r (r.importGroups d chance sources).2 :=
  steps_importWith (fun _ _ _ _ _ h => blockStep_createGroup (fun q _ => hallowed q _) h)
    chance r sources

end Registry

end ErrorAnalysis
