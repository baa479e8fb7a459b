import ErrorAnalysis.Block.Create
import ErrorAnalysis.Proofs.Data.Maps
import ErrorAnalysis.Proofs.Evaluation.Results

/-!
# Making Attributes

What is made from a definition: an attribute with the name of the definition and with the query that
its command denotes. Its values are those of a run over a sample of the dataset, unless it takes over
the values of an attribute for an equal query.

## Main definitions

* `Registry.reusable?`, `Registry.reusableGroup?`: the block whose content is taken over.

## Main results

* `Registry.createAttribute_of_compile`: every command that denotes a query makes an attribute.
* `Registry.createAttribute_eq_ok`: **what was made.**
* `Registry.values_attributeFor`: the values of an attribute that takes over none.
-/

namespace ErrorAnalysis

/-! ### Samples -/

/-- The items of a list by all their positions. -/
theorem filterMap_getElem?_range {α : Type} (xs : List α) :
    ((List.range xs.length).filterMap fun i => xs[i]?) = xs := by
  induction xs with
  | nil => rfl
  | cons x xs ih =>
      rw [List.length_cons, List.range_succ_eq_map, List.filterMap_cons, List.filterMap_map]
      exact congrArg (x :: ·) ih

namespace Draw

variable {α : Type} {draw : Draw} {xs : List α} {size : ℕ}

/-- What is chosen are items of the list, each of them as often as it is there at most. -/
theorem subperm_choose : (draw.choose xs size).Subperm xs := by
  have hpositions : (draw.positions xs.length size).Subperm (List.range xs.length) :=
    (draw.nodup _ _).subperm fun i hi => List.mem_range.mpr (draw.lt _ _ i hi)
  obtain ⟨positions, hperm, hsublist⟩ := hpositions
  have hchosen := hsublist.filterMap fun i => xs[i]?
  rw [filterMap_getElem?_range] at hchosen
  exact ⟨_, hperm.filterMap _, hchosen⟩

theorem length_choose (h : size ≤ xs.length) : (draw.choose xs size).length = size := by
  rw [choose, List.filterMap_length_eq_length.mpr, draw.length_eq _ _ h]
  exact fun i hi => by rw [List.getElem?_eq_getElem (draw.lt _ _ i hi), Option.isSome_some]

end Draw

theorem CreateOptions.mem_candidates {o : CreateOptions} {d : Dataset} {item : Item}
    (h : item ∈ o.candidates d) : item ∈ d.allItems := by
  rw [candidates] at h
  split at h
  · obtain ⟨qid, -, hfind⟩ := List.mem_filterMap.mp h
    exact List.mem_map_of_mem (f := Prod.snd) (Assoc.mem_of_find? hfind)
  · exact h

theorem CreateOptions.mem_sample {o : CreateOptions} {config : Config} {d : Dataset} {size : ℕ}
    {item : Item} (h : item ∈ o.sample config d size) : item ∈ d.allItems := by
  rw [sample] at h
  split at h
  · exact mem_candidates h
  · exact mem_candidates (Draw.subperm_choose.subset (List.mem_mergeSort.mp h))

namespace Registry

variable {r r' : Registry} {d : Dataset} {source : Definition} {o : CreateOptions} {a : Attribute}

/-- An attribute is made from every command that denotes a query. -/
theorem createAttribute_of_compile {q : Query.Compiled}
    (hcmd : isAllBlank source.cmd.toList = false) (hq : r.compile source.cmd = .ok q) :
    r.createAttribute d source o =
      .ok ((r.attributeFor d source q o).value,
        if o.save then (r.remember (r.attributeFor d source q o).asked).saveAttribute
          (r.attributeFor d source q o).value
        else r.remember (r.attributeFor d source q o).asked) := by
  rw [createAttribute, attributeQuery, if_neg (Bool.eq_false_iff.mp hcmd), hq]
  rfl

/-- No attribute is made from a blank command. -/
theorem isNotBlank_of_createAttribute (h : r.createAttribute d source o = .ok (a, r')) :
    isAllBlank source.cmd.toList = false := by
  refine Bool.eq_false_iff.mpr fun hblank => ?_
  rw [createAttribute, attributeQuery, if_pos hblank] at h
  cases h

/-- An attribute that is made has the query that its command denotes, and it is saved if the options
say so. -/
theorem createAttribute_eq_ok (h : r.createAttribute d source o = .ok (a, r')) :
    ∃ q, r.compile source.cmd = .ok q ∧ a = (r.attributeFor d source q o).value ∧
      r' = if o.save then (r.remember (r.attributeFor d source q o).asked).saveAttribute a
        else r.remember (r.attributeFor d source q o).asked := by
  obtain ⟨q, hq, h⟩ := except_bind_eq_ok.mp h
  obtain ⟨rfl, rfl⟩ := Prod.mk.inj (Except.ok.inj h)
  rw [attributeQuery] at hq
  split at hq
  · cases hq
  · exact ⟨q, hq, rfl, rfl⟩

/-- A group that is made has the query of its command, if it has a command, and it is saved if the
options say so. -/
theorem createGroup_eq_ok {g : Group} (h : r.createGroup d source o = .ok (g, r')) :
    ∃ q, r.groupQuery source.cmd = .ok q ∧ g = (r.groupFor d source q o).value ∧
      r' = if o.save then (r.remember (r.groupFor d source q o).asked).saveGroup g
        else r.remember (r.groupFor d source q o).asked := by
  obtain ⟨q, hq, h⟩ := except_bind_eq_ok.mp h
  obtain ⟨rfl, rfl⟩ := Prod.mk.inj (Except.ok.inj h)
  exact ⟨q, hq, rfl, rfl⟩

/-- The attribute whose values a new one takes over, if there is one. -/
def reusable? (r : Registry) (d : Dataset) (q : Query.Compiled) (o : CreateOptions) :
    Option Attribute :=
  if o.allowsReuse then r.attributes.findEquivalent? q (o.size r.config d) else none

/-- The group whose members a new one takes over, if there is one. -/
def reusableGroup? (r : Registry) (d : Dataset) (q : Query.Compiled) (o : CreateOptions) :
    Option Group :=
  if o.allowsReuse then r.groups.findEquivalent? q (o.size r.config d) else none

/-- An attribute takes over the values of another one, or records those of a run over the sample. -/
theorem attributeFor_eq {m : Type → Type} [Monad m] [AsksPatterns m] (q : Query.Compiled) :
    (r.attributeFor d source q o : m Attribute) =
      match r.reusable? d q o with
      | some known =>
        pure { known with name := source.name, description := source.description, query := q }
      | none =>
        r.evaluateOver q.root .attr r.config.failurePolicy
          (o.sample r.config d (o.size r.config d)) >>= fun outcome => pure {
            name := source.name
            description := source.description
            query := q
            values := outcome.values
            dtype := Dtype.ofValues (Assoc.values outcome.values)
            testSize := o.size r.config d } := rfl

/-- A group takes over the members of another one, or has those among the sample. -/
theorem groupFor_eq {m : Type → Type} [Monad m] [AsksPatterns m] (q : Query.Compiled) :
    (r.groupFor d source q o : m Group) =
      match r.reusableGroup? d q o with
      | some known =>
        pure { known with name := source.name, description := source.description, query := q }
      | none =>
        r.membersFor q (o.sample r.config d (o.size r.config d)) >>= fun members => pure {
          name := source.name
          description := source.description
          query := q
          dictionary := Group.dictionaryOf members
          testSize := o.size r.config d } := rfl

/-- What an attribute is made from: the name and the description of its definition, and the command of
its query. -/
theorem definition_attributeFor (q : Query.Compiled) :
    Block.definition (r.attributeFor d source q o).value =
      ⟨source.name, source.description, q.cmd⟩ := by
  rw [attributeFor_eq]
  cases r.reusable? d q o <;> rfl

theorem definition_groupFor (q : Query.Compiled) :
    Block.definition (r.groupFor d source q o).value = ⟨source.name, source.description, q.cmd⟩ := by
  rw [groupFor_eq]
  cases r.reusableGroup? d q o <;> rfl

theorem name_attributeFor (q : Query.Compiled) :
    (r.attributeFor d source q o).value.name = source.name := by
  rw [attributeFor_eq]
  cases r.reusable? d q o <;> rfl

theorem query_attributeFor (q : Query.Compiled) :
    (r.attributeFor d source q o).value.query = q := by
  rw [attributeFor_eq]
  cases r.reusable? d q o <;> rfl

theorem query_groupFor (q : Query.Compiled) : (r.groupFor d source q o).value.query = q := by
  rw [groupFor_eq]
  cases r.reusableGroup? d q o <;> rfl

theorem values_attributeFor {q : Query.Compiled} (h : r.reusable? d q o = none) :
    (r.attributeFor d source q o).value.values =
      (r.evaluateOver q.root .attr r.config.failurePolicy
        (o.sample r.config d (o.size r.config d))).value.values := by
  rw [attributeFor_eq, h]
  rfl

/-! ### Imports -/

/-- If each next definition yields a block as it is to be, whatever is drawn for it, and so leads to the
next stage, an import succeeds with such blocks and leads to the last stage. -/
theorem importWith_of_stages {α β : Type} {t : Registry}
    (create : Sampling → Registry → Definition → Except AnalysisError (β × Registry))
    (definition : α → Definition) (stage : Registry → List α → Prop) (yields : α → β → Prop)
    (allowed : Sampling → Prop)
    (hnext : ∀ s t x later, allowed s → stage t (x :: later) →
      ∃ b t', create s t (definition x) = .ok (b, t') ∧ yields x b ∧ stage t' later)
    {xs : List α} (chance : ℕ → Sampling) (hchance : ∀ i, allowed (chance i)) (h : stage t xs) :
    ∃ made t', importWith create chance t (xs.map definition) = (.ok made, t') ∧
      List.Forall₂ yields xs made ∧ stage t' [] := by
  induction xs generalizing t chance with
  | nil => exact ⟨[], t, rfl, .nil, h⟩
  | cons x xs ih =>
      obtain ⟨b, t₁, hcreate, hyields, hstage⟩ := hnext (chance 0) t x xs (hchance 0) h
      obtain ⟨made, t₂, himport, hmade, hend⟩ :=
        ih (fun i => chance (i + 1)) (fun i => hchance (i + 1)) hstage
      refine ⟨b :: made, t₂, ?_, .cons hyields hmade, hend⟩
      rw [List.map_cons, importWith, hcreate]
      dsimp only
      rw [himport]
      rfl

end Registry

end ErrorAnalysis
