import ErrorAnalysis.Proofs.Blocks.Histories
import ErrorAnalysis.Proofs.Blocks.Memoization
import ErrorAnalysis.Proofs.Dependencies.Flags

/-!
# What Stores Hold

The blocks of a registry stand under their own names. The dictionary of an attribute has values that
are not null, and that of a group maps to true only; neither has two keys of one question, nor more
keys than items were to be evaluated. The type of an attribute says whether its values are numbers. All
this holds of a block that is computed, because each result is recorded under a key of its own item,
and it is handed on when a block is reused.

## Main definitions

* `Attribute.IsSound`, `Group.IsSound`: what holds of a block.
* `Store.AllNamed`: blocks stand under their names and have a property.
* `Registry.IsSound`: what holds of the blocks of a registry.

## Main results

* `Registry.computeAttribute_isSound`, `Registry.computeGroup_isSound`: **computed blocks are sound.**
* `Registry.dictionary_computeGroup`: the dictionary of a group is what was recorded for it.
* `Registry.IsSound.step`: each step of a history keeps the stores sound.
* `Registry.isSound_of_steps`: **the stores are sound after every history.**
-/

namespace ErrorAnalysis

/-! ### Blocks -/

/-- What holds of an attribute. -/
structure Attribute.IsSound (a : Attribute) : Prop where
  sorted : Assoc.Sorted a.values
  notNull : ∀ e ∈ a.values, e.2 ≠ .null
  perQuestion : ∀ e ∈ a.values, ∀ e' ∈ a.values, e.1.qid = e'.1.qid → e = e'
  bounded : a.values.length ≤ a.testSize
  continuous : a.dtype = .continuous ↔
    ∀ e ∈ a.values, e.2.isList = false → e.2.isNumber = true

/-- What holds of a group. -/
structure Group.IsSound (g : Group) : Prop where
  sorted : Assoc.Sorted g.dictionary
  onlyTrue : ∀ e ∈ g.dictionary, e.2 = true
  perQuestion : ∀ e ∈ g.dictionary, ∀ e' ∈ g.dictionary, e.1.qid = e'.1.qid → e = e'
  bounded : g.dictionary.length ≤ g.testSize

/-- Values are numbers or categories according to those that are no lists. -/
theorem Dtype.ofValues_eq_continuous {vs : List Value} :
    ofValues vs = .continuous ↔ ∀ v ∈ vs, v.isList = false → v.isNumber = true := by
  rw [ofValues]
  split
  · next h =>
      refine iff_of_true rfl fun v hv hlist => List.all_eq_true.mp h v ?_
      exact List.mem_filter.mpr ⟨hv, by rw [hlist]; rfl⟩
  · next h =>
      refine iff_of_false nofun fun hall => h (List.all_eq_true.mpr fun v hv => ?_)
      obtain ⟨hv, hlist⟩ := List.mem_filter.mp hv
      rw [Bool.not_eq_true'] at hlist
      exact hall v hv hlist

/-- A value that is recorded for a group is true. -/
theorem BlockKind.eq_true_of_keeps {v : Value} (h : BlockKind.group.keeps v = true) :
    v = .bool true := by
  replace h : Value.beq v (.bool true) = true := h
  cases v with
  | bool b =>
      rw [Value.beq] at h
      rw [eq_of_beq h]
  | _ => simp [Value.beq] at h

/-- The members are the keys that a dictionary was made from. -/
theorem Group.members_eq {g : Group} {ks : SortedSet InstanceKey} (h : g.dictionary = dictionaryOf ks) :
    g.members = ks := by
  have hall : ∀ e ∈ dictionaryOf ks, e.2 = true := by
    intro e he
    obtain ⟨k, -, rfl⟩ := List.mem_map.mp he
    rfl
  rw [members, h, List.filter_eq_self.mpr hall, Assoc.keys, dictionaryOf, List.map_map]
  exact List.map_id ks

/-- A group whose dictionary is made from a set of keys is sound, if no question has two of them. -/
theorem Group.isSound_of_dictionary {g : Group} {ks : SortedSet InstanceKey}
    (h : g.dictionary = dictionaryOf ks) (hsorted : SortedSet.Sorted ks)
    (hquestion : ∀ k ∈ ks, ∀ k' ∈ ks, k.qid = k'.qid → k = k')
    (hlength : ks.length ≤ g.testSize) : g.IsSound where
  sorted := by
    rw [h]
    exact List.pairwise_map.mpr hsorted
  onlyTrue := by
    rw [h]
    intro e he
    obtain ⟨k, -, rfl⟩ := List.mem_map.mp he
    rfl
  perQuestion := by
    rw [h]
    intro e he e' he' hqid
    obtain ⟨k, hk, rfl⟩ := List.mem_map.mp he
    obtain ⟨k', hk', rfl⟩ := List.mem_map.mp he'
    rw [hquestion k hk k' hk' hqid]
  bounded := by rwa [h, dictionaryOf, List.length_map]

/-! ### Unedited members -/

theorem mem_uneditedMembers {items : List Item} {k : InstanceKey}
    (h : k ∈ uneditedMembers items) : ∃ item ∈ items, k = item.uneditedKey := by
  rcases SortedSet.mem_union.mp h with hnil | hmem
  · cases hnil
  · obtain ⟨item, hitem, rfl⟩ := List.mem_map.mp hmem
    exact ⟨item, (List.mem_filter.mp hitem).1, rfl⟩

theorem length_uneditedMembers_le {items : List Item} :
    (uneditedMembers items).length ≤ items.length := by
  refine SortedSet.length_union_le.trans ?_
  rw [List.length_nil, Nat.zero_add, List.length_map]
  exact List.length_filter_le _ _

/-! ### Stores -/

namespace Store

variable {β : Type} [Block β] {store : Store β} {P : β → Prop}

/-- Every block stands under its own name and has a property. -/
def AllNamed (store : Store β) (P : β → Prop) : Prop :=
  ∀ e ∈ store, Block.name e.2 = e.1 ∧ P e.2

theorem AllNamed.of_mem_values (h : store.AllNamed P) {b : β} (hb : b ∈ Assoc.values store) :
    P b := by
  obtain ⟨e, he, rfl⟩ := List.mem_map.mp hb
  exact (h e he).2

theorem AllNamed.mono {Q : β → Prop} (h : store.AllNamed P) (himp : ∀ b, P b → Q b) :
    store.AllNamed Q :=
  fun e he => ⟨(h e he).1, himp e.2 (h e he).2⟩

theorem AllNamed.save (h : store.AllNamed P) {b : β} (hb : P b) : (store.save b).AllNamed P := by
  intro e he
  rcases Assoc.mem_insert he with rfl | he
  · exact ⟨rfl, hb⟩
  · exact h e he

theorem AllNamed.erase (h : store.AllNamed P) (name : String) :
    AllNamed (Assoc.erase store name) P :=
  fun e he => h e (List.mem_filter.mp he).1

/-- A property that is handed on by reuse and holds of what is computed holds of what is made. -/
theorem AllNamed.of_makes (h : store.AllNamed P) {d : Dataset} {q : Query.Compiled}
    {o : CreateOptions} {size : ℕ} {takeOver : β → β} {compute : List Item → β} {b : β}
    (hmade : store.Makes d q o size takeOver compute b)
    (htakeOver : ∀ known, store.CanStandIn q size known → P known → P (takeOver known))
    (hcompute : ∀ items, o.Draws d size items → P (compute items)) : P b := by
  cases hmade with
  | reused _ hknown => exact htakeOver _ hknown (h.of_mem_values hknown.1)
  | computed _ hitems => exact hcompute _ hitems

end Store

namespace Registry

variable {r r' : Registry} {d : Dataset} {source : Definition} {q : Query.Compiled}
  {o : CreateOptions} {size : ℕ} {items : List Item}

/-! ### Computed blocks -/

/-- **An attribute that is computed is sound.** -/
theorem computeAttribute_isSound (hd : d.IsFiled) (hitems : o.Draws d size items) :
    (r.computeAttribute source q size items).IsSound where
  sorted := sorted_evaluateOver
  notNull := by
    intro e he heq
    have hkeeps := keeps_of_mem_evaluateOver he
    rw [heq] at hkeeps
    cases hkeeps
  perQuestion := fun e he e' he' =>
    eq_of_qid_eq_evaluateOver hd (fun _ => hitems.mem_allItems) he he'
  bounded := by
    refine length_evaluateFrom_le.trans ?_
    rw [List.length_nil, Nat.zero_add]
    exact hitems.length_le
  continuous := by
    refine Dtype.ofValues_eq_continuous.trans ⟨fun h e he => ?_, fun h v hv => ?_⟩
    · exact h e.2 (List.mem_map_of_mem he)
    · obtain ⟨e, he, rfl⟩ := List.mem_map.mp hv
      exact h e he

/-- The members of a group with a query are what a run over its items records. -/
theorem value_membersFor (r : Registry) (items : List Item) (h : q.root.isNoOp = false) :
    (r.membersFor q items).value =
      Assoc.keys (r.evaluateOver q.root .group r.config.failurePolicy items).value.values := by
  rw [membersFor, if_neg (Bool.eq_false_iff.mp h)]
  rfl

theorem members_computeGroup (r : Registry) (source : Definition) (size : ℕ) (items : List Item)
    (h : q.root.isNoOp = false) :
    (r.computeGroup source q size items).members =
      Assoc.keys (r.evaluateOver q.root .group r.config.failurePolicy items).value.values :=
  (Group.members_eq rfl).trans (r.value_membersFor items h)

/-- **A group that is computed is sound.** -/
theorem computeGroup_isSound (hd : d.IsFiled) (hitems : o.Draws d size items) :
    (r.computeGroup source q size items).IsSound := by
  by_cases hnoOp : q.root.isNoOp = true
  · have hmembers : (r.membersFor q items).value = uneditedMembers items := by
      rw [membersFor, if_pos hnoOp]
      rfl
    refine Group.isSound_of_dictionary rfl ?_ ?_ ?_ <;> rw [hmembers]
    · exact SortedSet.sorted_union List.Pairwise.nil
    · intro k hk k' hk' hqid
      obtain ⟨item, -, rfl⟩ := mem_uneditedMembers hk
      obtain ⟨item', -, rfl⟩ := mem_uneditedMembers hk'
      exact congrArg InstanceKey.unedited hqid
    · exact length_uneditedMembers_le.trans hitems.length_le
  · have hmembers := r.value_membersFor items (Bool.eq_false_iff.mpr hnoOp)
    refine Group.isSound_of_dictionary rfl ?_ ?_ ?_ <;> rw [hmembers]
    · exact List.pairwise_map.mpr sorted_evaluateOver
    · intro k hk k' hk' hqid
      obtain ⟨e, he, rfl⟩ := List.mem_map.mp hk
      obtain ⟨e', he', rfl⟩ := List.mem_map.mp hk'
      rw [eq_of_qid_eq_evaluateOver hd (fun _ => hitems.mem_allItems) he he' hqid]
    · rw [Assoc.keys, List.length_map]
      refine length_evaluateFrom_le.trans ?_
      rw [List.length_nil, Nat.zero_add]
      exact hitems.length_le

/-- The dictionary of a computed group is what the run recorded. -/
theorem dictionary_computeGroup (h : q.root.isNoOp = false) :
    (r.computeGroup source q size items).dictionary.map (fun e => (e.1, Value.bool e.2)) =
      (r.evaluateOver q.root .group r.config.failurePolicy items).value.values := by
  rw [computeGroup, Group.dictionaryOf, r.value_membersFor items h, Assoc.keys, List.map_map,
    List.map_map]
  refine (List.map_congr_left fun e he => ?_).trans (List.map_id _)
  have htrue := BlockKind.eq_true_of_keeps (keeps_of_mem_evaluateOver he)
  exact Prod.ext rfl htrue.symm

/-! ### Histories -/

/-- Every block of a registry stands under its own name and is sound. -/
structure IsSound (r : Registry) : Prop where
  attributes : r.attributes.AllNamed Attribute.IsSound
  groups : r.groups.AllNamed Group.IsSound

/-- An attribute that is made is sound. -/
theorem IsSound.of_makesAttribute (h : r.IsSound) (hd : d.IsFiled) {a : Attribute}
    (hmade : r.MakesAttribute d source q o a) : a.IsSound := by
  refine h.attributes.of_makes hmade (fun known _ hknown => ?_) fun items hitems =>
    computeAttribute_isSound hd hitems
  exact ⟨hknown.sorted, hknown.notNull, hknown.perQuestion, hknown.bounded, hknown.continuous⟩

/-- A group that is made is sound. -/
theorem IsSound.of_makesGroup (h : r.IsSound) (hd : d.IsFiled) {g : Group}
    (hmade : r.MakesGroup d source q o g) : g.IsSound := by
  refine h.groups.of_makes hmade (fun known _ hknown => ?_) fun items hitems =>
    computeGroup_isSound hd hitems
  exact ⟨hknown.sorted, hknown.onlyTrue, hknown.perQuestion, hknown.bounded⟩

/-- A step with the blocks keeps the stores sound. -/
theorem IsSound.blockStep (h : r.IsSound) (hstep : BlockStep (fun d _ _ => d.IsFiled) r r') :
    r'.IsSound := by
  cases hstep with
  | makeAttribute asked hd _ _ hmade =>
      split
      · exact ⟨h.attributes.save (h.of_makesAttribute hd hmade), h.groups⟩
      · exact ⟨h.attributes, h.groups⟩
  | makeGroup asked hd _ hmade =>
      split
      · exact ⟨h.attributes, h.groups.save (h.of_makesGroup hd hmade)⟩
      · exact ⟨h.attributes, h.groups⟩
  | eraseAttribute name => exact ⟨h.attributes.erase name, h.groups⟩
  | eraseGroup name => exact ⟨h.attributes, h.groups.erase name⟩

theorem IsSound.blockSteps (h : r.IsSound)
    (hsteps : Relation.ReflTransGen (BlockStep fun d _ _ => d.IsFiled) r r') : r'.IsSound := by
  induction hsteps with
  | refl => exact h
  | tail _ hstep ih => exact ih.blockStep hstep

/-- **Each step of a history keeps the stores sound.** -/
theorem IsSound.step (h : r.IsSound) (hstep : Step r r') : r'.IsSound := by
  cases hstep with
  | blocks hblock => exact h.blockStep hblock
  | importAttributes hd _ chance sources =>
      exact h.blockSteps (steps_importAttributes (fun _ _ => hd) chance r sources)
  | importGroups hd _ chance sources =>
      exact h.blockSteps (steps_importGroups (fun _ _ => hd) chance r sources)
  | setModel _ => exact ⟨h.attributes, h.groups⟩
  | setEdit _ => exact ⟨h.attributes, h.groups⟩
  | setFrequencies _ _ => exact ⟨h.attributes, h.groups⟩

/-- Blocks are made one after the other up to the first that fails. That one leaves the registry as those
before it have left it. -/
def FailsAt {β : Type} (create : Sampling → Registry → Definition → Except AnalysisError (β × Registry))
    (chance : ℕ → Sampling) (r : Registry) (sources : List Definition) (e : AnalysisError)
    (r' : Registry) : Prop :=
  ∃ done source later made, sources = done ++ source :: later ∧
    importWith create chance r done = (.ok made, r') ∧
    create (chance done.length) r' source = .error e

section FailsAt

variable {β : Type} {create : Sampling → Registry → Definition → Except AnalysisError (β × Registry)}
  {chance : ℕ → Sampling} {sources : List Definition} {e : AnalysisError} {b : β} {r₁ : Registry}

/-- What follows after a block is made from what it left. -/
theorem importWith_cons_of_ok (h : create (chance 0) r source = .ok (b, r₁)) (sources : List Definition) :
    importWith create chance r (source :: sources) =
      ((importWith create (fun i => chance (i + 1)) r₁ sources).1.map (b :: ·),
        (importWith create (fun i => chance (i + 1)) r₁ sources).2) := by
  rw [importWith, h]

theorem importWith_cons_eq_ok (h : create (chance 0) r source = .ok (b, r₁)) {made : List β} :
    importWith create chance r (source :: sources) = (.ok made, r') ↔
      ∃ rest, made = b :: rest ∧
        importWith create (fun i => chance (i + 1)) r₁ sources = (.ok rest, r') := by
  rw [importWith_cons_of_ok h]
  generalize importWith create (fun i => chance (i + 1)) r₁ sources = result
  obtain ⟨_ | rest, r₂⟩ := result
  · exact iff_of_false nofun (by rintro ⟨_, -, ⟨⟩⟩)
  · simp only [Except.map, Prod.mk.injEq, Except.ok.injEq]
    constructor
    · rintro ⟨rfl, rfl⟩
      exact ⟨rest, rfl, rfl, rfl⟩
    · rintro ⟨_, rfl, rfl, rfl⟩
      exact ⟨rfl, rfl⟩

theorem importWith_cons_eq_error (h : create (chance 0) r source = .ok (b, r₁)) :
    importWith create chance r (source :: sources) = (.error e, r') ↔
      importWith create (fun i => chance (i + 1)) r₁ sources = (.error e, r') := by
  rw [importWith_cons_of_ok h]
  generalize importWith create (fun i => chance (i + 1)) r₁ sources = result
  obtain ⟨_ | rest, r₂⟩ := result
  · exact Iff.rfl
  · exact iff_of_false nofun nofun

theorem failsAt_cons_of_error {e' : AnalysisError} (h : create (chance 0) r source = .error e') :
    FailsAt create chance r (source :: sources) e r' ↔ e' = e ∧ r = r' := by
  constructor
  · rintro ⟨_ | ⟨_, done⟩, source', later, made, hsources, himport, hfails⟩
    · obtain ⟨rfl, rfl⟩ := List.cons.inj hsources
      obtain ⟨-, rfl⟩ := Prod.mk.inj himport
      exact ⟨Except.error.inj (h.symm.trans hfails), rfl⟩
    · obtain ⟨rfl, -⟩ := List.cons.inj hsources
      rw [importWith, h] at himport
      cases himport
  · rintro ⟨rfl, rfl⟩
    exact ⟨[], source, sources, [], rfl, rfl, h⟩

theorem failsAt_cons_of_ok (h : create (chance 0) r source = .ok (b, r₁)) :
    FailsAt create chance r (source :: sources) e r' ↔
      FailsAt create (fun i => chance (i + 1)) r₁ sources e r' := by
  constructor
  · rintro ⟨_ | ⟨_, done⟩, source', later, made, hsources, himport, hfails⟩
    · obtain ⟨rfl, rfl⟩ := List.cons.inj hsources
      obtain ⟨-, rfl⟩ := Prod.mk.inj himport
      cases h.symm.trans hfails
    · obtain ⟨rfl, rfl⟩ := List.cons.inj hsources
      obtain ⟨rest, -, himport⟩ := (importWith_cons_eq_ok h).mp himport
      exact ⟨done, source', later, rest, rfl, himport, hfails⟩
  · rintro ⟨done, source', later, made, rfl, himport, hfails⟩
    exact ⟨source :: done, source', later, b :: made, rfl,
      (importWith_cons_eq_ok h).mpr ⟨made, rfl, himport⟩, hfails⟩

/-- An import fails where the first of its blocks does. -/
theorem importWith_eq_error_iff :
    importWith create chance r sources = (.error e, r') ↔ FailsAt create chance r sources e r' := by
  induction sources generalizing r chance with
  | nil =>
      refine iff_of_false nofun ?_
      rintro ⟨done, source, later, made, hsources, -, -⟩
      exact List.append_ne_nil_of_right_ne_nil done (List.cons_ne_nil source later) hsources.symm
  | cons source sources ih =>
      cases hcreate : create (chance 0) r source with
      | error e' =>
          rw [failsAt_cons_of_error hcreate, importWith, hcreate, Prod.mk.injEq, Except.error.injEq]
      | ok made => rw [failsAt_cons_of_ok hcreate, importWith_cons_eq_error hcreate, ih]

end FailsAt

/-- **The stores are sound after every history that starts without blocks.** From there, making blocks one
after the other fails with the first that cannot be made, and that one leaves the stores as they were. -/
theorem isSound_of_steps {start : Registry} (hattributes : start.attributes = [])
    (hgroups : start.groups = []) (hsteps : Relation.ReflTransGen Step start r) :
    r.IsSound ∧ ∀ d (o : Sampling → CreateOptions) chance sources e r',
      (importWith (fun s r source => r.createAttribute d source (o s)) chance r sources = (.error e, r') ↔
        FailsAt (fun s r source => r.createAttribute d source (o s)) chance r sources e r') ∧
      (importWith (fun s r source => r.createGroup d source (o s)) chance r sources = (.error e, r') ↔
        FailsAt (fun s r source => r.createGroup d source (o s)) chance r sources e r') := by
  refine ⟨?_, fun _ _ _ _ _ _ => ⟨importWith_eq_error_iff, importWith_eq_error_iff⟩⟩
  induction hsteps with
  | refl =>
      refine ⟨fun e he => ?_, fun e he => ?_⟩
      · rw [hattributes] at he
        cases he
      · rw [hgroups] at he
        cases he
  | tail _ hstep ih => exact ih.step hstep

/-! ### A short history -/

/-- What an attribute for the count is made from. -/
def counting : Definition where
  name := "count"
  cmd := "n"

/-- After an attribute was made and a model was selected, the attribute is sound. It has a value for
each question. -/
theorem isSound_counting :
    ∃ r, Relation.ReflTransGen Step (ofConfig {}) r ∧
      (Assoc.values r.attributes).map (fun a => (a.name, Assoc.keys a.values)) =
        [("count", [⟨"q1", 0⟩, ⟨"q2", 0⟩])] ∧
      r.IsSound := by
  have hparse : Query.parse "n" = .ok (.ident "n") :=
    Expr.parse_of_text_eq (by decide +kernel) (by decide) (by decide) (by decide)
  have hcompile : (ofConfig {}).compile counting.cmd = .ok ⟨"n", .ident "n", {}⟩ :=
    compile_of_parse hparse
  have hmade := @createAttribute_of_compile (ofConfig {}) countedQuestions counting {} _ (by decide)
    hcompile
  have hfiled : countedQuestions.IsFiled := Dataset.isFiled_ofInstances _
  have hstep := Step.blocks (blockStep_createAttribute (fun _ _ => hfiled) hmade)
  have hsteps := (Relation.ReflTransGen.single hstep).tail (.setModel _ (some "bert"))
  exact ⟨_, hsteps, by decide +kernel, (isSound_of_steps rfl rfl hsteps).1⟩

end Registry

end ErrorAnalysis
