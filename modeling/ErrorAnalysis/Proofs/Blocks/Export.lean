import ErrorAnalysis.Proofs.Blocks.Replay

/-!
# Exporting and Importing Definitions

Whatever the history of a registry, each of its blocks keeps the command that it was made from, and the
command still denotes the tree of its query. This holds of blocks that took over the content of other
ones as well, because they have a query of their own; and a group without a command keeps the empty one.
So the definitions of all blocks can be imported into a registry without blocks: no command fails, since
what a command denotes does not depend on a registry, and a query that has no value on an item is no
error. The content of the blocks may be another one than before, but their definitions are the same, and
so is the text that they are exported to.

If the attributes do not refer to each other in a cycle, they never do so during the import, since each
registry on the way has the first ones of them.

## Main definitions

* `Query.Compiled.IsOfCommand`: a query is what its own command denotes.
* `Registry.IsExportable`: what every history keeps of the blocks of a registry.
* `Store.trees`: what an import keeps of the blocks of a registry.
* `Registry.Survives`: the blocks of a store survive an export and an import.

## Main results

* `Registry.IsExportable.step`: **each step of a history keeps a registry exportable.**
* `Registry.importWith_trees`: an import makes all blocks of a store again.
* `Registry.survives_of_steps`: **definitions survive an export and an import.**
-/

namespace ErrorAnalysis

/-! ### Queries and their commands -/

/-- A query is what its own command denotes, as far as its tree is concerned. -/
structure Query.Compiled.IsOfCommand (q : Query.Compiled) : Prop where
  command : isAllBlank q.cmd.toList = false
  parses : Query.parse q.cmd = .ok q.root

namespace Registry

variable {start r r' t : Registry} {d : Dataset} {source : Definition} {q : Query.Compiled}
  {o : CreateOptions} {a : Attribute} {g : Group}

theorem isOfCommand_of_compile {cmd : String} (hcmd : isAllBlank cmd.toList = false)
    (h : r.compile cmd = .ok q) : q.IsOfCommand := by
  obtain ⟨hparse, rfl, -⟩ := compile_eq_ok h
  exact ⟨hcmd, hparse⟩

/-- The query of a group does nothing, or it is what its own command denotes. -/
theorem isOfCommand_of_groupQuery {cmd : String} (h : r.groupQuery cmd = .ok q) :
    q = .nothing ∨ q.IsOfCommand := by
  by_cases hblank : isAllBlank cmd.toList = true
  · rw [groupQuery, if_pos hblank] at h
    exact .inl (Except.ok.inj h).symm
  · rw [groupQuery, if_neg hblank] at h
    exact .inr (isOfCommand_of_compile (Bool.eq_false_iff.mpr hblank) h)

/-! ### Histories -/

/-- All blocks stand under their names, in order, and have queries that their own commands denote. -/
structure IsExportable (r : Registry) : Prop where
  sortedAttributes : Assoc.Sorted r.attributes
  sortedGroups : Assoc.Sorted r.groups
  attributes : r.attributes.AllNamed fun a => a.query.IsOfCommand
  groups : r.groups.AllNamed fun g => g.query = .nothing ∨ g.query.IsOfCommand

/-- A step with the blocks keeps a registry exportable, whatever it makes and on whatever dataset. -/
theorem IsExportable.blockStep {allowed : Dataset → Query.Compiled → CreateOptions → Prop}
    (h : r.IsExportable) (hstep : BlockStep allowed r r') : r'.IsExportable := by
  cases hstep with
  | makeAttribute asked _ hcmd hq hmade =>
      have hquery := isOfCommand_of_compile hcmd hq
      have ha := h.attributes.of_makes hmade (fun _ _ _ => hquery) fun _ _ => hquery
      split
      · exact ⟨h.sortedAttributes.insert, h.sortedGroups, h.attributes.save ha, h.groups⟩
      · exact ⟨h.sortedAttributes, h.sortedGroups, h.attributes, h.groups⟩
  | makeGroup asked _ hq hmade =>
      have hquery := isOfCommand_of_groupQuery hq
      have hg := h.groups.of_makes hmade (fun _ _ _ => hquery) fun _ _ => hquery
      split
      · exact ⟨h.sortedAttributes, h.sortedGroups.insert, h.attributes, h.groups.save hg⟩
      · exact ⟨h.sortedAttributes, h.sortedGroups, h.attributes, h.groups⟩
  | eraseAttribute name =>
      exact ⟨h.sortedAttributes.filter _, h.sortedGroups, h.attributes.erase name, h.groups⟩
  | eraseGroup name =>
      exact ⟨h.sortedAttributes, h.sortedGroups.filter _, h.attributes, h.groups.erase name⟩

theorem IsExportable.blockSteps {allowed : Dataset → Query.Compiled → CreateOptions → Prop}
    (h : r.IsExportable) (hsteps : Relation.ReflTransGen (BlockStep allowed) r r') :
    r'.IsExportable := by
  induction hsteps with
  | refl => exact h
  | tail _ hstep ih => exact ih.blockStep hstep

/-- **Each step of a history keeps a registry exportable.** -/
theorem IsExportable.step (h : r.IsExportable) (hstep : Step r r') : r'.IsExportable := by
  cases hstep with
  | blocks hblock => exact h.blockStep hblock
  | @importAttributes d _ _ chance sources =>
      have hsteps : Relation.ReflTransGen (BlockStep fun _ _ _ => True) r
          (r.importAttributes d chance sources).2 :=
        steps_importAttributes (fun _ _ => trivial) chance r sources
      exact h.blockSteps hsteps
  | @importGroups d _ _ chance sources =>
      have hsteps : Relation.ReflTransGen (BlockStep fun _ _ _ => True) r
          (r.importGroups d chance sources).2 :=
        steps_importGroups (fun _ _ => trivial) chance r sources
      exact h.blockSteps hsteps
  | setModel _ => exact ⟨h.sortedAttributes, h.sortedGroups, h.attributes, h.groups⟩
  | setEdit _ => exact ⟨h.sortedAttributes, h.sortedGroups, h.attributes, h.groups⟩
  | setFrequencies _ _ => exact ⟨h.sortedAttributes, h.sortedGroups, h.attributes, h.groups⟩

/-- A registry is exportable after every history that starts without blocks. -/
theorem isExportable_of_steps (hattributes : start.attributes = []) (hgroups : start.groups = [])
    (hsteps : Relation.ReflTransGen Step start r) : r.IsExportable := by
  induction hsteps with
  | refl =>
      constructor
      · rw [hattributes]
        exact List.Pairwise.nil
      · rw [hgroups]
        exact List.Pairwise.nil
      · rw [hattributes]
        exact fun e he => nomatch he
      · rw [hgroups]
        exact fun e he => nomatch he
  | tail _ hstep ih => exact ih.step hstep

end Registry

/-! ### What an import keeps -/

/-- A block is made again: with the same name, description and command, and for the same tree. -/
structure Block.IsMadeAgain {β : Type} [Block β] (b b' : β) : Prop where
  definition : Block.definition b' = Block.definition b
  root : (Block.query b').root = (Block.query b).root

namespace Store

variable {β : Type} [Block β] {store store' front later : Store β} {name : String} {b b' : β}

/-- The definitions and trees of blocks by their names. -/
def trees (store : Store β) : Assoc String (Definition × Expr) :=
  store.map fun e => (e.1, Block.definition e.2, (Block.query e.2).root)

theorem find?_trees :
    Assoc.find? store.trees name =
      (Assoc.find? store name).map fun b => (Block.definition b, (Block.query b).root) := by
  induction store with
  | nil => rfl
  | cons e store ih =>
      rw [trees, List.map_cons, Assoc.find?, Assoc.find?]
      split
      · rfl
      · exact ih

theorem sorted_trees : Assoc.Sorted store.trees ↔ Assoc.Sorted store :=
  List.pairwise_map

/-- Stores with the same trees have the same definitions. -/
theorem definitions_eq_of_trees (h : store'.trees = store.trees) :
    store'.definitions = store.definitions := by
  have hsnd (store : Store β) : store.definitions = store.trees.map fun e => e.2.1 := by
    rw [definitions, Assoc.values, trees, List.map_map, List.map_map]
    rfl
  rw [hsnd, hsnd, h]

/-- A block that is made again is put at the end if all others come before it. -/
theorem trees_save (hsorted : Assoc.Sorted (front ++ (name, b) :: later)) (hname : Block.name b = name)
    (htrees : store.trees = front.trees) (hagain : Block.IsMadeAgain b b') :
    (store.save b').trees = trees (front ++ [(name, b)]) := by
  have hname' : Block.name b' = name := (congrArg Definition.name hagain.definition).trans hname
  have hlast : trees [(name, b')] = trees [(name, b)] := by
    rw [trees, trees, List.map_singleton, List.map_singleton, hagain.definition, hagain.root]
  have happend (front back : Store β) : trees (front ++ back) = front.trees ++ back.trees :=
    List.map_append
  have hsame : trees (store ++ [(name, b')]) = trees (front ++ [(name, b)]) := by
    rw [happend, happend, htrees, hlast]
  have hup : Assoc.Sorted (store ++ [(name, b')]) := by
    rw [← sorted_trees, hsame, sorted_trees]
    exact hsorted.upTo
  rw [save, hname', Assoc.insert_of_sorted_append hup, hsame]

end Store

namespace Registry

variable {start r r' t : Registry} {d : Dataset} {a : Attribute} {g : Group}

/-! ### Imports -/

/-- An attribute is made again from its definition, whatever is drawn. -/
theorem createAttribute_again (h : a.query.IsOfCommand) (t : Registry) (d : Dataset)
    (sampling : Sampling) :
    ∃ a' t', t.createAttribute d (Block.definition a) { sampling } = .ok (a', t') ∧
      Block.IsMadeAgain a a' ∧ t'.attributes = t.attributes.save a' := by
  have hcompile := compile_of_parse (r := t) h.parses
  refine ⟨_, _, createAttribute_of_compile h.command hcompile, ⟨definition_attributeFor _, ?_⟩, rfl⟩
  exact (congrArg Query.Compiled.root (query_attributeFor _)).trans rfl

/-- A group is made again from its definition, also if it has no command. -/
theorem createGroup_again (h : g.query = .nothing ∨ g.query.IsOfCommand) (t : Registry) (d : Dataset)
    (sampling : Sampling) :
    ∃ g' t', t.createGroup d (Block.definition g) { sampling } = .ok (g', t') ∧
      Block.IsMadeAgain g g' ∧ t'.groups = t.groups.save g' := by
  have hmade (q : Query.Compiled) (hq : t.groupQuery g.query.cmd = .ok q) (hcmd : q.cmd = g.query.cmd)
      (hroot : q.root = g.query.root) :
      ∃ g' t', t.createGroup d (Block.definition g) { sampling } = .ok (g', t') ∧
        Block.IsMadeAgain g g' ∧ t'.groups = t.groups.save g' := by
    refine ⟨_, _, congrArg (· >>= _) hq, ⟨(definition_groupFor q).trans ?_, ?_⟩, rfl⟩
    · rw [hcmd]
      rfl
    · exact (congrArg Query.Compiled.root (query_groupFor q)).trans hroot
  rcases h with hnothing | h
  · exact hmade .nothing (by rw [hnothing]; rfl) (by rw [hnothing]) (by rw [hnothing])
  · refine hmade (t.queryFor g.query.cmd g.query.root) ?_ rfl rfl
    rw [groupQuery, if_neg (Bool.eq_false_iff.mp h.command), compile_of_parse h.parses]
    rfl

/-- **An import makes all blocks of a store again,** if each of them is made again from its
definition. -/
theorem importWith_trees {β : Type} [Block β] {store : Store β}
    (create : Sampling → Registry → Definition → Except AnalysisError (β × Registry))
    (get : Registry → Store β) (hsorted : Assoc.Sorted store)
    (hagain : ∀ e ∈ store, Block.name e.2 = e.1 ∧ ∀ t s, ∃ b t',
      create s t (Block.definition e.2) = .ok (b, t') ∧ Block.IsMadeAgain e.2 b ∧
        get t' = (get t).save b)
    (hempty : get t = []) (chance : ℕ → Sampling) :
    ∃ made t', importWith create chance t store.definitions = (.ok made, t') ∧
      made.map Block.definition = store.definitions ∧ (get t').trees = store.trees := by
  -- On the way there are the first blocks of the store, each of them made again.
  obtain ⟨made, t', himport, hmade, front, hfront, htrees⟩ := importWith_of_stages create
    (fun e : String × β => Block.definition e.2)
    (fun t later => ∃ front, store = front ++ later ∧ (get t).trees = Store.trees front)
    (fun e b => Block.IsMadeAgain e.2 b) (fun _ => True)
    (by
      rintro s t e later - ⟨front, hfront, htrees⟩
      have hmem : e ∈ store := hfront ▸ List.mem_append_right _ List.mem_cons_self
      obtain ⟨hname, hcreate⟩ := hagain e hmem
      obtain ⟨b, t', hcreate, hb, hget⟩ := hcreate t s
      refine ⟨b, t', hcreate, hb, front ++ [e], ?_, ?_⟩
      · rw [hfront, List.append_assoc, List.singleton_append]
      · rw [hget]
        exact Store.trees_save (hfront ▸ hsorted) hname htrees hb)
    chance (fun _ => trivial)
    (show ∃ front, store = front ++ store ∧ (get t).trees = Store.trees front from
      ⟨[], rfl, by rw [hempty]⟩)
  rw [List.append_nil] at hfront
  have hdefinitions : store.definitions = store.map fun e => Block.definition e.2 := by
    rw [Store.definitions, Assoc.values, List.map_map]
    rfl
  refine ⟨made, t', hdefinitions ▸ himport, ?_, hfront ▸ htrees⟩
  rw [hdefinitions]
  clear himport hdefinitions hfront hagain hsorted
  induction hmade with
  | nil => rfl
  | cons hb _ ih => rw [List.map_cons, List.map_cons, hb.definition, ih]

theorem importAttributes_trees {store : Store Attribute} (hsorted : Assoc.Sorted store)
    (hnamed : store.AllNamed fun a => a.query.IsOfCommand) (hempty : t.attributes = []) (d : Dataset)
    (chance : ℕ → Sampling) :
    ∃ made t', t.importAttributes d chance store.definitions = (.ok made, t') ∧
      made.map Block.definition = store.definitions ∧ t'.attributes.trees = store.trees :=
  importWith_trees (fun sampling t source => t.createAttribute d source { sampling })
    Registry.attributes hsorted
    (fun e he => ⟨(hnamed e he).1, fun t => createAttribute_again (hnamed e he).2 t d⟩) hempty chance

theorem importGroups_trees {store : Store Group} (hsorted : Assoc.Sorted store)
    (hnamed : store.AllNamed fun g => g.query = .nothing ∨ g.query.IsOfCommand)
    (hempty : t.groups = []) (d : Dataset) (chance : ℕ → Sampling) :
    ∃ made t', t.importGroups d chance store.definitions = (.ok made, t') ∧
      made.map Block.definition = store.definitions ∧ t'.groups.trees = store.trees :=
  importWith_trees (fun sampling t source => t.createGroup d source { sampling }) Registry.groups
    hsorted (fun e he => ⟨(hnamed e he).1, fun t => createGroup_again (hnamed e he).2 t d⟩) hempty chance

/-- An import of groups leaves the attributes as they are. -/
theorem attributes_importGroups (t : Registry) (d : Dataset) (chance : ℕ → Sampling)
    (sources : List Definition) : (t.importGroups d chance sources).2.attributes = t.attributes := by
  rw [importGroups]
  induction sources generalizing t chance with
  | nil => rfl
  | cons source sources ih =>
      rw [importWith]
      cases hcreate : t.createGroup d source { sampling := chance 0 } with
      | error e => rfl
      | ok made =>
          obtain ⟨q, -, -, hregistry⟩ := createGroup_eq_ok hcreate
          exact (ih made.2 _).trans (by rw [hregistry]; rfl)

/-- The first definitions of a store are those of its first blocks. -/
theorem exists_prefix_of_definitions {β : Type} [Block β] {store : Store β} {done : List Definition}
    (h : done <+: store.definitions) : ∃ front : Store β, front <+: store ∧ done = front.definitions := by
  refine ⟨store.take done.length, List.take_prefix _ _, ?_⟩
  have htake := List.prefix_iff_eq_take.mp h
  rw [Store.definitions, Assoc.values, List.map_map, ← List.map_take, ← List.map_map] at htake
  exact htake

/-- Attributes refer to what they refer to in a registry that has the same ones first. -/
theorem refers_of_trees {front : Store Attribute} (hfront : front <+: r.attributes)
    (htrees : t.attributes.trees = front.trees) {name other : String} (h : t.Refers name other) :
    r.Refers name other := by
  obtain ⟨a, hfind, hmem⟩ := h
  have hsame := congrArg (Assoc.find? · name) htrees
  rw [Store.find?_trees, Store.find?_trees, hfind] at hsame
  obtain ⟨b, hb, heq⟩ := Option.map_eq_some_iff.mp hsame.symm
  obtain ⟨later, hlater⟩ := hfront
  refine ⟨b, hlater ▸ Assoc.find?_append_of_some hb, ?_⟩
  have hroot : b.query.root = a.query.root := (Prod.mk.inj heq).2
  rw [hroot]
  exact hmem

/-! ### Exports -/

/-- The blocks of a store survive an export and an import: the text that they are exported to is read
back, each definition yields a block, and what is there in the end is exported to the same text. -/
def Survives {β : Type} [Block β] (store : Store β) (get : Registry → Store β)
    (importAll : List Definition → Except AnalysisError (List β) × Registry) : Prop :=
  ∃ sources made t', Definition.importText? (Definition.exportText store.definitions) = some sources ∧
    importAll sources = (.ok made, t') ∧ made.map Block.definition = store.definitions ∧
    Definition.exportText (get t').definitions = Definition.exportText store.definitions

/-- **Definitions survive an export and an import.** The blocks are those that any history leaves, and
the attributes among them do not refer to each other in a cycle. Attributes are imported into a registry
without attributes, and there are no cycles on the way. Groups are imported into a registry without
groups, and its attributes stay as they are. Which items are drawn for a block on the way does not matter. -/
theorem survives_of_steps (hattributes : start.attributes = []) (hgroups : start.groups = [])
    (hsteps : Relation.ReflTransGen Step start r)
    (hacyclic : ∀ name, ¬ Relation.TransGen r.Refers name name) (d : Dataset) (chance : ℕ → Sampling) :
    (∀ t : Registry, t.attributes = [] →
      Survives r.attributes Registry.attributes (t.importAttributes d chance) ∧
        ∀ done, done <+: r.attributes.definitions → ∀ name,
          ¬ Relation.TransGen (t.importAttributes d chance done).2.Refers name name) ∧
    ∀ t : Registry, t.groups = [] →
      Survives r.groups Registry.groups (t.importGroups d chance) ∧
        ∀ done, done <+: r.groups.definitions →
          (t.importGroups d chance done).2.attributes = t.attributes := by
  have h := isExportable_of_steps hattributes hgroups hsteps
  refine ⟨fun t hempty => ⟨?_, fun done hdone name hcycle => ?_⟩, fun t hempty => ⟨?_, fun done _ => ?_⟩⟩
  · obtain ⟨made, t', himport, hmade, htrees⟩ :=
      importAttributes_trees h.sortedAttributes h.attributes hempty d chance
    refine ⟨_, made, t', Definition.importText?_exportText _, himport, hmade, ?_⟩
    rw [Store.definitions_eq_of_trees htrees]
  · obtain ⟨front, hfront, rfl⟩ := exists_prefix_of_definitions hdone
    obtain ⟨made, u, himport, -, htrees⟩ := importAttributes_trees
      (h.sortedAttributes.sublist hfront.sublist) (fun e he => h.attributes e (hfront.subset he))
      hempty d chance
    rw [himport] at hcycle
    exact hacyclic name (hcycle.lift id fun _ _ => refers_of_trees hfront htrees)
  · obtain ⟨made, t', himport, hmade, htrees⟩ :=
      importGroups_trees h.sortedGroups h.groups hempty d chance
    refine ⟨_, made, t', Definition.importText?_exportText _, himport, hmade, ?_⟩
    rw [Store.definitions_eq_of_trees htrees]
  · exact attributes_importGroups t d chance done

/-- What a group without a command is made from. -/
def everyone : Definition where
  name := "everyone"
  description := "all \"unedited\" ones"
  cmd := " "

/-- What a second attribute for the count is made from. -/
def recounting : Definition where
  name := "again"
  cmd := "n"

/-- A registry with the group that is made of a blank command. -/
def withEveryone (r : Registry) (d : Dataset) (source : Definition) : Registry :=
  let made := r.groupFor d source .nothing {}
  (r.remember made.asked).saveGroup made.value

theorem createGroup_of_blank (hcmd : isAllBlank source.cmd.toList = true) :
    r.createGroup d source {} =
      .ok ((r.groupFor d source .nothing {}).value, r.withEveryone d source) := by
  rw [createGroup, groupQuery, if_pos hcmd]
  rfl

theorem refers_withEveryone (r : Registry) (d : Dataset) (source : Definition) :
    (r.withEveryone d source).Refers = r.Refers := rfl

/-- A registry with attributes for the count, for the negated count and again for the count. -/
def recounted : Registry :=
  negated.withAttribute countedQuestions recounting (.ident "n")

/-- Two attributes of which one refers to the other, a third one that takes over the values of another,
and a group whose command is blank survive an export and an import. The command of the group is written
as the empty one. -/
theorem survives_of_steps_recounted :
    let r := recounted.withEveryone countedQuestions everyone
    Relation.ReflTransGen Step (ofConfig {}) r ∧
      (∀ name, ¬ Relation.TransGen r.Refers name name) ∧
      r.attributes.definitions = [recounting, counting, negation] ∧
      r.groups.definitions = [{ everyone with cmd := "" }] ∧
      Survives r.attributes Registry.attributes
        ((ofConfig {}).importAttributes countedQuestions fun _ => {}) ∧
      Survives r.groups Registry.groups ((ofConfig {}).importGroups countedQuestions fun _ => {}) := by
  intro r
  have hcounting : Query.parse counting.cmd = .ok (.ident "n") :=
    Expr.parse_of_text_eq (by decide +kernel) (by decide) (by decide) (by decide)
  have hnegation : Query.parse negation.cmd = .ok negatedCount :=
    Expr.parse_of_text_eq (by decide +kernel) (by decide) (by decide) (by decide)
  have hrecounting : Query.parse recounting.cmd = .ok (.ident "n") := hcounting
  have hfirst : Builds (fun _ => .first) countedQuestions (ofConfig {}) _ :=
    builds_withAttribute (by decide) hcounting rfl (resolves_of_registers (by decide))
  have hsecond : Builds (fun _ => .first) countedQuestions _ negated :=
    builds_withAttribute (by decide) hnegation (by decide +kernel)
      (resolves_of_registers (by decide +kernel))
  have hthird : Builds (fun _ => .first) countedQuestions _ recounted :=
    builds_withAttribute (by decide) hrecounting (by decide +kernel)
      (resolves_of_registers (by decide))
  have hbuilds := ((Relation.ReflTransGen.single hfirst).tail hsecond).tail hthird
  have hrefers : r.Refers = recounted.Refers := refers_withEveryone _ _ _
  have hacyclic (name : String) : ¬ Relation.TransGen r.Refers name name := by
    rw [hrefers]
    exact (isSettled_of_builds rfl rfl (by decide) hbuilds).1.closed.acyclic name
  have hfiled : countedQuestions.IsFiled := Dataset.isFiled_ofInstances _
  have hsteps : Relation.ReflTransGen Step (ofConfig {}) recounted :=
    hbuilds.lift id fun _ _ hstep => hstep.step hfiled
  have hgroup : Step recounted r :=
    .blocks (blockStep_createGroup (fun _ _ => hfiled) (createGroup_of_blank (by decide)))
  obtain ⟨hattributes, hgroups⟩ :=
    survives_of_steps rfl rfl (hsteps.tail hgroup) hacyclic countedQuestions fun _ => {}
  exact ⟨hsteps.tail hgroup, hacyclic, by decide +kernel, by decide +kernel,
    (hattributes _ rfl).1, (hgroups _ rfl).1⟩

end Registry

end ErrorAnalysis
