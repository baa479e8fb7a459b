import ErrorAnalysis.Proofs.Blocks.Parts

/-!
# Building a Registry

A registry is built from one without blocks by making one block after the other with the default options,
each under a new name and after the blocks that it refers to. Then no block is ever made stale: each one
is what its definition yields by evaluation in the registry as it is now, also if it once took over the
content of another block, and however the registry grew since. This takes settings by which all blocks are
computed on the same items: on all that there are, or on those that are drawn for a seed. Without a seed
each block is computed on other items, and making it again yields another block.

## Main definitions

* `Config.FixesSample`: blocks are computed on the same items, whatever is drawn by chance.
* `Registry.Builds`: a block is made under a new name, after the blocks that it refers to.
* `Registry.RemakesAttribute`, `Registry.RemakesGroup`: a block is what its definition yields.
* `Registry.IsSettled`: all blocks of a registry are what their definitions yield.

## Main results

* `Registry.IsSettled.createAttribute_of_remakes`, `Registry.IsSettled.createGroup_of_remakes`: in a
  settled registry, what a definition yields is made from it.
* `Registry.IsSettled.build`: **each step by which a registry is built keeps it settled.**
* `Registry.isSettled_of_builds`: a registry that was built is settled.
-/

namespace ErrorAnalysis

/-! ### Samples -/

/-- Chance does not decide which items a block is computed on with the default options: these are all items,
or they are drawn for a seed. -/
def Config.FixesSample (config : Config) (d : Dataset) : Prop :=
  d.allItems.length ≤ CreateOptions.size {} config d ∨ config.sampleSeed?.isSome = true

instance (config : Config) (d : Dataset) : Decidable (config.FixesSample d) :=
  inferInstanceAs (Decidable (_ ∨ _))

/-- With settings that fix the sample, it is the same for all that is drawn by chance. -/
theorem Config.FixesSample.sample_eq {config : Config} {d : Dataset} (h : config.FixesSample d)
    (seeded : ℕ → Draw) (fresh fresh' : Draw) :
    CreateOptions.sample { sampling := ⟨seeded, fresh⟩ } config d (CreateOptions.size {} config d) =
      CreateOptions.sample { sampling := ⟨seeded, fresh'⟩ } config d (CreateOptions.size {} config d) := by
  rw [CreateOptions.sample, CreateOptions.sample]
  rcases h with hall | hseed
  · have hcandidates (s : Sampling) : (CreateOptions.candidates { sampling := s } d).length ≤
        CreateOptions.size {} config d := hall
    rw [if_pos (hcandidates _), if_pos (hcandidates _)]
    rfl
  · obtain ⟨seed, hseed⟩ := Option.isSome_iff_exists.mp hseed
    rw [hseed]
    rfl

namespace Registry

variable {seeded : ℕ → Draw} {fresh : Draw} {start r r' t : Registry} {d : Dataset}
  {source : Definition} {q : Query.Compiled} {a : Attribute} {g : Group}

/-! ### Building -/

/-- A block is made with the default options and saved, whatever is drawn by chance. Its name is new, and the
blocks that it refers to are registered. What is drawn for a seed is always the same. -/
inductive Builds (seeded : ℕ → Draw) (d : Dataset) : Registry → Registry → Prop
  | makeAttribute {r r' : Registry} {source : Definition} {a : Attribute} (fresh : Draw)
      (hmade : r.createAttribute d source { sampling := ⟨seeded, fresh⟩ } = .ok (a, r'))
      (hfresh : Assoc.find? r.attributes source.name = none)
      (hresolves : r.Resolves a.query.root) : Builds seeded d r r'
  | makeGroup {r r' : Registry} {source : Definition} {g : Group} (fresh : Draw)
      (hmade : r.createGroup d source { sampling := ⟨seeded, fresh⟩ } = .ok (g, r'))
      (hfresh : Assoc.find? r.groups source.name = none)
      (hresolves : r.Resolves g.query.root) : Builds seeded d r r'

/-- Building is a history. -/
theorem Builds.step (h : Builds seeded d r r') (hd : d.IsFiled) : Step r r' := by
  cases h with
  | makeAttribute _ hmade _ _ => exact .blocks (blockStep_createAttribute (fun _ _ => hd) hmade)
  | makeGroup _ hmade _ _ => exact .blocks (blockStep_createGroup (fun _ _ => hd) hmade)

/-- How many items a block is computed on by default, at most. -/
def defaultSize (r : Registry) (d : Dataset) : ℕ :=
  CreateOptions.size {} r.config d

/-- The items that a block is computed on by default, if the settings fix them. -/
def defaultSample (r : Registry) (seeded : ℕ → Draw) (d : Dataset) : List Item :=
  CreateOptions.sample { sampling := { seeded } } r.config d (r.defaultSize d)

/-- An attribute is what its definition yields in a registry by evaluation. -/
structure RemakesAttribute (r : Registry) (seeded : ℕ → Draw) (d : Dataset) (a : Attribute) : Prop where
  command : isAllBlank a.query.cmd.toList = false
  compiles : r.compile a.query.cmd = .ok a.query
  resolves : r.Resolves a.query.root
  computed : a = r.computeAttribute (Block.definition a) a.query (r.defaultSize d)
    (r.defaultSample seeded d)

/-- A group is what its definition yields in a registry by evaluation. -/
structure RemakesGroup (r : Registry) (seeded : ℕ → Draw) (d : Dataset) (g : Group) : Prop where
  compiles : r.groupQuery g.query.cmd = .ok g.query
  resolves : r.Resolves g.query.root
  computed : g = r.computeGroup (Block.definition g) g.query (r.defaultSize d)
    (r.defaultSample seeded d)

/-- Each block stands under its name, and it is what its definition yields in the registry as it is. -/
structure IsSettled (r : Registry) (seeded : ℕ → Draw) (d : Dataset) : Prop where
  fixesSample : r.config.FixesSample d
  sortedAttributes : Assoc.Sorted r.attributes
  sortedGroups : Assoc.Sorted r.groups
  attributes : r.attributes.AllNamed (r.RemakesAttribute seeded d)
  groups : r.groups.AllNamed (r.RemakesGroup seeded d)
  closed : r.IsClosed

/-! ### What a definition yields -/

/-- An attribute for blocks of a part is what its definition yields in the part if it is so in the
whole, and vice versa. -/
theorem IsPartOf.remakesAttribute_iff (h : t.IsPartOf r) (hclosed : t.IsClosed)
    (ha : t.Resolves a.query.root) : r.RemakesAttribute seeded d a ↔ t.RemakesAttribute seeded d a := by
  have hsize : r.defaultSize d = t.defaultSize d := by rw [defaultSize, defaultSize, h.config]
  have hcomputed : r.computeAttribute (Block.definition a) a.query (r.defaultSize d)
      (r.defaultSample seeded d) = t.computeAttribute (Block.definition a) a.query (t.defaultSize d)
      (t.defaultSample seeded d) := by
    rw [defaultSample, defaultSample, hsize, h.config, h.computeAttribute_eq hclosed ha]
  constructor
  · rintro ⟨hcmd, hcompiles, -, heq⟩
    exact ⟨hcmd, (h.compile_eq ha).mp hcompiles, ha, heq.trans hcomputed⟩
  · rintro ⟨hcmd, hcompiles, -, heq⟩
    exact ⟨hcmd, (h.compile_eq ha).mpr hcompiles, ha.of_part h, heq.trans hcomputed.symm⟩

/-- A group for blocks of a part is what its definition yields in the part if it is so in the whole,
and vice versa. -/
theorem IsPartOf.remakesGroup_iff (h : t.IsPartOf r) (hclosed : t.IsClosed)
    (hg : t.Resolves g.query.root) : r.RemakesGroup seeded d g ↔ t.RemakesGroup seeded d g := by
  have hsize : r.defaultSize d = t.defaultSize d := by rw [defaultSize, defaultSize, h.config]
  have hcomputed : r.computeGroup (Block.definition g) g.query (r.defaultSize d)
      (r.defaultSample seeded d) = t.computeGroup (Block.definition g) g.query (t.defaultSize d)
      (t.defaultSample seeded d) := by
    rw [defaultSample, defaultSample, hsize, h.config, h.computeGroup_eq hclosed hg]
  constructor
  · rintro ⟨hcompiles, -, heq⟩
    exact ⟨(h.groupQuery_eq hg).mp hcompiles, hg, heq.trans hcomputed⟩
  · rintro ⟨hcompiles, -, heq⟩
    exact ⟨(h.groupQuery_eq hg).mpr hcompiles, hg.of_part h, heq.trans hcomputed.symm⟩

section Settled

variable (h : r.IsSettled seeded d)

include h

/-- Where all blocks are settled, an attribute that takes over the values of another one is the same as
one that is computed. -/
theorem IsSettled.value_attributeFor (hq : q.IsWritten) :
    (r.attributeFor d source q { sampling := ⟨seeded, fresh⟩ }).value =
      r.computeAttribute source q (r.defaultSize d) (r.defaultSample seeded d) := by
  rw [attributeFor_eq]
  cases hreused : r.reusable? d q { sampling := ⟨seeded, fresh⟩ } with
  | none =>
      exact congrArg (r.computeAttribute source q (r.defaultSize d)) (h.fixesSample.sample_eq ..)
  | some known =>
      obtain ⟨hmem, -, hequal⟩ := Store.canStandIn_of_findEquivalent? hreused
      have hknown := h.attributes.of_mem_values hmem
      have hroot := (isWritten_of_compile hknown.compiles).root_eq hq hequal
      have hsame : takeOverAttribute source q known =
          takeOverAttribute source q (r.computeAttribute (Block.definition known) known.query
            (r.defaultSize d) (r.defaultSample seeded d)) := congrArg _ hknown.computed
      refine hsame.trans ?_
      rw [takeOverAttribute, computeAttribute, computeAttribute, hroot]

/-- Where all blocks are settled, a group that takes over the members of another one is the same as one
that is computed. -/
theorem IsSettled.value_groupFor (hq : q.IsWritten) :
    (r.groupFor d source q { sampling := ⟨seeded, fresh⟩ }).value =
      r.computeGroup source q (r.defaultSize d) (r.defaultSample seeded d) := by
  rw [groupFor_eq]
  cases hreused : r.reusableGroup? d q { sampling := ⟨seeded, fresh⟩ } with
  | none => exact congrArg (r.computeGroup source q (r.defaultSize d)) (h.fixesSample.sample_eq ..)
  | some known =>
      obtain ⟨hmem, -, hequal⟩ := Store.canStandIn_of_findEquivalent? hreused
      have hknown := h.groups.of_mem_values hmem
      have hroot := (isWritten_of_groupQuery hknown.compiles).root_eq hq hequal
      have hsame : takeOverGroup source q known =
          takeOverGroup source q (r.computeGroup (Block.definition known) known.query
            (r.defaultSize d) (r.defaultSample seeded d)) := congrArg _ hknown.computed
      refine hsame.trans ?_
      rw [takeOverGroup, computeGroup, computeGroup, membersFor, membersFor, hroot]

/-- The attribute that a definition yields is made from it. -/
theorem IsSettled.createAttribute_of_remakes (ha : r.RemakesAttribute seeded d a) (fresh : Draw) :
    ∃ asked, r.createAttribute d (Block.definition a) { sampling := ⟨seeded, fresh⟩ } =
      .ok (a, (r.remember asked).saveAttribute a) := by
  have hmade := @createAttribute_of_compile r d (Block.definition a) { sampling := ⟨seeded, fresh⟩ } _
    ha.command ha.compiles
  rw [h.value_attributeFor (isWritten_of_compile ha.compiles), ← ha.computed] at hmade
  exact ⟨_, hmade⟩

/-- The group that a definition yields is made from it. -/
theorem IsSettled.createGroup_of_remakes (hg : r.RemakesGroup seeded d g) (fresh : Draw) :
    ∃ asked, r.createGroup d (Block.definition g) { sampling := ⟨seeded, fresh⟩ } =
      .ok (g, (r.remember asked).saveGroup g) := by
  let o : CreateOptions := { sampling := ⟨seeded, fresh⟩ }
  have hmade : r.createGroup d (Block.definition g) o =
      .ok ((r.groupFor d (Block.definition g) g.query o).value,
        (r.remember (r.groupFor d (Block.definition g) g.query o).asked).saveGroup
          (r.groupFor d (Block.definition g) g.query o).value) := by
    rw [Registry.createGroup, Block.definition]
    exact congrArg (· >>= _) hg.compiles
  rw [h.value_groupFor (isWritten_of_groupQuery hg.compiles), ← hg.computed] at hmade
  exact ⟨_, hmade⟩

end Settled

/-! ### Each step -/

/-- What is made in a settled registry is what its definition yields. -/
theorem IsSettled.remakesAttribute (h : r.IsSettled seeded d)
    (hmade : r.createAttribute d source { sampling := ⟨seeded, fresh⟩ } = .ok (a, r'))
    (hresolves : r.Resolves a.query.root) : r.RemakesAttribute seeded d a ∧ a.name = source.name ∧
      ∃ asked, r' = (r.remember asked).saveAttribute a := by
  have hcommand := isNotBlank_of_createAttribute hmade
  obtain ⟨q, hq, hvalue, hregistry⟩ := createAttribute_eq_ok hmade
  obtain ⟨-, hcmd, -⟩ := compile_eq_ok hq
  obtain ⟨name, description, cmd⟩ := source
  obtain rfl : q.cmd = cmd := hcmd
  obtain rfl := hvalue.trans (h.value_attributeFor (isWritten_of_compile hq))
  exact ⟨⟨hcommand, hq, hresolves, rfl⟩, rfl, _, hregistry⟩

/-- The query of a group that is made is what its own command denotes. A blank command is not kept. -/
theorem groupQuery_cmd {cmd : String} (h : r.groupQuery cmd = .ok q) : r.groupQuery q.cmd = .ok q := by
  by_cases hblank : isAllBlank cmd.toList = true
  · rw [groupQuery, if_pos hblank] at h
    obtain rfl := Except.ok.inj h
    rfl
  · have hcompile := h
    rw [groupQuery, if_neg hblank] at hcompile
    obtain ⟨-, rfl, -⟩ := compile_eq_ok hcompile
    exact h

theorem IsSettled.remakesGroup (h : r.IsSettled seeded d)
    (hmade : r.createGroup d source { sampling := ⟨seeded, fresh⟩ } = .ok (g, r'))
    (hresolves : r.Resolves g.query.root) : r.RemakesGroup seeded d g ∧ g.name = source.name ∧
      ∃ asked, r' = (r.remember asked).saveGroup g := by
  obtain ⟨q, hq, hvalue, hregistry⟩ := createGroup_eq_ok hmade
  obtain rfl := hvalue.trans (h.value_groupFor (isWritten_of_groupQuery hq))
  exact ⟨⟨groupQuery_cmd hq, hresolves, rfl⟩, rfl, _, hregistry⟩

/-- **Each step by which a registry is built keeps it settled,** and the registry is a part of what it
becomes. -/
theorem IsSettled.build (h : r.IsSettled seeded d) (hstep : Builds seeded d r r') :
    r'.IsSettled seeded d ∧ r.IsPartOf r' := by
  cases hstep with
  | @makeAttribute source a _ hmade hfresh hresolves =>
      obtain ⟨ha, hname, asked, rfl⟩ := h.remakesAttribute hmade hresolves
      rw [← hname] at hfresh
      have hpart : r.IsPartOf ((r.remember asked).saveAttribute a) := isPartOf_saveAttribute hfresh
      refine ⟨⟨h.fixesSample, h.sortedAttributes.insert, h.sortedGroups, ?_, ?_,
        h.closed.saveAttribute hfresh hresolves⟩, hpart⟩
      · refine Store.AllNamed.save (h.attributes.mono fun b hb => ?_) ?_
        · exact (hpart.remakesAttribute_iff h.closed hb.resolves).mpr hb
        · exact (hpart.remakesAttribute_iff h.closed hresolves).mpr ha
      · exact h.groups.mono fun b hb => (hpart.remakesGroup_iff h.closed hb.resolves).mpr hb
  | @makeGroup source g _ hmade hfresh hresolves =>
      obtain ⟨hg, hname, asked, rfl⟩ := h.remakesGroup hmade hresolves
      rw [← hname] at hfresh
      have hpart : r.IsPartOf ((r.remember asked).saveGroup g) := isPartOf_saveGroup hfresh
      refine ⟨⟨h.fixesSample, h.sortedAttributes, h.sortedGroups.insert, ?_, ?_,
        h.closed.saveGroup hfresh⟩, hpart⟩
      · exact h.attributes.mono fun b hb => (hpart.remakesAttribute_iff h.closed hb.resolves).mpr hb
      · refine Store.AllNamed.save (h.groups.mono fun b hb => ?_) ?_
        · exact (hpart.remakesGroup_iff h.closed hb.resolves).mpr hb
        · exact (hpart.remakesGroup_iff h.closed hresolves).mpr hg

/-- A registry without blocks is settled, if its settings fix the sample. -/
theorem isSettled_of_empty (hattributes : r.attributes = []) (hgroups : r.groups = [])
    (hfixes : r.config.FixesSample d) : r.IsSettled seeded d := by
  have hnone (name : String) : Assoc.find? r.attributes name = none := by
    rw [hattributes]
    rfl
  refine ⟨hfixes, ?_, ?_, ?_, ?_, ?_⟩
  · rw [hattributes]
    exact List.Pairwise.nil
  · rw [hgroups]
    exact List.Pairwise.nil
  · rw [hattributes]
    exact fun e he => nomatch he
  · rw [hgroups]
    exact fun e he => nomatch he
  · refine ⟨fun name a ha => ?_, fun name hcycle => ?_⟩
    · cases (hnone name).symm.trans ha
    · obtain ⟨other, ⟨a, ha, -⟩, -⟩ := Relation.TransGen.head'_iff.mp hcycle
      cases (hnone name).symm.trans ha

/-- **A registry that was built from one without blocks is settled,** if its settings fix the sample. -/
theorem isSettled_of_builds (hattributes : start.attributes = []) (hgroups : start.groups = [])
    (hfixes : start.config.FixesSample d) (hsteps : Relation.ReflTransGen (Builds seeded d) start r) :
    r.IsSettled seeded d ∧ start.IsPartOf r := by
  induction hsteps with
  | refl => exact ⟨isSettled_of_empty hattributes hgroups hfixes, .refl start⟩
  | tail _ hstep ih =>
      obtain ⟨hsettled, hpart⟩ := ih.1.build hstep
      exact ⟨hsettled, ih.2.trans hpart⟩

/-! ### Making blocks for trees -/

section Trees

variable {x : Expr}

/-- The query of a command for a tree. -/
def queryFor (r : Registry) (cmd : String) (x : Expr) : Query.Compiled :=
  ⟨cmd, x, r.dependencies x⟩

/-- A registry with the attribute that is made for a tree. -/
def withAttribute (r : Registry) (d : Dataset) (source : Definition) (x : Expr) : Registry :=
  let made := r.attributeFor d source (r.queryFor source.cmd x) {}
  (r.remember made.asked).saveAttribute made.value

/-- A registry with the group that is made for a tree. -/
def withGroup (r : Registry) (d : Dataset) (source : Definition) (x : Expr) : Registry :=
  let made := r.groupFor d source (r.queryFor source.cmd x) {}
  (r.remember made.asked).saveGroup made.value

theorem createAttribute_of_parse (hcmd : isAllBlank source.cmd.toList = false)
    (hparse : Query.parse source.cmd = .ok x) :
    r.createAttribute d source {} =
      .ok ((r.attributeFor d source (r.queryFor source.cmd x) {}).value, r.withAttribute d source x) :=
  createAttribute_of_compile hcmd (compile_of_parse hparse)

theorem createGroup_of_parse (hcmd : isAllBlank source.cmd.toList = false)
    (hparse : Query.parse source.cmd = .ok x) :
    r.createGroup d source {} =
      .ok ((r.groupFor d source (r.queryFor source.cmd x) {}).value, r.withGroup d source x) := by
  rw [createGroup, groupQuery, if_neg (Bool.eq_false_iff.mp hcmd), compile_of_parse hparse]
  rfl

theorem builds_withAttribute (hcmd : isAllBlank source.cmd.toList = false)
    (hparse : Query.parse source.cmd = .ok x)
    (hfresh : Assoc.find? r.attributes source.name = none) (hresolves : r.Resolves x) :
    Builds (fun _ => .first) d r (r.withAttribute d source x) := by
  refine .makeAttribute .first (createAttribute_of_parse hcmd hparse) hfresh ?_
  rw [query_attributeFor]
  exact hresolves

theorem builds_withGroup (hcmd : isAllBlank source.cmd.toList = false)
    (hparse : Query.parse source.cmd = .ok x)
    (hfresh : Assoc.find? r.groups source.name = none) (hresolves : r.Resolves x) :
    Builds (fun _ => .first) d r (r.withGroup d source x) := by
  refine .makeGroup .first (createGroup_of_parse hcmd hparse) hfresh ?_
  rw [query_groupFor]
  exact hresolves

end Trees

end Registry

end ErrorAnalysis
