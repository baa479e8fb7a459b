import ErrorAnalysis.Proofs.Blocks.Building
import ErrorAnalysis.Proofs.Json.RoundTrip

/-!
# Replaying Definitions

The blocks of a registry are exported as their definitions, in the order of their names, and a registry
without blocks imports those of the attributes and then those of the groups. In the registry that they
come from, each block was made after the blocks that it refers to; by name it may come before them. Then
it is made again while they are missing, and that is no error: the items on which it fails are left out,
and the dependencies that it would take over are lost.

If each block comes after the blocks that it refers to in the order of the replay as well, the replay
rebuilds all blocks. While it is rebuilt, a registry has the first blocks of the one that it is rebuilt
from. They are a part of it, so the next definition yields the next block.

## Main definitions

* `Registry.ReplaysBefore`, `Registry.IsReplayable`: the order of a replay.
* `Registry.IsStage`: a registry while it is rebuilt.

## Main results

* `Registry.IsStage.nextAttribute`, `Registry.IsStage.nextGroup`: **the next definition yields the next
  block.**
* `Registry.replay_eq_of_isReplayable`: **a replay in the order of references rebuilds all blocks.**
* `Registry.replay_ne_of_names`: not so where a block comes before one that it refers to.
-/

namespace ErrorAnalysis

namespace Registry

variable {seeded : ℕ → Draw} {start r r' t : Registry} {d : Dataset} {a : Attribute} {g : Group}
  {name : String}
  {laterAttributes : Store Attribute} {laterGroups : Store Group}

/-! ### The order of a replay -/

/-- A block is replayed before another one: attributes before groups, and blocks of one kind in the
order of their names. -/
def ReplaysBefore : BlockKind × String → BlockKind × String → Prop
  | (.attr, name), (.attr, other) => compare name other = .lt
  | (.attr, _), (.group, _) => True
  | (.group, _), (.attr, _) => False
  | (.group, name), (.group, other) => compare name other = .lt

instance : DecidableRel ReplaysBefore
  | (.attr, name), (.attr, other) => inferInstanceAs (Decidable (compare name other = .lt))
  | (.attr, _), (.group, _) => .isTrue trivial
  | (.group, _), (.attr, _) => .isFalse id
  | (.group, name), (.group, other) => inferInstanceAs (Decidable (compare name other = .lt))

/-- All blocks are replayed after those that they refer to. -/
structure IsReplayable (r : Registry) : Prop where
  attributes : ∀ a ∈ Assoc.values r.attributes, ∀ b ∈ a.query.root.blockRefs,
    ReplaysBefore b (.attr, a.name)
  groups : ∀ g ∈ Assoc.values r.groups, ∀ b ∈ g.query.root.blockRefs,
    ReplaysBefore b (.group, g.name)

/-- A registry while it is rebuilt: it has the first blocks of the one that it is rebuilt from, and
groups only if it has all attributes. -/
structure IsStage (r t : Registry) (laterAttributes : Store Attribute) (laterGroups : Store Group) :
    Prop where
  alike : t.Alike r
  config : r.config = t.config
  attributes : r.attributes = t.attributes ++ laterAttributes
  groups : r.groups = t.groups ++ laterGroups
  order : laterAttributes = [] ∨ t.groups = []

theorem IsStage.isPartOf (h : r.IsStage t laterAttributes laterGroups) : t.IsPartOf r where
  alike := h.alike
  config := h.config
  attributes name a ha := by
    rw [h.attributes]
    exact Assoc.find?_append_of_some ha
  groups name g hg := by
    rw [h.groups]
    exact Assoc.find?_append_of_some hg
  length_le := by
    rw [h.attributes, List.length_append]
    exact Nat.le_add_right _ _

theorem IsStage.mem_attributes (h : r.IsStage t laterAttributes laterGroups)
    {e : String × Attribute} (he : e ∈ t.attributes) : e ∈ r.attributes := by
  rw [h.attributes]
  exact List.mem_append_left _ he

theorem IsStage.mem_groups (h : r.IsStage t laterAttributes laterGroups)
    {e : String × Group} (he : e ∈ t.groups) : e ∈ r.groups := by
  rw [h.groups]
  exact List.mem_append_left _ he

/-! ### Stages -/

section Stage

variable (hr : r.IsSettled seeded d) (hreplay : r.IsReplayable)

include hr hreplay

/-- While a registry is rebuilt, it has all blocks that an attribute refers to, if none of the later
attributes comes before it. -/
theorem IsStage.resolvesAttribute (h : r.IsStage t laterAttributes laterGroups)
    (ha : a ∈ Assoc.values r.attributes)
    (hlater : ∀ e ∈ laterAttributes, (compare a.name e.1).isLE = true) :
    t.Resolves a.query.root where
  attributes name hname := by
    obtain ⟨b, hb⟩ := (hr.attributes.of_mem_values ha).resolves.attributes name hname
    have hsorted := hr.sortedAttributes
    rw [h.attributes] at hb hsorted
    refine ⟨b, Assoc.find?_of_append hsorted (fun e he => ?_) hb⟩
    exact Std.TransCmp.lt_of_lt_of_isLE (hreplay.attributes a ha _ hname) (hlater e he)
  groups name hname := (hreplay.attributes a ha _ hname).elim

/-- Once it has all attributes, it has all blocks that a group refers to, if none of the later groups
comes before it. -/
theorem IsStage.resolvesGroup (h : r.IsStage t [] laterGroups) (hg : g ∈ Assoc.values r.groups)
    (hlater : ∀ e ∈ laterGroups, (compare g.name e.1).isLE = true) : t.Resolves g.query.root where
  attributes name hname := by
    obtain ⟨b, hb⟩ := (hr.groups.of_mem_values hg).resolves.attributes name hname
    rw [h.attributes, List.append_nil] at hb
    exact ⟨b, hb⟩
  groups name hname := by
    obtain ⟨b, hb⟩ := (hr.groups.of_mem_values hg).resolves.groups name hname
    have hsorted := hr.sortedGroups
    rw [h.groups] at hb hsorted
    refine ⟨b, Assoc.find?_of_append hsorted (fun e he => ?_) hb⟩
    exact Std.TransCmp.lt_of_lt_of_isLE (hreplay.groups g hg _ hname) (hlater e he)

/-- The attributes that it has refer to blocks that it has. -/
theorem IsStage.resolves_of_mem_attributes (h : r.IsStage t laterAttributes laterGroups)
    {e : String × Attribute} (he : e ∈ t.attributes) : t.Resolves e.2.query.root := by
  have hmem := h.mem_attributes he
  have hname : e.2.name = e.1 := (hr.attributes e hmem).1
  have hsorted := hr.sortedAttributes
  rw [h.attributes] at hsorted
  refine h.resolvesAttribute hr hreplay (List.mem_map_of_mem hmem) fun e' he' => ?_
  rw [hname, (List.pairwise_append.mp hsorted).2.2 e he e' he']
  rfl

/-- The groups that it has refer to blocks that it has. -/
theorem IsStage.resolves_of_mem_groups (h : r.IsStage t laterAttributes laterGroups)
    {e : String × Group} (he : e ∈ t.groups) : t.Resolves e.2.query.root := by
  rcases h.order with rfl | hnone
  · have hmem := h.mem_groups he
    have hname : e.2.name = e.1 := (hr.groups e hmem).1
    have hsorted := hr.sortedGroups
    rw [h.groups] at hsorted
    refine h.resolvesGroup hr hreplay (List.mem_map_of_mem hmem) fun e' he' => ?_
    rw [hname, (List.pairwise_append.mp hsorted).2.2 e he e' he']
    rfl
  · rw [hnone] at he
    cases he

/-- While a registry is rebuilt, it is settled. -/
theorem IsStage.isSettled (h : r.IsStage t laterAttributes laterGroups) : t.IsSettled seeded d := by
  have hsortedAttributes := hr.sortedAttributes
  have hsortedGroups := hr.sortedGroups
  rw [h.attributes] at hsortedAttributes
  rw [h.groups] at hsortedGroups
  have hclosed : t.IsClosed := h.isPartOf.isClosed hr.closed fun name a ha =>
    h.resolves_of_mem_attributes hr hreplay (Assoc.mem_of_find? ha)
  refine ⟨h.config ▸ hr.fixesSample, (List.pairwise_append.mp hsortedAttributes).1,
    (List.pairwise_append.mp hsortedGroups).1, fun e he => ?_, fun e he => ?_, hclosed⟩
  · obtain ⟨hname, hremakes⟩ := hr.attributes e (h.mem_attributes he)
    have hresolves := h.resolves_of_mem_attributes hr hreplay he
    exact ⟨hname, (h.isPartOf.remakesAttribute_iff hclosed hresolves).mp hremakes⟩
  · obtain ⟨hname, hremakes⟩ := hr.groups e (h.mem_groups he)
    have hresolves := h.resolves_of_mem_groups hr hreplay he
    exact ⟨hname, (h.isPartOf.remakesGroup_iff hclosed hresolves).mp hremakes⟩

/-- **The next definition yields the next attribute.** -/
theorem IsStage.nextAttribute (h : r.IsStage t ((name, a) :: laterAttributes) laterGroups)
    (fresh : Draw) :
    ∃ t', t.createAttribute d (Block.definition a) { sampling := ⟨seeded, fresh⟩ } = .ok (a, t') ∧
      r.IsStage t' laterAttributes laterGroups := by
  have hmem : (name, a) ∈ r.attributes := by
    rw [h.attributes]
    exact List.mem_append_right _ List.mem_cons_self
  obtain ⟨hname, hremakes⟩ := hr.attributes _ hmem
  obtain rfl : a.name = name := hname
  have hsorted := hr.sortedAttributes
  rw [h.attributes] at hsorted
  have hresolves : t.Resolves a.query.root :=
    h.resolvesAttribute hr hreplay (List.mem_map_of_mem hmem) fun _ => hsorted.isLE_of_mem
  have hsettled := h.isSettled hr hreplay
  have ht := (h.isPartOf.remakesAttribute_iff hsettled.closed hresolves).mp hremakes
  obtain ⟨asked, hmade⟩ := hsettled.createAttribute_of_remakes ht fresh
  refine ⟨_, hmade, ⟨h.alike.functions, ?_⟩, h.config, ?_, h.groups, ?_⟩
  · rw [h.alike.ambient]
    rfl
  · have hinsert : ((t.remember asked).saveAttribute a).attributes = t.attributes ++ [(a.name, a)] :=
      Assoc.insert_of_sorted_append hsorted.upTo
    rw [hinsert, List.append_assoc, List.singleton_append]
    exact h.attributes
  · exact .inr (h.order.resolve_left (List.cons_ne_nil _ _))

/-- **The next definition yields the next group,** once all attributes are there. -/
theorem IsStage.nextGroup (h : r.IsStage t [] ((name, g) :: laterGroups)) (fresh : Draw) :
    ∃ t', t.createGroup d (Block.definition g) { sampling := ⟨seeded, fresh⟩ } = .ok (g, t') ∧
      r.IsStage t' [] laterGroups := by
  have hmem : (name, g) ∈ r.groups := by
    rw [h.groups]
    exact List.mem_append_right _ List.mem_cons_self
  obtain ⟨hname, hremakes⟩ := hr.groups _ hmem
  obtain rfl : g.name = name := hname
  have hsorted := hr.sortedGroups
  rw [h.groups] at hsorted
  have hresolves : t.Resolves g.query.root :=
    h.resolvesGroup hr hreplay (List.mem_map_of_mem hmem) fun _ => hsorted.isLE_of_mem
  have hsettled := h.isSettled hr hreplay
  have ht := (h.isPartOf.remakesGroup_iff hsettled.closed hresolves).mp hremakes
  obtain ⟨asked, hmade⟩ := hsettled.createGroup_of_remakes ht fresh
  refine ⟨_, hmade, ⟨h.alike.functions, ?_⟩, h.config, h.attributes, ?_, .inl rfl⟩
  · rw [h.alike.ambient]
    rfl
  · have hinsert : ((t.remember asked).saveGroup g).groups = t.groups ++ [(g.name, g)] :=
      Assoc.insert_of_sorted_append hsorted.upTo
    rw [hinsert, List.append_assoc, List.singleton_append]
    exact h.groups

end Stage

/-! ### Runs -/

/-- If the definition of each next block yields this block, an import yields all of them. -/
theorem importWith_eq_of_stages {β : Type} [Block β]
    (create : Sampling → Registry → Definition → Except AnalysisError (β × Registry))
    (stage : Registry → Store β → Prop)
    (hnext : ∀ t name b later, stage t ((name, b) :: later) → ∀ fresh,
      ∃ t', create ⟨seeded, fresh⟩ t (Block.definition b) = .ok (b, t') ∧ stage t' later)
    {later : Store β} (chance : ℕ → Draw) (h : stage t later) :
    ∃ t', importWith create (fun i => ⟨seeded, chance i⟩) t later.definitions =
      (.ok (Assoc.values later), t') ∧ stage t' [] := by
  obtain ⟨made, t', himport, hmade, hend⟩ := importWith_of_stages create
    (fun e : String × β => Block.definition e.2) stage (fun e b => e.2 = b) (·.seeded = seeded)
    (by
      rintro ⟨_, fresh⟩ t e later rfl hstage
      obtain ⟨t', hcreate, hstage⟩ := hnext t e.1 e.2 later hstage fresh
      exact ⟨e.2, t', hcreate, rfl, hstage⟩) (fun i => ⟨seeded, chance i⟩) (fun _ => rfl) h
  have hvalues : Assoc.values later = made := by
    rwa [← List.forall₂_map_left_iff, List.forall₂_eq_eq_eq] at hmade
  refine ⟨t', ?_, hend⟩
  rw [hvalues, Store.definitions, Assoc.values, List.map_map]
  exact himport

/-- **A replay in the order of references rebuilds all blocks,** if the settings fix the items that blocks
are computed on. The definitions are read back from the texts that they were exported to, the import of each
succeeds, whatever is drawn by chance, and what is rebuilt has the same attributes and groups, with the same
content and the same dependencies. -/
theorem replay_eq_of_isReplayable (hattributes : start.attributes = []) (hgroups : start.groups = [])
    (hfixes : start.config.FixesSample d) (hsteps : Relation.ReflTransGen (Builds seeded d) start r)
    (hreplay : r.IsReplayable) (halike : start.Alike t) (hconfig : t.config = start.config)
    (hnoAttributes : t.attributes = []) (hnoGroups : t.groups = []) (chance chance' : ℕ → Draw) :
    ∃ sources t₁ sources' t₂,
      Definition.importText? (Definition.exportText r.attributes.definitions) = some sources ∧
      t.importAttributes d (fun i => ⟨seeded, chance i⟩) sources =
        (.ok (Assoc.values r.attributes), t₁) ∧
      Definition.importText? (Definition.exportText r.groups.definitions) = some sources' ∧
      t₁.importGroups d (fun i => ⟨seeded, chance' i⟩) sources' =
        (.ok (Assoc.values r.groups), t₂) ∧
      t₂.attributes = r.attributes ∧ t₂.groups = r.groups := by
  obtain ⟨hr, hpart⟩ := isSettled_of_builds hattributes hgroups hfixes hsteps
  have hstart : r.IsStage t r.attributes r.groups := by
    refine ⟨⟨hpart.alike.functions.trans halike.functions.symm, ?_⟩,
      hpart.config.trans hconfig.symm, ?_, ?_, .inr hnoGroups⟩
    · rw [hpart.alike.ambient, halike.ambient]
      rfl
    · rw [hnoAttributes, List.nil_append]
    · rw [hnoGroups, List.nil_append]
  obtain ⟨t₁, himport, hmiddle⟩ := importWith_eq_of_stages
    (fun sampling t source => t.createAttribute d source { sampling })
    (fun t later => r.IsStage t later r.groups)
    (fun _ _ _ _ h => h.nextAttribute hr hreplay) chance hstart
  obtain ⟨t₂, himport', hend⟩ := importWith_eq_of_stages
    (fun sampling t source => t.createGroup d source { sampling })
    (fun t later => r.IsStage t [] later)
    (fun _ _ _ _ h => h.nextGroup hr hreplay) chance' hmiddle
  refine ⟨_, t₁, _, t₂, Definition.importText?_exportText _, himport,
    Definition.importText?_exportText _, himport', ?_, ?_⟩
  · rw [hend.attributes, List.append_nil]
  · rw [hend.groups, List.append_nil]

/-! ### A replay in the order of references -/

/-- The names, keys and dependencies of attributes. -/
def outlines (r : Registry) : List (String × List InstanceKey × Dependencies) :=
  (Assoc.values r.attributes).map fun a => (a.name, Assoc.keys a.values, a.query.deps)

/-- What a group of the counts that are more than their negations is made from. -/
def comparison : Definition where
  name := "above"
  cmd := "attr:negated < attr:count"

/-- The tree of its query. -/
def comparisonTree : Expr :=
  .binary .lt (.block .attr "negated") (.block .attr "count")

/-- A registry with attributes for the count and for the negated count. -/
def negated : Registry :=
  ((ofConfig {}).withAttribute countedQuestions counting (.ident "n")).withAttribute countedQuestions
    negation negatedCount

/-- A registry with the group as well. -/
def compared : Registry :=
  negated.withGroup countedQuestions comparison comparisonTree

/-- An attribute, one that refers to it, and a group that refers to both are rebuilt. -/
theorem replay_eq_of_isReplayable_compared :
    ({} : Config).FixesSample countedQuestions ∧
      Relation.ReflTransGen (Builds (fun _ => .first) countedQuestions) (ofConfig {}) compared ∧
      compared.IsReplayable ∧
      compared.outlines =
        [("count", [⟨"q1", 0⟩, ⟨"q2", 0⟩], {}), ("negated", [⟨"q1", 0⟩], {})] ∧
      (Assoc.values compared.groups).map (fun g => (g.name, g.members)) =
        [("above", [⟨"q1", 0⟩])] ∧
      ∃ sources t₁ sources' t₂,
        Definition.importText? (Definition.exportText compared.attributes.definitions) =
          some sources ∧
        (ofConfig {}).importAttributes countedQuestions (fun _ => {}) sources =
          (.ok (Assoc.values compared.attributes), t₁) ∧
        Definition.importText? (Definition.exportText compared.groups.definitions) = some sources' ∧
        t₁.importGroups countedQuestions (fun _ => {}) sources' =
          (.ok (Assoc.values compared.groups), t₂) ∧
        t₂.attributes = compared.attributes ∧ t₂.groups = compared.groups := by
  have hcounting : Query.parse counting.cmd = .ok (.ident "n") :=
    Expr.parse_of_text_eq (by decide +kernel) (by decide) (by decide) (by decide)
  have hnegation : Query.parse negation.cmd = .ok negatedCount :=
    Expr.parse_of_text_eq (by decide +kernel) (by decide) (by decide) (by decide)
  have hcomparison : Query.parse comparison.cmd = .ok comparisonTree :=
    Expr.parse_of_text_eq (by decide +kernel) (by decide) (by decide) (by decide)
  have hfirst : Builds (fun _ => .first) countedQuestions (ofConfig {}) _ :=
    builds_withAttribute (by decide) hcounting rfl (resolves_of_registers (by decide))
  have hsecond : Builds (fun _ => .first) countedQuestions _ negated :=
    builds_withAttribute (by decide) hnegation (by decide +kernel)
      (resolves_of_registers (by decide +kernel))
  have hthird : Builds (fun _ => .first) countedQuestions _ compared :=
    builds_withGroup (by decide) hcomparison (by decide +kernel)
      (resolves_of_registers (by decide +kernel))
  have hsteps := ((Relation.ReflTransGen.single hfirst).tail hsecond).tail hthird
  have hreplay : compared.IsReplayable := ⟨by decide +kernel, by decide +kernel⟩
  have hfixes : ({} : Config).FixesSample countedQuestions := by decide
  exact ⟨hfixes, hsteps, hreplay, by decide +kernel, by decide +kernel,
    replay_eq_of_isReplayable rfl rfl hfixes hsteps hreplay (.refl _) rfl rfl rfl
      (fun _ => .first) (fun _ => .first)⟩

/-! ### A name that comes before one that it refers to -/

/-- What an attribute for the count and the name of the model is made from. -/
def scoring : Definition where
  name := "score"
  cmd := "[n, ANCHOR]"

/-- What an attribute that refers to it is made from, under a name that comes before it. -/
def partOfScore : Definition where
  name := "part"
  cmd := "attr:score"

/-- The tree of the first one. -/
def scoringTree : Expr :=
  .list [.ident "n", .ident "ANCHOR"]

/-- A registry with both attributes. -/
def scored : Registry :=
  ((ofConfig {}).withAttribute countedQuestions scoring scoringTree).withAttribute countedQuestions
    partOfScore (.block .attr "score")

/-- A registry that has made them in the order of their names. -/
def rescored : Registry :=
  ((ofConfig {}).withAttribute countedQuestions partOfScore (.block .attr "score")).withAttribute
    countedQuestions scoring scoringTree

/-- An import begins with the attribute for the first definition. -/
theorem importAttributes_cons_of_parse {source : Definition} {sources : List Definition} {x : Expr}
    (hcmd : isAllBlank source.cmd.toList = false) (hparse : Query.parse source.cmd = .ok x)
    (h : ∃ attributes, (r.withAttribute d source x).importAttributes d (fun _ => {}) sources =
      (.ok attributes, t)) :
    ∃ attributes, r.importAttributes d (fun _ => {}) (source :: sources) = (.ok attributes, t) := by
  obtain ⟨attributes, himport⟩ := h
  rw [importAttributes] at himport
  rw [importAttributes, importWith, createAttribute_of_parse hcmd hparse]
  dsimp only
  rw [himport]
  exact ⟨_, rfl⟩

/-- **A replay does not rebuild an attribute that comes before one that it refers to.** Its values and
its dependency on the model are lost, although no import fails. -/
theorem replay_ne_of_names :
    ∃ r, Relation.ReflTransGen (Builds (fun _ => .first) countedQuestions) (ofConfig {}) r ∧
      r.outlines =
        [("part", [⟨"q1", 0⟩, ⟨"q2", 0⟩], ⟨true, false⟩),
          ("score", [⟨"q1", 0⟩, ⟨"q2", 0⟩], ⟨true, false⟩)] ∧
      ∃ sources attributes t,
        Definition.importText? (Definition.exportText r.attributes.definitions) = some sources ∧
        (ofConfig {}).importAttributes countedQuestions (fun _ => {}) sources = (.ok attributes, t) ∧
        t.outlines =
          [("part", [], ⟨false, false⟩), ("score", [⟨"q1", 0⟩, ⟨"q2", 0⟩], ⟨true, false⟩)] := by
  have hscoring : Query.parse scoring.cmd = .ok scoringTree :=
    Expr.parse_of_text_eq (by decide +kernel) (by decide) (by decide) (by decide)
  have hpart : Query.parse partOfScore.cmd = .ok (.block .attr "score") :=
    Expr.parse_of_text_eq (by decide +kernel) (by decide) (by decide) (by decide)
  have hfirst : Builds (fun _ => .first) countedQuestions (ofConfig {}) _ :=
    builds_withAttribute (by decide) hscoring rfl (resolves_of_registers (by decide))
  have hsecond : Builds (fun _ => .first) countedQuestions _ scored :=
    builds_withAttribute (by decide) hpart (by decide +kernel)
      (resolves_of_registers (by decide +kernel))
  obtain ⟨attributes, himport⟩ : ∃ attributes, (ofConfig {}).importAttributes countedQuestions
      (fun _ => {}) [partOfScore, scoring] = (.ok attributes, rescored) :=
    importAttributes_cons_of_parse (by decide) hpart
      (importAttributes_cons_of_parse (by decide) hscoring ⟨[], rfl⟩)
  have hdefinitions : scored.attributes.definitions = [partOfScore, scoring] := by decide +kernel
  refine ⟨scored, (Relation.ReflTransGen.single hfirst).tail hsecond, by decide +kernel,
    [partOfScore, scoring], attributes, rescored, ?_, himport, by decide +kernel⟩
  rw [hdefinitions, Definition.importText?_exportText]

end Registry

end ErrorAnalysis
