import ErrorAnalysis.Proofs.Blocks.Stores
import ErrorAnalysis.Proofs.Printing.Idempotence
import ErrorAnalysis.Proofs.Syntax.Equality

/-!
# Reuse and Evaluation

A block for an equal query stands in for a new one if it says that it was computed on as many items as
the new one is to be computed on. What it says is the number that it was to be computed on at most. A
block for a list of questions may have been computed on fewer: by default the number is the size of
the dataset, however few questions are listed. Then a later block for an equal query takes over a part
of what it should have.

If no block for a query says more than it was computed on, reuse and evaluation come to the same for
this query. The items of a block may have been drawn in any way, and any block that can stand in may
have been taken.

## Main definitions

* `CreateOptions.Covers`: a block that says that it was computed on all items was.
* `Registry.Permits`: the options for a block for a tree cover the dataset.
* `Store.IsWhole`, `Registry.IsWhole`: blocks for a tree that say that they were computed on all items
  have the content that there is for the tree.

## Main results

* `Registry.IsWhole.step`: each step with options that are permitted keeps all blocks whole.
* `Registry.reused_eq_forced`: **a block that may take over the content of another one has the same
  content as one that is evaluated.**
* `Registry.reused_ne_forced_listed`: not so after a block was made for a list of questions.
-/

namespace ErrorAnalysis

/-! ### Options that cover -/

namespace CreateOptions

variable {o : CreateOptions} {config : Config} {d : Dataset}

/-- Where as many items are to be drawn as there are, every way to draw them draws all. -/
def Covers (o : CreateOptions) (config : Config) (d : Dataset) : Prop :=
  d.size ≤ o.size config d →
    ∀ items, o.Draws d (o.size config d) items → ∀ item ∈ d.allItems, item ∈ items

/-- Only a list of questions can leave items out. -/
theorem covers_of_sampleList?_eq_none (h : o.sampleList? = none) : o.Covers config d := by
  intro hsize items hitems item hitem
  have hcandidates : o.candidates d = d.allItems := by rw [candidates, h]
  have hlength : (o.candidates d).length ≤ o.size config d := by
    rw [hcandidates, Dataset.allItems, Assoc.values, List.length_map]
    exact hsize
  rw [hitems.eq_candidates hlength, hcandidates]
  exact hitem

/-- A smaller number of items than there are is no claim to have drawn all. -/
theorem covers_of_size_lt (h : o.size config d < d.size) : o.Covers config d :=
  fun hsize => absurd hsize (not_le.mpr h)

end CreateOptions

/-! ### Queries that are written -/

namespace Query.Compiled

variable {q q' : Compiled}

/-- The tree does nothing, or it can be written. -/
def IsWritten (q : Compiled) : Prop :=
  q.root = .noOp ∨ q.root.every Expr.isLegible = true

/-- Equivalent queries that are written have the same tree. -/
theorem IsWritten.root_eq (h : q.IsWritten) (h' : q'.IsWritten) (heq : q.equivalent q' = true) :
    q.root = q'.root := by
  replace heq : (q.root == q'.root) = true := heq
  rcases h with hnoOp | hlegible
  · rw [hnoOp] at heq ⊢
    exact (Expr.eq_noOp_of_beq (.inr heq)).symm
  · rcases h' with hnoOp | hlegible'
    · rw [hnoOp] at heq ⊢
      exact Expr.eq_noOp_of_beq (.inl heq)
    · exact Expr.eq_of_beq_legible hlegible hlegible' heq

end Query.Compiled

namespace Registry

variable {r r' start : Registry} {d : Dataset} {source : Definition} {q : Query.Compiled}
  {o : CreateOptions} {x : Expr} {items : List Item}

theorem isWritten_of_compile {cmd : String} (h : r.compile cmd = .ok q) : q.IsWritten := by
  obtain ⟨hparse, -, -⟩ := compile_eq_ok h
  exact .inr (Query.isLegible_of_parse hparse).1

theorem isWritten_of_groupQuery {cmd : String} (h : r.groupQuery cmd = .ok q) : q.IsWritten := by
  rw [groupQuery] at h
  split at h
  · obtain rfl := Except.ok.inj h
    exact .inl rfl
  · exact isWritten_of_compile h

/-! ### Content -/

/-- The content of an attribute that is computed on items. -/
def valuesOver (r : Registry) (x : Expr) (items : List Item) : Assoc InstanceKey Value :=
  (r.evaluateOver x .attr r.config.failurePolicy items).value.values

/-- The content of a group that is computed on items. -/
def membersOver (r : Registry) (x : Expr) (items : List Item) : SortedSet InstanceKey :=
  if x.isNoOp then uneditedMembers items
  else Assoc.keys (r.evaluateOver x .group r.config.failurePolicy items).value.values

theorem value_membersFor_eq : (r.membersFor q items).value = r.membersOver q.root items := by
  rw [membersOver]
  split
  · next h =>
      rw [membersFor, if_pos h]
      rfl
  · next h => exact r.value_membersFor items (Bool.eq_false_iff.mpr h)

section Same

variable (hd : d.IsFiled) (hitems : ∀ item ∈ items, item ∈ d.allItems)
  (hall : ∀ item ∈ d.allItems, item ∈ items)

include hd hitems hall

/-- Items in any order have the values of all items, if they are all of them. -/
theorem valuesOver_of_all : r.valuesOver x items = r.valuesOver x d.allItems :=
  values_evaluateOver_congr hd hitems fun item => ⟨hitems item, hall item⟩

/-- Items in any order have the members among all items, if they are all of them. -/
theorem membersOver_of_all : r.membersOver x items = r.membersOver x d.allItems := by
  have hsame (item : Item) : item ∈ items ↔ item ∈ d.allItems := ⟨hitems item, hall item⟩
  rw [membersOver, membersOver, values_evaluateOver_congr hd hitems hsame]
  have hunedited : uneditedMembers items = uneditedMembers d.allItems := by
    refine SortedSet.ofList_congr fun k => ?_
    simp only [List.mem_map, List.mem_filter, hsame]
  rw [hunedited]

end Same

section Alike

variable (h : r.Alike r') (hconfig : r'.config = r.config) (hrefs : x.blockRefs = [])

include h hconfig hrefs

/-- The values for a tree without blocks do not depend on the blocks of a registry. -/
theorem valuesOver_congr : r'.valuesOver x items = r.valuesOver x items := by
  have hrun : r'.evaluateOver x .attr r.config.failurePolicy items =
      r.evaluateOver x .attr r.config.failurePolicy items :=
    evaluateFrom_congr fun item _ => evaluate_congr_of_no_blocks h hrefs _
  rw [valuesOver, valuesOver, hconfig, hrun]

/-- The members for a tree without blocks do not depend on the blocks of a registry. -/
theorem membersOver_congr : r'.membersOver x items = r.membersOver x items := by
  have hrun : r'.evaluateOver x .group r.config.failurePolicy items =
      r.evaluateOver x .group r.config.failurePolicy items :=
    evaluateFrom_congr fun item _ => evaluate_congr_of_no_blocks h hrefs _
  rw [membersOver, membersOver, hconfig, hrun]

end Alike

end Registry

/-! ### Whole blocks -/

namespace Store

variable {β ρ : Type} [Block β] {content : β → ρ} {result : ρ} {size : ℕ} {x : Expr}
  {q : Query.Compiled} {b known : β}

/-- The query of a block is written. If the block is for a given tree, and says that it was computed on
`size` items, its content is a given result. -/
structure IsWhole (content : β → ρ) (result : ρ) (size : ℕ) (x : Expr) (b : β) : Prop where
  written : (Block.query b).IsWritten
  whole : size ≤ Block.testSize b → (Block.query b).root = x → content b = result

/-- A block that takes over the content of a whole one for an equivalent query is whole. -/
theorem IsWhole.takeOver (h : IsWhole content result size x known) (hq : q.IsWritten)
    (hequal : (Block.query known).equivalent q = true) (hquery : Block.query b = q)
    (hsize : Block.testSize b = Block.testSize known) (hcontent : content b = content known) :
    IsWhole content result size x b := by
  have hroot := h.written.root_eq hq hequal
  constructor
  · rw [hquery]
    exact hq
  · intro hb hx
    rw [hsize] at hb
    rw [hquery, ← hroot] at hx
    exact hcontent.trans (h.whole hb hx)

variable {store : Store β} {d : Dataset} {o : CreateOptions} {takeOver : β → β}
  {compute : List Item → β}

/-- A block says that it was computed on so many items at least as it was asked for. -/
theorem Makes.size_le (hmade : store.Makes d q o size takeOver compute b)
    (htakeOver : ∀ known, Block.testSize (takeOver known) = Block.testSize known)
    (hcompute : ∀ items, Block.testSize (compute items) = size) : size ≤ Block.testSize b := by
  cases hmade with
  | reused _ hknown =>
      rw [htakeOver]
      exact hknown.2.1
  | computed _ _ => exact (hcompute _).ge

/-- A block takes over the query of a definition, or is computed for it. -/
theorem Makes.query_eq (hmade : store.Makes d q o size takeOver compute b)
    (htakeOver : ∀ known, Block.query (takeOver known) = q)
    (hcompute : ∀ items, Block.query (compute items) = q) : Block.query b = q := by
  cases hmade with
  | reused _ _ => exact htakeOver _
  | computed _ _ => exact hcompute _

end Store

namespace Registry

variable {start r r' : Registry} {d : Dataset} {source : Definition} {q : Query.Compiled}
  {o : CreateOptions} {x : Expr} {a : Attribute} {g : Group}

/-- The options for a block leave no later block for a tree with a part of its content: the block is for
another tree, or is not saved, or the options cover the dataset. -/
def Permits (config : Config) (d : Dataset) (x : Expr) (d' : Dataset) (q : Query.Compiled)
    (o : CreateOptions) : Prop :=
  d' = d ∧ (o.save = true → q.root = x → o.Covers config d)

/-- Every block for a tree that says that it was computed on a whole dataset has the content that there
is for the tree on the dataset at the start. -/
structure IsWhole (start : Registry) (d : Dataset) (x : Expr) (r : Registry) : Prop where
  alike : start.Alike r
  config : r.config = start.config
  attributes : r.attributes.AllNamed
    (Store.IsWhole Attribute.values (start.valuesOver x d.allItems) d.size x)
  groups : r.groups.AllNamed
    (Store.IsWhole Group.dictionary (Group.dictionaryOf (start.membersOver x d.allItems)) d.size x)

section Step

variable (h : start.IsWhole d x r) (hd : d.IsFiled) (hrefs : x.blockRefs = [])
  (hcovers : q.root = x → o.Covers start.config d) (hq : q.IsWritten)

include h hd hrefs hcovers hq

/-- An attribute that is made is whole. -/
theorem IsWhole.of_makesAttribute (hmade : r.MakesAttribute d source q o a) :
    Store.IsWhole Attribute.values (start.valuesOver x d.allItems) d.size x a := by
  rw [← h.config] at hcovers
  refine h.attributes.of_makes hmade (fun known hstand hknown => ?_) fun items hitems => ?_
  · exact hknown.takeOver hq hstand.2.2 rfl rfl rfl
  · refine ⟨hq, fun hsize (hx : q.root = x) => ?_⟩
    calc (r.computeAttribute source q (o.size r.config d) items).values
        = r.valuesOver x items := by rw [← hx]; rfl
      _ = start.valuesOver x items := valuesOver_congr h.alike h.config hrefs
      _ = start.valuesOver x d.allItems :=
          valuesOver_of_all hd (fun _ => hitems.mem_allItems) (hcovers hx hsize items hitems)

/-- A group that is made is whole. -/
theorem IsWhole.of_makesGroup (hmade : r.MakesGroup d source q o g) :
    Store.IsWhole Group.dictionary (Group.dictionaryOf (start.membersOver x d.allItems)) d.size x
      g := by
  rw [← h.config] at hcovers
  refine h.groups.of_makes hmade (fun known hstand hknown => ?_) fun items hitems => ?_
  · exact hknown.takeOver hq hstand.2.2 rfl rfl rfl
  · refine ⟨hq, fun hsize (hx : q.root = x) => congrArg Group.dictionaryOf ?_⟩
    calc (r.membersFor q items).value
        = r.membersOver x items := by rw [value_membersFor_eq, hx]
      _ = start.membersOver x items := membersOver_congr h.alike h.config hrefs
      _ = start.membersOver x d.allItems :=
          membersOver_of_all hd (fun _ => hitems.mem_allItems) (hcovers hx hsize items hitems)

end Step

/-- **Each step with options that are permitted keeps all blocks whole.** -/
theorem IsWhole.step (h : start.IsWhole d x r) (hd : d.IsFiled) (hrefs : x.blockRefs = [])
    (hstep : BlockStep (Permits start.config d x) r r') : start.IsWhole d x r' := by
  cases hstep with
  | @makeAttribute _ _ q o a asked hallowed _ hq hmade =>
      obtain ⟨rfl, hcovers⟩ := hallowed
      have halike := h.alike.trans (alike_remember r asked)
      split
      · next hsave =>
          have ha := h.of_makesAttribute hd hrefs (hcovers hsave) (isWritten_of_compile hq) hmade
          exact ⟨⟨halike.functions, halike.ambient⟩, h.config, h.attributes.save ha, h.groups⟩
      · exact ⟨halike, h.config, h.attributes, h.groups⟩
  | @makeGroup _ _ q o g asked hallowed hq hmade =>
      obtain ⟨rfl, hcovers⟩ := hallowed
      have halike := h.alike.trans (alike_remember r asked)
      split
      · next hsave =>
          have hg := h.of_makesGroup hd hrefs (hcovers hsave) (isWritten_of_groupQuery hq) hmade
          exact ⟨⟨halike.functions, halike.ambient⟩, h.config, h.attributes, h.groups.save hg⟩
      · exact ⟨halike, h.config, h.attributes, h.groups⟩
  | eraseAttribute name =>
      exact ⟨⟨h.alike.functions, h.alike.ambient⟩, h.config, h.attributes.erase name, h.groups⟩
  | eraseGroup name =>
      exact ⟨⟨h.alike.functions, h.alike.ambient⟩, h.config, h.attributes, h.groups.erase name⟩

/-- All blocks are whole after a history without blocks at the start. -/
theorem isWhole_of_steps (hd : d.IsFiled) (hattributes : start.attributes = [])
    (hgroups : start.groups = []) (hrefs : x.blockRefs = [])
    (hsteps : Relation.ReflTransGen (BlockStep (Permits start.config d x)) start r) :
    start.IsWhole d x r := by
  induction hsteps with
  | refl =>
      refine ⟨.refl start, rfl, fun e he => ?_, fun e he => ?_⟩
      · rw [hattributes] at he
        cases he
      · rw [hgroups] at he
        cases he
  | tail _ hstep ih => exact ih.step hd hrefs hstep

/-! ### Reuse and force -/

section Content

variable (h : start.IsWhole d q.root r) (hd : d.IsFiled) (hrefs : q.root.blockRefs = [])
  (hlist : o.sampleList? = none) (hsize : d.size ≤ o.size start.config d) (hq : q.IsWritten)

include h hd hrefs hlist hsize hq

/-- The values of an attribute that is made for all items. -/
theorem IsWhole.values_of_makesAttribute (hmade : r.MakesAttribute d source q o a) :
    a.values = start.valuesOver q.root d.allItems := by
  have hwhole := h.of_makesAttribute hd hrefs
    (fun _ => CreateOptions.covers_of_sampleList?_eq_none hlist) hq hmade
  have hquery : a.query = q := hmade.query_eq (fun _ => rfl) fun _ => rfl
  have htest : o.size r.config d ≤ a.testSize := hmade.size_le (fun _ => rfl) fun _ => rfl
  rw [h.config] at htest
  exact hwhole.whole (hsize.trans htest) (congrArg Query.Compiled.root hquery)

/-- The dictionary of a group that is made for all items. -/
theorem IsWhole.dictionary_of_makesGroup (hmade : r.MakesGroup d source q o g) :
    g.dictionary = Group.dictionaryOf (start.membersOver q.root d.allItems) := by
  have hwhole := h.of_makesGroup hd hrefs
    (fun _ => CreateOptions.covers_of_sampleList?_eq_none hlist) hq hmade
  have hquery : g.query = q := hmade.query_eq (fun _ => rfl) fun _ => rfl
  have htest : o.size r.config d ≤ g.testSize := hmade.size_le (fun _ => rfl) fun _ => rfl
  rw [h.config] at htest
  exact hwhole.whole (hsize.trans htest) (congrArg Query.Compiled.root hquery)

end Content

/-- **A block that may take over the content of another one has the same content as one that is
evaluated,** if its query refers to no block. There is no number of items in the configuration, and the
blocks before it were made over the same dataset: those for the same tree with options that cover it,
and others with any. -/
theorem reused_eq_forced (hd : d.IsFiled) (hattributes : start.attributes = [])
    (hgroups : start.groups = []) (hconfig : start.config.testSize? = none)
    (hrefs : q.root.blockRefs = [])
    (hsteps : Relation.ReflTransGen (BlockStep (Permits start.config d q.root)) start r) :
    (r.compile source.cmd = .ok q → ∀ a b, r.MakesAttribute d source q {} a →
      r.MakesAttribute d source q { force := true } b → a.values = b.values) ∧
    (r.groupQuery source.cmd = .ok q → ∀ g g', r.MakesGroup d source q {} g →
      r.MakesGroup d source q { force := true } g' → g.dictionary = g'.dictionary) := by
  have hwhole := isWhole_of_steps hd hattributes hgroups hrefs hsteps
  have hsize (force : Bool) : d.size ≤ CreateOptions.size { force } start.config d := by
    rw [CreateOptions.size, hconfig]
    exact le_rfl
  constructor
  · intro hcompile a b ha hb
    have hq := isWritten_of_compile hcompile
    have hreused := hwhole.values_of_makesAttribute hd hrefs rfl (hsize false) hq ha
    have hforced := hwhole.values_of_makesAttribute hd hrefs rfl (hsize true) hq hb
    exact hreused.trans hforced.symm
  · intro hcompile g g' hg hg'
    have hq := isWritten_of_groupQuery hcompile
    have hreused := hwhole.dictionary_of_makesGroup hd hrefs rfl (hsize false) hq hg
    have hforced := hwhole.dictionary_of_makesGroup hd hrefs rfl (hsize true) hq hg'
    exact hreused.trans hforced.symm

/-! ### A block for one question -/

theorem compile_counting (r : Registry) : r.compile "n" = .ok countAttribute.query := by
  have hparse : Query.parse "n" = .ok (.ident "n") :=
    Expr.parse_of_text_eq (by decide +kernel) (by decide) (by decide) (by decide)
  exact compile_of_parse hparse

/-- The options for one question that is listed. Whether its number is told as well is open. -/
def firstQuestion (testSize? : Option ℕ) : CreateOptions where
  sampleList? := some ["q1"]
  testSize? := testSize?

/-- A registry after an attribute for the count was made and saved. -/
def withCount (r : Registry) (name : String) (o : CreateOptions) : Registry :=
  (r.remember []).saveAttribute
    (r.attributeFor countedQuestions ⟨name, "", "n"⟩ countAttribute.query o).value

theorem blockStep_withCount (allowed : Dataset → Query.Compiled → CreateOptions → Prop)
    (name : String) (hsave : o.save = true)
    (hallowed : allowed countedQuestions countAttribute.query o) :
    BlockStep allowed r (r.withCount name o) := by
  have hcmd : isAllBlank (Definition.mk name "" "n").cmd.toList = false :=
    (by decide : isAllBlank "n".toList = false)
  have hcompile : r.compile (Definition.mk name "" "n").cmd = .ok countAttribute.query :=
    compile_counting r
  have hstep := BlockStep.makeAttribute [] hallowed hcmd hcompile makesAttribute_attributeFor
  rw [if_pos hsave] at hstep
  exact hstep

/-- After an attribute was made for one question that is listed, a later one for the same query takes
over its value, and not those of all questions. -/
theorem reused_ne_forced_listed :
    ∃ r, Relation.ReflTransGen (BlockStep fun d _ _ => d = countedQuestions) (ofConfig {}) r ∧
      r.compile counting.cmd = .ok countAttribute.query ∧
      ∃ a b, r.MakesAttribute countedQuestions counting countAttribute.query {} a ∧
        r.MakesAttribute countedQuestions counting countAttribute.query { force := true } b ∧
        Assoc.keys a.values = [⟨"q1", 0⟩] ∧ Assoc.keys b.values = [⟨"q1", 0⟩, ⟨"q2", 0⟩] := by
  have hstep := blockStep_withCount (r := ofConfig {}) (o := firstQuestion none)
    (fun d _ _ => d = countedQuestions) "part" rfl rfl
  refine ⟨_, .single hstep, compile_counting _, _, _,
    makesAttribute_attributeFor, makesAttribute_attributeFor, ?_, ?_⟩
  · decide +kernel
  · decide +kernel

/-- If the attribute for one question says that it is for one, a later one is evaluated on both. Another
one then takes over its values, and they are those that are found by force. -/
theorem reused_eq_forced_counting :
    ∃ r, Relation.ReflTransGen (BlockStep (Permits (ofConfig {}).config countedQuestions
        countAttribute.query.root)) (ofConfig {}) r ∧
      (r.reusable? countedQuestions countAttribute.query {}).isSome = true ∧
      ∃ a b, r.MakesAttribute countedQuestions counting countAttribute.query {} a ∧
        r.MakesAttribute countedQuestions counting countAttribute.query { force := true } b ∧
        Assoc.keys a.values = [⟨"q1", 0⟩, ⟨"q2", 0⟩] ∧ a.values = b.values := by
  have hpart : (firstQuestion (some 1)).Covers (ofConfig {}).config countedQuestions :=
    CreateOptions.covers_of_size_lt (by decide)
  have hall : ({} : CreateOptions).Covers (ofConfig {}).config countedQuestions :=
    CreateOptions.covers_of_sampleList?_eq_none rfl
  have hfirst := blockStep_withCount (r := ofConfig {}) (o := firstQuestion (some 1))
    (Permits (ofConfig {}).config countedQuestions countAttribute.query.root) "part" rfl
    ⟨rfl, fun _ _ => hpart⟩
  have hsecond := blockStep_withCount (r := (ofConfig {}).withCount "part" (firstQuestion (some 1)))
    (o := {}) (Permits (ofConfig {}).config countedQuestions countAttribute.query.root) "all" rfl
    ⟨rfl, fun _ _ => hall⟩
  have hsteps := (Relation.ReflTransGen.single hfirst).tail hsecond
  have hcompile (r : Registry) : r.compile counting.cmd = .ok countAttribute.query :=
    compile_counting r
  have hsame := (reused_eq_forced (Dataset.isFiled_ofInstances _) rfl rfl rfl rfl hsteps).1
    (hcompile _)
  refine ⟨_, hsteps, ?_, _, _, makesAttribute_attributeFor, makesAttribute_attributeFor, ?_, ?_⟩
  · decide +kernel
  · decide +kernel
  · exact hsame _ _ makesAttribute_attributeFor makesAttribute_attributeFor

end Registry

end ErrorAnalysis
