import ErrorAnalysis.Proofs.Dependencies.Flags
import ErrorAnalysis.Proofs.Evaluation.Batch
import ErrorAnalysis.Proofs.Evaluation.Binding
import ErrorAnalysis.Proofs.Functions.Aliases
import ErrorAnalysis.Proofs.Printing.Text

/-!
# Queries that do not Depend on the Default Model

The default model is read where an operation asks for the answer of a model and is given the name that
stands for the default one, and where the entry `prediction` is derived from the answers. A query is
taken to depend on the model where the name is written out or is the default of a parameter that is
left out. A name that is computed is not seen, and nor is the derived entry: a query for `prediction`
depends on the default model and does not say so. Apart from these two, a query without a dependency on
the model has the same values whatever the default model is.

## Main definitions

* `Item.StoresPrediction`: no answer has to be derived.
* `Function.LeavesModel`: a function takes its model from the caller or by default.
* `Registry.HidesModel`: a node does not read the default model behind the back of its dependencies.

## Main results

* `Registry.evaluate_setModel`: **a current query without a dependency on the model, whose nodes hide
  the default model, does not change with it.**
* `Registry.evaluateOver_of_not_shouldRecompute_model`: nor does what is recorded for a block.
* `Catalogue.hidesModel_table`: the functions that are always there hide the default model.
* `Registry.valueOn_setModel_predictedLabel`: the query for `prediction` changes with the model.
-/

namespace ErrorAnalysis

/-! ### Entries -/

/-- Every variant of an item has a stored entry in place of the derived answer of the default
model. -/
def Item.StoresPrediction (item : Item) : Prop :=
  ∀ i ∈ item.instances, (i.stored? "prediction").isSome = true

theorem Instance.derived?_congr {i : Instance} {name : String} (h : name ≠ "prediction")
    (model? model'? : Option String) : i.derived? name model'? = i.derived? name model? := by
  unfold derived?
  split
  · rfl
  · exact absurd rfl h
  · rfl

/-- An entry does not depend on the default model, unless it is the answer of that. -/
theorem Instance.get?_congr {i : Instance} {name : String}
    (h : name = "prediction" → (i.stored? name).isSome = true) (model? model'? : Option String) :
    i.get? name model'? = i.get? name model? := by
  rw [get?, get?]
  split
  · rfl
  · cases hstored : i.stored? name with
    | some v => rfl
    | none =>
        have hne : name ≠ "prediction" := by
          intro heq
          have hsome := h heq
          rw [hstored] at hsome
          cases hsome
        rw [derived?_congr hne model? model'?]

/-! ### Functions -/

/-- A function takes its model from the caller or by default: not from an entry, and not from an alias
that fixes it to the name that stands for the default model. -/
structure Function.LeavesModel (f : Function) : Prop where
  binding : f.binding "model" = .literal
  fixed : ("model", .str Ambient.anchor) ∉ f.fixed

namespace Registry

variable {r : Registry} {item : Item} {model? model'? : Option String} {s : Scope}

/-! ### Nodes -/

/-- A tree has a value on an item, at any depth and on any variant. -/
def CanYield (r : Registry) (item : Item) (x : Expr) (v : Value) : Prop :=
  ∃ depth s u, s.item = item ∧ (r.evaluateAt depth x s).result = .ok u ∧ u.value = v

/-- A node does not read the default model on an item unless its dependencies say so: neither the
derived answer of it, nor by a name for it that is computed. -/
def HidesModel (r : Registry) (item : Item) : Expr → Prop
  | .ident name => name = "prediction" → item.StoresPrediction
  | .call function args _ => ∀ f, r.functions.get function = .ok f →
      (f.Reads "prediction" → item.StoresPrediction) ∧
      (f.body.asksModel = true →
        f.LeavesModel ∧ ∀ a ∈ args, ¬ r.CanYield item a.value (.str Ambient.anchor))
  | _ => True

theorem identifier_setModel {name : String} (h : name = "prediction" → s.item.StoresPrediction) :
    (r.setModel model?).identifier name s = r.identifier name s := by
  rw [identifier, identifier]
  cases hi : s.instance? with
  | none => rfl
  | some i =>
      have hget : i.get? name (r.setModel model?).ambient.defaultModel? =
          i.get? name r.ambient.defaultModel? := by
        refine Instance.get?_congr (fun heq => ?_) _ _
        subst heq
        exact h rfl i (Scope.mem_instances hi)
      simp only [hget]

section Calls

variable {function : String} {args : List Arg} {edit? : Option String} {f : Function}
  {i : Instance} {given : List Given}

/-- A call that hides the default model does not give an operation the name that stands for it. -/
theorem ne_anchor_of_bind (hf : r.functions.get function = .ok f)
    (hflag : (r.dependencies (.call function args edit?)).model = false)
    (hleaves : f.LeavesModel)
    (hargs : ∀ a ∈ args, ¬ r.CanYield s.item a.value (.str Ambient.anchor)) {depth : ℕ}
    (hgiven : (r.evaluateArgs (r.expansion depth) args s).result = .ok given)
    {lookup : String → Option Value} {bound : Args} {fromEntry : Bool}
    (hbound : f.bind (Given.positional given) (Given.named given) lookup = .ok (bound, fromEntry)) :
    bound.text? "model" ≠ some Ambient.anchor := by
  intro htext
  have hvalue : Assoc.find? bound.values "model" = some (.str Ambient.anchor) := by
    rw [Args.text?, Args.get] at htext
    cases hfind : Assoc.find? bound.values "model" with
    | none =>
        rw [hfind] at htext
        cases htext
    | some v =>
        rw [hfind] at htext
        cases v with
        | str text => exact congrArg (some ∘ Value.str) (Option.some.inj htext)
        | _ => cases htext
  have hyield (harg : ∃ a ∈ args, ∃ u,
      (r.evaluateWith (r.expansion depth) a.value s).result = .ok u ∧
        u.value = .str Ambient.anchor) : False := by
    obtain ⟨a, ha, u, hu, heq⟩ := harg
    rw [← evaluateAt_eq] at hu
    exact hargs a ha ⟨depth, s, u, rfl, hu, heq⟩
  cases Function.origin_of_bind hbound hvalue with
  | fixed h => exact hleaves.fixed h
  | entry e h hv =>
      rw [hleaves.binding] at h
      cases h
  | positional h => exact hyield (exists_of_mem_positional hgiven h)
  | named h => exact hyield (exists_of_mem_named hgiven h (by decide))
  | default p hp hname hv hnamed hslot =>
      -- The caller gave no model, and the dependencies tell what the default stands for.
      have hmem : p ∈ f.slots := by
        refine List.mem_filter.mpr ⟨hp, ?_⟩
        rw [Function.bindsEntry, hname, hleaves.binding]
        rfl
      have homitted : p ∈ omittedParams f args edit?.isSome := by
        refine mem_omittedParams hgiven (hslot hmem) ?_ ?_ _
        · rwa [hname]
        · rw [hname]
          decide
      have hdefault : p.default?.bind Value.str? = some Ambient.anchor := by
        rw [hv]
        rfl
      exact Dependencies.ne_anchor_of_ofName (Dependencies.model_eq_false
        (ofName_le_of_omitted hf homitted hdefault) hflag) rfl

/-- A call that hides the default model does not change with it. -/
theorem call_setModel (hf : r.functions.get function = .ok f)
    (hflag : (r.dependencies (.call function args edit?)).model = false)
    (hhides : r.HidesModel s.item (.call function args edit?)) (hi : s.instance? = some i)
    {depth : ℕ} (hgiven : (r.evaluateArgs (r.expansion depth) args s).result = .ok given) :
    (r.setModel model?).call f i given = r.call f i given := by
  obtain ⟨hentry, hmodel⟩ := hhides f hf
  have hbind : f.bind (Given.positional given) (Given.named given) (i.get? · model?) =
      f.bind (Given.positional given) (Given.named given) (i.get? · r.ambient.defaultModel?) := by
    refine Function.bind_congr fun entry hreads => Instance.get?_congr (fun heq => ?_) _ _
    subst heq
    exact hentry hreads i (Scope.mem_instances hi)
  refine (congrArg (fun x => (liftM x : Eval Traced (Args × Bool)) >>= _) hbind).trans
    (Eval.bind_congr fun bound hbound => ?_)
  obtain ⟨bound, fromEntry⟩ := bound
  rw [Eval.result_liftM] at hbound
  have hrun : f.body.run bound (r.setModel model?).ambient = f.body.run bound r.ambient := by
    refine Builtin.run_congr rfl fun hasks => ?_
    obtain ⟨hleaves, hargs⟩ := hmodel hasks
    have hne := ne_anchor_of_bind hf hflag hleaves hargs hgiven hbound
    cases htext : bound.text? "model" with
    | none => rfl
    | some text =>
        have hne' : text ≠ Ambient.anchor := fun heq => hne (by rw [htext, heq])
        rw [Option.bind_some, Option.bind_some, Ambient.model?, Ambient.model?, if_neg hne',
          if_neg hne']
  exact congrArg (· >>= _) hrun

end Calls

/-! ### Queries -/

section Queries

variable {q : Query.Compiled}

theorem IsCurrent.setModel (h : r.IsCurrent q) (model? : Option String) :
    (r.setModel model?).IsCurrent q := by
  have hcompiled {q : Query.Compiled} (h : r.IsCompiled q) :
      (r.setModel model?).IsCompiled q := by
    obtain ⟨r₀, hcompile, hkeeps⟩ := h
    exact ⟨r₀, hcompile, hkeeps.functions, hkeeps.attributes, hkeeps.groups⟩
  exact ⟨hcompiled h.query, fun name a hname hfind => hcompiled (h.attributes name a hname hfind)⟩

theorem evaluate_setModel_eq (hq : r.IsCurrent q) (hflag : q.deps.model = false)
    (hhides : ∀ y, r.Visits q.root y → r.HidesModel item y) (hs : s.item = item) :
    (r.setModel model?).evaluate q.root s = r.evaluate q.root s := by
  have hfunctions : (r.setModel model?).functions = r.functions := rfl
  refine evaluateAt_congr_on hfunctions rfl rfl (fun y hy depth => ?_) _ hs
  have hdeps := Dependencies.model_eq_false (hq.dependencies_le hy) hflag
  cases y with
  | ident name => exact fun s hs => identifier_setModel (hs ▸ hhides _ hy)
  | call function args edit? =>
      intro f hf s hs
      refine ⟨rfl, fun i given hi hgiven => call_setModel hf hdeps ?_ hi hgiven⟩
      rw [Scope.forCall_item, hs]
      exact hhides _ hy
  | _ => trivial

/-- The results of a block that has not to be computed again after the model was changed are the same
when they are. -/
theorem evaluateOver_of_not_shouldRecompute_model {β : Type} [Block β] {store : Store β}
    {name : String} {b : β} (hfind : Assoc.find? store name = some b)
    (hfresh : store.shouldRecompute name "model" = false) (hq : r.IsCurrent (Block.query b))
    {items : List Item} (hhides : ∀ item ∈ items, ∀ y, r.Visits (Block.query b).root y →
      (r.setModel model?).HidesModel item y) (kind : BlockKind) (policy : FailurePolicy) :
    (r.setModel model'?).evaluateOver (Block.query b).root kind policy items =
      (r.setModel model?).evaluateOver (Block.query b).root kind policy items := by
  rw [Store.shouldRecompute, hfind] at hfresh
  exact evaluateFrom_congr fun item hitem =>
    evaluate_setModel_eq (hq.setModel model?) hfresh (hhides item hitem) rfl

/-- **A current query without a dependency on the model does not change with the default model,** if
the nodes that it visits hide it on an item. It yields the same value from the same instances or the
same error on every variant of the item, the unedited one included. What is recorded for a block with
the query, which has not to be computed again, is the same as well. -/
theorem evaluate_setModel (hq : r.IsCurrent q) (model? model'? : Option String) {items : List Item}
    (hhides : ∀ item ∈ items, ∀ y, r.Visits q.root y → (r.setModel model?).HidesModel item y) :
    (q.deps.model = false → ∀ s : Scope, s.item ∈ items →
      (r.setModel model'?).evaluate q.root s = (r.setModel model?).evaluate q.root s) ∧
    ∀ {β : Type} [Block β] (store : Store β) (name : String) (b : β),
      Assoc.find? store name = some b → Block.query b = q →
      store.shouldRecompute name "model" = false → ∀ kind policy,
        (r.setModel model'?).evaluateOver q.root kind policy items =
          (r.setModel model?).evaluateOver q.root kind policy items := by
  constructor
  · intro hflag s hs
    exact evaluate_setModel_eq (hq.setModel model?) hflag (hhides s.item hs) rfl
  · rintro β _ store name b hfind rfl hfresh kind policy
    exact evaluateOver_of_not_shouldRecompute_model hfind hfresh hq hhides kind policy

end Queries

end Registry

/-! ### The catalogue -/

/-- A function reads neither the answer of the default model nor any entry for its model. -/
structure Function.HidesModel (f : Function) : Prop where
  reads : ¬ f.Reads "prediction"
  leaves : f.LeavesModel

/-- A parameter is not for the answer of the default model, and has no entry that stands in for a
model. -/
def Param.HidesModel (p : Param) : Prop :=
  p.name ≠ "prediction" ∧ p.fallback? ≠ some "prediction" ∧
    (p.name = "model" → p.fallback? = none)

instance (p : Param) : Decidable p.HidesModel :=
  inferInstanceAs (Decidable (_ ∧ _ ∧ (_ → _)))

namespace Function

variable {names : List String} {params : List Param} {name : String} {body : Builtin}

theorem binding_ofParams (parameter : String) :
    (ofParams names name params body).binding parameter = .literal ∨
      ∃ p ∈ params, p.name = parameter ∧
        (ofParams names name params body).binding parameter = p.binding names := by
  rw [binding]
  cases hfind : Assoc.find? (ofParams names name params body).bindings parameter with
  | none => exact .inl rfl
  | some b =>
      obtain ⟨p, hp, heq⟩ := List.mem_map.mp (Assoc.mem_of_find?_ofList hfind)
      obtain ⟨hname, rfl⟩ := Prod.mk.inj heq
      exact .inr ⟨p, hp, hname, rfl⟩

theorem hidesModel_ofParams (hnames : "model" ∉ names) (h : ∀ p ∈ params, p.HidesModel) :
    (ofParams names name params body).HidesModel where
  reads := by
    rintro ⟨p, -, hentry⟩
    rcases binding_ofParams p.name with hliteral | ⟨q, hq, -, hbinding⟩
    · rw [hliteral] at hentry
      cases hentry
    · rw [hbinding, Param.binding] at hentry
      split at hentry
      · exact (h q hq).1 (Option.some.inj hentry)
      · cases hfallback : q.fallback? with
        | none =>
            rw [hfallback] at hentry
            cases hentry
        | some entry =>
            rw [hfallback] at hentry
            obtain rfl := Option.some.inj hentry
            exact (h q hq).2.1 hfallback
  leaves := by
    refine ⟨?_, List.not_mem_nil⟩
    rcases binding_ofParams "model" with hliteral | ⟨q, hq, hname, hbinding⟩
    · exact hliteral
    · rw [hbinding, Param.binding, (h q hq).2.2 hname, hname]
      exact if_neg (by simpa using hnames)

/-- An alias hides the default model if its function does and it fixes another parameter. -/
theorem HidesModel.fix {f : Function} (h : f.HidesModel) {parameter : String}
    (hparameter : parameter ≠ "model") (v : Value) : (f.fix name parameter v).HidesModel where
  reads := by
    rintro ⟨p, hp, hentry⟩
    rw [visible_fix] at hp
    exact h.reads ⟨p, List.mem_of_mem_filter hp, hentry⟩
  leaves := by
    refine ⟨h.leaves.binding, fun hmem => ?_⟩
    rcases List.mem_append.mp hmem with hmem | hmem
    · exact h.leaves.fixed (List.mem_filter.mp hmem).1
    · exact hparameter (Prod.mk.inj (List.mem_singleton.mp hmem)).1.symm

end Function

namespace FunctionTable

variable {t : FunctionTable} {name : String} {f : Function}

theorem mem_of_get (h : t.get name = .ok f) : (name, f) ∈ t.functions := by
  rw [get] at h
  cases hfind : Assoc.find? t.functions name with
  | none =>
      rw [hfind] at h
      cases h
  | some g =>
      rw [hfind] at h
      obtain rfl := Except.ok.inj h
      exact Assoc.mem_of_find? hfind

/-- A table with functions that hide the default model, and without an entry for models. -/
structure HidesModel (t : FunctionTable) : Prop where
  entries : "model" ∉ t.entryNames
  functions : ∀ e ∈ t.functions, e.2.HidesModel

theorem HidesModel.register (h : t.HidesModel) {params : List Param}
    (hparams : ∀ p ∈ params, p.HidesModel) (body : Builtin) :
    (t.register name params body).HidesModel := by
  refine ⟨h.entries, fun e he => ?_⟩
  rcases Assoc.mem_insert he with rfl | he
  · exact Function.hidesModel_ofParams h.entries hparams
  · exact h.functions e he

theorem HidesModel.addAlias (h : t.HidesModel) {a : Catalogue.AliasSpec}
    (hparameter : a.parameter ≠ "model") : (Catalogue.addAlias t a).HidesModel := by
  rw [Catalogue.addAlias]
  cases hregister : t.registerAlias a.base a.name a.parameter (.str a.value) with
  | error e => exact h
  | ok t' =>
      obtain ⟨f, hf, hadd⟩ := except_bind_eq_ok.mp hregister
      split at hadd
      · cases hadd
      · obtain rfl := Except.ok.inj hadd
        refine ⟨h.entries, fun e he => ?_⟩
        rcases Assoc.mem_insert he with rfl | he
        · exact (h.functions _ (mem_of_get hf)).fix hparameter _
        · exact h.functions e he

end FunctionTable

/-- **The functions that are always there hide the default model,** if no entry of the settings is
one for models. -/
theorem Catalogue.hidesModel_table {names : List String} (h : "model" ∉ names) :
    (table names).HidesModel := by
  have hempty : (FunctionTable.empty names).HidesModel := by
    refine ⟨fun hmem => ?_, fun e he => by cases he⟩
    rcases List.mem_append.mp hmem with hmem | hmem
    · exact h hmem
    · exact absurd hmem (by decide)
  have hparams : ∀ f ∈ functions, ∀ p ∈ f.2.2, p.HidesModel := by decide
  have haliases : ∀ a ∈ aliases, a.parameter ≠ "model" := by decide
  refine List.foldlRecOn aliases addAlias ?_ fun t ht a ha => ht.addAlias (haliases a ha)
  exact List.foldlRecOn functions _ hempty fun t ht f hf => ht.register (hparams f hf) f.2.1

namespace Registry

variable {r : Registry} {item : Item}

/-- A call of a function that is always there hides the default model if no argument yields the name
for it. -/
theorem hidesModel_call {names : List String} (hnames : "model" ∉ names)
    (hfunctions : r.functions = Catalogue.table names) {function : String} {args : List Arg}
    (hargs : ∀ a ∈ args, ¬ r.CanYield item a.value (.str Ambient.anchor))
    (edit? : Option String) : r.HidesModel item (.call function args edit?) := by
  intro f hf
  rw [hfunctions] at hf
  have hhides := (Catalogue.hidesModel_table hnames).functions _ (FunctionTable.mem_of_get hf)
  exact ⟨fun hreads => absurd hreads hhides.reads, fun _ => ⟨hhides.leaves, hargs⟩⟩

/-! ### Answers of two models -/

/-- A question with the answers of two models. -/
def answeredQuestions : Dataset :=
  .ofInstances [⟨⟨"q1", 0⟩, Instance.noEdit,
    [("predictions", .list [.label ⟨"bert", "x", [("f1", 1)], none, []⟩,
      .label ⟨"lstm", "y", [("f1", 0)], none, []⟩])]⟩]

/-- The score of a model by its name. -/
def bertScore : Expr :=
  .call "f1" [.positional (.literal (.str "bert"))] none

/-- The text of the answer of the default model. -/
def predictedLabel : Expr :=
  .call "LABEL" [.positional (.ident "prediction")] none

theorem functions_setModel_ofConfig (config : Config) (model? : Option String) :
    ((ofConfig config).setModel model?).functions = Catalogue.table config.entryNames := by
  dsimp only [setModel, ofConfig]

theorem not_canYield_str {text : String} (h : text ≠ Ambient.anchor) :
    ¬ r.CanYield item (.literal (.str text)) (.str Ambient.anchor) := by
  rintro ⟨depth, s, u, -, hu, hvalue⟩
  rw [evaluateAt_eq] at hu
  obtain rfl := Eval.result_pure_eq_ok.mp hu
  exact h (Value.str.inj hvalue)

/-- An attribute for the score of a model by its name, with nothing recorded. -/
def bertAttribute : Attribute where
  name := "bert"
  description := ""
  query := ⟨"f1(\"bert\")", bertScore, {}⟩
  values := []
  dtype := .categorical
  testSize := 0

/-- The score of a model by its name is compiled without a dependency on the default model, and does
not change with it. An attribute for it has not to be computed again. -/
theorem evaluate_setModel_bertScore :
    (ofConfig {}).compile "f1(\"bert\")" = .ok bertAttribute.query ∧
      ∀ model? model'?,
        (∀ s, ((ofConfig {}).setModel model'?).evaluate bertScore s =
          ((ofConfig {}).setModel model?).evaluate bertScore s) ∧
        ∀ kind policy items,
          ((ofConfig {}).setModel model'?).evaluateOver bertScore kind policy items =
            ((ofConfig {}).setModel model?).evaluateOver bertScore kind policy items := by
  have hparse : Query.parse "f1(\"bert\")" = .ok bertScore :=
    Expr.parse_of_text_eq (by decide +kernel) (by decide) (by decide) (by decide)
  have hdeps : (ofConfig {}).dependencies bertScore = {} := by decide +kernel
  have hcompile : (ofConfig {}).compile "f1(\"bert\")" = .ok bertAttribute.query := by
    rw [compile_of_parse hparse, hdeps]
    rfl
  have hcurrent : (ofConfig {}).IsCurrent bertAttribute.query := isCurrent_of_compile hcompile rfl
  refine ⟨hcompile, fun model? model'? => ?_⟩
  have hnames : "model" ∉ ({} : Config).entryNames := by decide
  have hfunctions := functions_setModel_ofConfig {} model?
  have hhides : ∀ item y, (ofConfig {}).Visits bertScore y →
      ((ofConfig {}).setModel model?).HidesModel item y := by
    rintro item y (hnode | ⟨name, a, ⟨first, hfirst, -⟩, -⟩)
    · cases hnode with
      | self =>
          refine hidesModel_call hnames hfunctions (fun a ha => ?_) none
          obtain rfl := List.mem_singleton.mp ha
          exact not_canYield_str (by decide)
      | argument ha hnode =>
          obtain rfl := List.mem_singleton.mp ha
          cases hnode
          trivial
    · cases hfirst
  have hsame (items : List Item) := evaluate_setModel hcurrent model? model'?
    fun item (_ : item ∈ items) => hhides item
  exact ⟨fun s => (hsame [s.item]).1 rfl s (List.mem_singleton_self _), fun kind policy items =>
    (hsame items).2 [("bert", bertAttribute)] "bert" bertAttribute rfl rfl rfl kind policy⟩

/-- **The text of the entry `prediction` is compiled without a dependency on the default model, and
changes with it.** -/
theorem valueOn_setModel_predictedLabel :
    (ofConfig {}).compile "LABEL(prediction)" = .ok ⟨"LABEL(prediction)", predictedLabel, {}⟩ ∧
      ∃ item ∈ answeredQuestions.allItems,
        (((ofConfig {}).setModel (some "bert")).valueOn predictedLabel item).result.map
            Value.str? = .ok (some "x") ∧
        (((ofConfig {}).setModel (some "lstm")).valueOn predictedLabel item).result.map
            Value.str? = .ok (some "y") := by
  have hparse : Query.parse "LABEL(prediction)" = .ok predictedLabel :=
    Expr.parse_of_text_eq (by decide +kernel) (by decide) (by decide) (by decide)
  have hdeps : (ofConfig {}).dependencies predictedLabel = {} := by decide +kernel
  refine ⟨?_, _, List.mem_cons_self, ?_, ?_⟩
  · rw [compile_of_parse hparse, hdeps]
  · decide +kernel
  · decide +kernel

end Registry

end ErrorAnalysis
