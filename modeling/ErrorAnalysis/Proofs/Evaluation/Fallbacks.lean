import ErrorAnalysis.Proofs.Evaluation.Binding
import ErrorAnalysis.Proofs.Evaluation.Variants

/-!
# Parameters That Fall Back on an Entry

A parameter that falls back on an entry can be left out of a call where the instance has the entry, or be
given the entry by its name. The two ways differ inside: what is left out is filled in by binding, after
all arguments and with a flag that an entry was read, and what is named is evaluated like any other
argument and has the instance as its source. This module shows that nothing tells them apart.

## Main results

* `Function.bind_append`: **a parameter that is given its entry is bound as it would be without.**
* `Registry.call_append`: a function yields the same from the same sources.
* `Registry.evaluate_append_entry`: **leaving a parameter out and naming its entry is the same.**
-/

namespace ErrorAnalysis

/-! ### Binding -/

namespace Function

variable {f : Function} {positional : List Value} {named : List (String × Value)}
  {lookup : String → Option Value} {m : Assoc String Value} {p : Param} {v : Value}

/-- What is filled in does not depend on the flag. -/
theorem foldlM_fill_flag (ps : List Param) (flag : Bool) :
    ps.foldlM (f.fill lookup) (m, true) =
      (ps.foldlM (f.fill lookup) (m, flag)).map fun bound => (bound.1, true) := by
  induction ps generalizing m flag with
  | nil => rfl
  | cons q ps ih =>
      rw [List.foldlM_cons, List.foldlM_cons, fill, fill]
      cases Assoc.contains m q.name with
      | true => exact ih flag
      | false =>
          cases f.fallbackValue? lookup q with
          | some w => exact ih true
          | none =>
              cases q.default? with
              | some w => exact ih flag
              | none => rfl

/-- A parameter is filled in with its entry when its turn comes, or it has had that value before. -/
theorem foldlM_fill_insert {ps : List Param} (hp : p.name ∈ ps.map (·.name))
    (hentry : f.fallbackValue? lookup p = some v) (hsorted : Assoc.Sorted m)
    (hm : Assoc.contains m p.name = false) (flag flag' : Bool) :
    ps.foldlM (f.fill lookup) (m, flag) =
      (ps.foldlM (f.fill lookup) (Assoc.insert m p.name v, flag')).map
        fun bound => (bound.1, true) := by
  induction ps generalizing m flag flag' with
  | nil => cases hp
  | cons q ps ih =>
      rw [List.foldlM_cons, List.foldlM_cons]
      by_cases hq : q.name = p.name
      · have hfill : f.fill lookup (m, flag) q = .ok (Assoc.insert m p.name v, true) := by
          have hback : f.fallbackValue? lookup q = some v := by
            rw [← hentry, fallbackValue?, fallbackValue?, hq]
          rw [fill, hq, hm, hback]
          rfl
        have hkept : f.fill lookup (Assoc.insert m p.name v, flag') q =
            .ok (Assoc.insert m p.name v, flag') := by
          rw [fill, hq]
          exact if_pos (Assoc.contains_insert.mpr (.inl rfl))
        rw [hfill, hkept]
        exact foldlM_fill_flag ps flag'
      · have hrest : p.name ∈ ps.map (·.name) := (List.mem_cons.mp hp).resolve_left (Ne.symm hq)
        have hcontains : Assoc.contains (Assoc.insert m p.name v) q.name = Assoc.contains m q.name := by
          rw [Assoc.contains, Assoc.find?_insert_of_ne hq, Assoc.contains]
        -- Whatever another parameter gets, it does not matter which of the two is put in first.
        have hother (w : Value) : Assoc.contains (Assoc.insert m q.name w) p.name = false := by
          rw [Assoc.contains, Assoc.find?_insert_of_ne (Ne.symm hq)]
          exact hm
        have hcomm (w : Value) : Assoc.insert (Assoc.insert m p.name v) q.name w =
            Assoc.insert (Assoc.insert m q.name w) p.name v := hsorted.insert_comm (Ne.symm hq)
        rw [fill, fill, hcontains]
        cases Assoc.contains m q.name with
        | true => exact ih hrest hsorted hm flag flag'
        | false =>
            cases f.fallbackValue? lookup q with
            | some w =>
                dsimp only
                rw [hcomm w]
                exact ih hrest hsorted.insert (hother w) true true
            | none =>
                cases q.default? with
                | some w =>
                    dsimp only
                    rw [hcomm w]
                    exact ih hrest hsorted.insert (hother w) flag flag'
                | none => rfl

/-- A parameter that falls back on an entry has no value before it is filled in if it is given neither
by position nor by name. -/
theorem contains_supplied {entry : String} (hp : p ∈ f.visible)
    (hbinding : f.binding p.name = .fallback entry)
    (hposition : p.name ∉ ((f.slots.map (·.name)).zip positional).map Prod.fst)
    (hnamed : p.name ∉ named.map Prod.fst) :
    Assoc.contains (f.supplied positional named lookup) p.name = false := by
  have hlookup {entries : List (String × Value)} (h : p.name ∉ entries.map Prod.fst) :
      entries.lookup p.name = none := by
    rw [← Option.not_isSome_iff_eq_none, isSome_lookup_iff]
    exact h
  have hreverse {entries : List (String × Value)} (h : p.name ∉ entries.map Prod.fst) :
      entries.reverse.lookup p.name = none := by
    refine hlookup ?_
    rwa [List.map_reverse, List.mem_reverse]
  have hfixed : p.name ∉ f.fixed.map Prod.fst := by
    rintro hmem
    obtain ⟨e, he, heq⟩ := List.mem_map.mp hmem
    have hhidden := List.all_eq_true.mp (List.mem_filter.mp hp).2 e he
    exact bne_iff_ne.mp hhidden heq
  have hentries : p.name ∉ (f.entryValues lookup).map Prod.fst := by
    rintro hmem
    obtain ⟨e, he, heq⟩ := List.mem_map.mp hmem
    obtain ⟨q, -, hq⟩ := List.mem_filterMap.mp he
    split at hq
    · next name hname =>
        obtain ⟨w, -, rfl⟩ := Option.map_eq_some_iff.mp hq
        rw [show q.name = p.name from heq, hbinding] at hname
        cases hname
    · cases hq
  rw [Assoc.contains, supplied, Assoc.find?_foldl_insert_absent, hlookup hnamed, putAll,
    Assoc.find?_foldl_insert, hreverse hposition, putAll, Assoc.find?_foldl_insert,
    hreverse hentries, Assoc.ofList, Assoc.find?_foldl_insert, hreverse hfixed]
  rfl

theorem sorted_supplied : Assoc.Sorted (f.supplied positional named lookup) :=
  (Assoc.sorted_ofList.foldl_insert.foldl_insert).foldl_insert_absent

/-- A keyword for a parameter that was given nothing is bound behind all others. -/
theorem foldlM_bindNamed_append {given : List String} (hp : p ∈ f.visible)
    (hgiven : p.name ∉ given)
    (habsent : Assoc.contains (named.foldl
      (fun m e => if Assoc.contains m e.1 then m else Assoc.insert m e.1 e.2) m) p.name = false) :
    (named ++ [(p.name, v)]).foldlM (f.bindNamed given) m =
      (named.foldlM (f.bindNamed given) m).map fun m' => Assoc.insert m' p.name v := by
  rw [List.foldlM_append]
  cases hnamed : named.foldlM (f.bindNamed given) m with
  | error e => rfl
  | ok m' =>
      obtain ⟨-, rfl⟩ := foldlM_bindNamed_eq_ok_iff.mp hnamed
      refine (bind_pure _).trans (bindNamed_eq_ok_iff.mpr ⟨⟨List.mem_map_of_mem hp, hgiven⟩, ?_⟩)
      rw [habsent, if_neg Bool.false_ne_true]

theorem bind_of_fits (hfits : ¬f.slots.length < positional.length) :
    f.bind positional named lookup =
      (named.foldlM (f.bindNamed (((f.slots.map (·.name)).zip positional).map (·.1)))
        (putAll (putAll (Assoc.ofList f.fixed) (f.entryValues lookup))
          ((f.slots.map (·.name)).zip positional)) >>= fun supplied =>
        f.visible.foldlM (f.fill lookup) (supplied, !(f.entryValues lookup).isEmpty) >>= fun bound =>
          .ok (⟨f.name, bound.1⟩, bound.2)) := by
  rw [bind, positionalValues, if_neg hfits]
  rfl

/-- **A parameter that is given its entry is bound as it would be without,** if it falls back on that
entry and is given nothing else. Without, the flag tells that an entry was read. -/
theorem bind_append {entry : String} (hp : p ∈ f.visible)
    (hbinding : f.binding p.name = .fallback entry) (hentry : lookup entry = some v)
    (hposition : p.name ∉ (f.slots.take positional.length).map (·.name))
    (hnamed : p.name ∉ named.map Prod.fst) :
    f.bind positional named lookup =
      (f.bind positional (named ++ [(p.name, v)]) lookup).map fun bound => (bound.1, true) := by
  have hback : f.fallbackValue? lookup p = some v := by
    rw [fallbackValue?, hbinding]
    exact hentry
  have hgiven : p.name ∉ ((f.slots.map (·.name)).zip positional).map Prod.fst := by
    intro hmem
    obtain ⟨⟨name, w⟩, hmem, rfl⟩ := List.mem_map.mp hmem
    rw [List.zip_eq_zip_take_min] at hmem
    have htake := List.take_subset_take_left _ (min_le_right _ _) (List.of_mem_zip hmem).1
    rw [← List.map_take] at htake
    exact hposition htake
  have habsent : Assoc.contains (f.supplied positional named lookup) p.name = false :=
    contains_supplied hp hbinding hgiven hnamed
  have hfilled := foldlM_fill_insert (List.mem_map_of_mem hp) hback sorted_supplied habsent
    (!(f.entryValues lookup).isEmpty) (!(f.entryValues lookup).isEmpty)
  by_cases hfits : f.slots.length < positional.length
  · rw [bind, bind, positionalValues, if_pos hfits]
    rfl
  · rw [bind_of_fits hfits, bind_of_fits hfits, foldlM_bindNamed_append hp hgiven habsent]
    cases hsupplied : named.foldlM (f.bindNamed (((f.slots.map (·.name)).zip positional).map (·.1)))
        (putAll (putAll (Assoc.ofList f.fixed) (f.entryValues lookup))
          ((f.slots.map (·.name)).zip positional)) with
    | error e => rfl
    | ok m =>
        obtain ⟨-, hm⟩ := foldlM_bindNamed_eq_ok_iff.mp hsupplied
        obtain rfl : m = f.supplied positional named lookup := hm
        change (f.visible.foldlM (f.fill lookup) (_, _) >>= _) =
          Except.map _ (f.visible.foldlM (f.fill lookup) (Assoc.insert _ p.name v, _) >>= _)
        rw [hfilled]
        cases f.visible.foldlM (f.fill lookup)
            (Assoc.insert (f.supplied positional named lookup) p.name v,
              !(f.entryValues lookup).isEmpty) <;> rfl

end Function

/-! ### Calls -/

theorem Sourced.sourcesOf_append (vs : List Sourced) (i : Instance) (v : Value) :
    sourcesOf (vs ++ [.ofInstance i v]) = SortedSet.insert (sourcesOf vs) i.key := by
  rw [sourcesOf, List.foldl_append]
  rfl

namespace Registry

variable {r : Registry} {expand : Expansion Traced} {f : Function} {p : Param} {i : Instance} {v : Value}
  {given : List Given} {args : List Arg} {s : Scope}

/-- What a function yields once its arguments, which came from `sources`, are bound. -/
def yield (r : Registry) (f : Function) (i : Instance) (sources : SortedSet InstanceKey)
    (bound : Args × Bool) : Eval Traced Sourced := do
  let value ← f.body.run bound.1 r.ambient
  pure ⟨value, if bound.2 then SortedSet.insert sources i.key else sources⟩

theorem call_eq : r.call f i given =
    liftM (f.bind (Given.positional given) (Given.named given)
      fun name => i.get? name r.ambient.defaultModel?) >>=
      r.yield f i (Sourced.sourcesOf (given.map (·.value))) := rfl

/-- That an entry was read does not matter if the instance is a source already. -/
theorem yield_insert {sources : SortedSet InstanceKey} (h : SortedSet.Sorted sources) (args : Args)
    (fromEntry : Bool) :
    r.yield f i (SortedSet.insert sources i.key) (args, fromEntry) =
      r.yield f i sources (args, true) := by
  cases fromEntry with
  | true => simp only [yield, if_true, h.insert_insert]
  | false => rfl

/-- **A function yields the same from the same sources** if a parameter that falls back on an entry is
given it. The instance is a source either way: of the argument, or because an entry was read. -/
theorem call_append {entry : String} (hp : p ∈ f.visible)
    (hbinding : f.binding p.name = .fallback entry)
    (hentry : i.get? entry r.ambient.defaultModel? = some v)
    (hposition : p.name ∉ (f.slots.take (Given.positional given).length).map (·.name))
    (hnamed : p.name ∉ (Given.named given).map Prod.fst) :
    r.call f i (given ++ [⟨some p.name, .ofInstance i v⟩]) = r.call f i given := by
  have hpositional : Given.positional (given ++ [⟨some p.name, .ofInstance i v⟩]) =
      Given.positional given := by
    rw [Given.positional, List.filter_append, List.map_append]
    exact List.append_nil _
  have hkeywords : Given.named (given ++ [⟨some p.name, .ofInstance i v⟩]) =
      Given.named given ++ [(p.name, v)] := List.filterMap_append
  rw [call_eq, call_eq, hpositional, hkeywords, List.map_append,
    Function.bind_append hp hbinding hentry hposition hnamed]
  cases f.bind (Given.positional given) (Given.named given ++ [(p.name, v)])
      fun name => i.get? name r.ambient.defaultModel? with
  | error e => rfl
  | ok bound =>
      refine Eq.trans ?_ (yield_insert (Sourced.sorted_sourcesOf _) bound.1 bound.2)
      exact congrArg (fun sources => r.yield f i sources bound) (Sourced.sourcesOf_append _ i v)

/-! ### Evaluation -/

theorem evaluateArgs_append (a : Arg) : r.evaluateArgs expand (args ++ [a]) s = (do
    let given ← r.evaluateArgs expand args s
    let g ← r.evaluateArg expand a s
    pure (given ++ [g])) := by
  induction args with
  | nil => simp [evaluateArgs]
  | cons b args ih =>
      rw [List.cons_append, evaluateArgs, evaluateArgs, ih]
      simp

/-- An entry that is named is evaluated to its value, with the instance as its source. -/
theorem evaluateArg_entry {name entry : String} (hname : name ≠ literalKeyword)
    (hi : s.instance? = some i) (hentry : i.get? entry r.ambient.defaultModel? = some v) :
    r.evaluateArg expand (.named name (.ident entry)) s = pure ⟨some name, .ofInstance i v⟩ := by
  rw [evaluateArg, literalArgument?_eq_none hname]
  dsimp only
  rw [evaluateWith, identifier, hi]
  dsimp only
  rw [hentry]
  rfl

/-- **Leaving a parameter out and naming its entry is the same.** If a visible parameter of a function
falls back on an entry, a call gives it neither by position nor by name, and the variant that the call
selects has the entry, then nothing tells the call from the one with the entry as a further keyword
argument: both yield the same value from the same sources, or the same error. -/
theorem evaluate_append_entry (r : Registry) {function : String} {f : Function} {p : Param}
    {entry : String} (hget : r.functions.get function = .ok f) (hp : p ∈ f.visible)
    (hbinding : f.binding p.name = .fallback entry) (hname : p.name ≠ literalKeyword)
    {args : List Arg} (hnamed : p.name ∉ args.filterMap Arg.name?)
    (hposition : p.name ∉ (f.slots.take (args.filter Arg.isPositional).length).map (·.name))
    {edit? : Option String} {s : Scope} {i : Instance}
    (hi : (s.forCall r.ambient f edit?).instance? = some i)
    (hentry : (i.get? entry r.ambient.defaultModel?).isSome = true) :
    r.evaluate (.call function (args ++ [.named p.name (.ident entry)]) edit?) s =
      r.evaluate (.call function args edit?) s := by
  obtain ⟨v, hv⟩ := Option.isSome_iff_exists.mp hentry
  rw [evaluate, evaluate, evaluateAt_eq, evaluateWith, evaluateWith, hget]
  refine Eval.bind_congr fun f' hf' => ?_
  obtain rfl : f = f' := by
    rw [Eval.result_liftM] at hf'
    exact Except.ok.inj hf'
  dsimp only
  rw [hi]
  dsimp only
  rw [evaluateArgs_append, evaluateArg_entry hname hi hv, bind_assoc]
  refine Eval.bind_congr fun given hgiven => ?_
  have hnames := names_of_evaluateArgs hgiven
  rw [pure_bind, pure_bind]
  refine call_append hp hbinding hv ?_ ?_
  · rwa [Given.length_positional hnames]
  · rwa [Given.names_named hnames]

/-! ### A question that is asked again -/

/-- A function that gives back the question, with an entry of the context and a label that is fixed. -/
def askedAgain : Function :=
  (Function.ofParams ["context"] "ask"
    [{ name := "func", fallback? := some "question" }, { name := "context" },
      { name := "label", default? := some (.str "lemma") }] .apply).fix "ask_pos" "label" (.str "pos")

/-- A registry with that function. -/
def askingRegistry : Registry :=
  { ofConfig {} with
    functions := { functions := [("ask_pos", askedAgain)], entryNames := ["context"] } }

/-- The edited variant of a question. -/
def editedQuestion : Instance :=
  ⟨⟨"q1", 1⟩, "swap", [("context", .str "they"), ("question", .str "whom")]⟩

/-- A question with an edit. -/
def editedItem : Item :=
  ⟨"q1", [(0, ⟨⟨"q1", 0⟩, Instance.noEdit, [("question", .str "who")]⟩), (1, editedQuestion)]⟩

/-- Whether the function is left to the question of the edited variant or given it, it gives that question
back, with the edited variant as its source. -/
theorem evaluate_append_entry_askedAgain :
    let s : Scope := ⟨editedItem, Instance.noEdit⟩
    let args : List Arg := [.named "context" (.ident "question")]
    askingRegistry.evaluate
        (.call "ask_pos" (args ++ [.named "func" (.ident "question")]) (some "swap")) s =
      askingRegistry.evaluate (.call "ask_pos" args (some "swap")) s ∧
    (askingRegistry.evaluate (.call "ask_pos" args (some "swap")) s).result.map
      (fun v => (v.value.str?, v.sources)) = .ok (some "whom", [⟨"q1", 1⟩]) := by
  have hvariant : ((⟨editedItem, Instance.noEdit⟩ : Scope).forCall askingRegistry.ambient askedAgain
      (some "swap")).instance? = some editedQuestion := by
    rfl
  have hbinding : askedAgain.binding "func" = .fallback "question" := by decide
  have hvisible : { name := "func", fallback? := some "question" } ∈ askedAgain.visible :=
    List.mem_filter.mpr ⟨.head _, by decide⟩
  exact ⟨evaluate_append_entry askingRegistry rfl hvisible hbinding (by decide) (by decide) (by decide)
    hvariant (by decide), by decide +kernel⟩

end Registry

end ErrorAnalysis
