import ErrorAnalysis.Proofs.Functions.Precedence
import ErrorAnalysis.Query.Compile

/-!
# Where Arguments Come From

When a function is called, the value of a parameter is fixed, or read from an entry, or given by the
caller, or it is the default. It is the default only if the caller gave none, and the caller gave none
exactly when the call as it is written leaves the parameter out.

## Main definitions

* `Function.Reads`: an entry is read for one of the parameters.
* `Function.Origin`: where the value of a parameter comes from.
* `Given.positional`, `Given.named`: evaluated arguments by position and by name.

## Main results

* `Function.bind_congr`: binding depends on the instance only through the entries that are read.
* `Function.origin_of_bind`: **every bound value has one of the origins.**
* `Registry.mem_omittedParams`: a parameter that was not given is one that the call as it is written
  leaves out.
-/

namespace ErrorAnalysis

/-! ### Bindings -/

/-- The entry that a binding reads. -/
def Binding.entryName? : Binding → Option String
  | .entry name | .fallback name => some name
  | .literal => none

namespace Function

variable {f : Function} {positional : List Value} {named : List (String × Value)}
  {lookup lookup' : String → Option Value} {m m' : Assoc String Value} {name : String} {v : Value}

/-- An entry is read for a parameter that callers can see. -/
def Reads (f : Function) (entry : String) : Prop :=
  ∃ p ∈ f.visible, (f.binding p.name).entryName? = some entry

theorem entryValues_congr (h : ∀ entry, f.Reads entry → lookup' entry = lookup entry) :
    f.entryValues lookup' = f.entryValues lookup := by
  refine List.filterMap_congr fun p hp => ?_
  cases hbinding : f.binding p.name with
  | entry name =>
      have hname := h name ⟨p, hp, by rw [hbinding, Binding.entryName?]⟩
      simp only [hname]
  | _ => rfl

theorem fill_congr (h : ∀ entry, f.Reads entry → lookup' entry = lookup entry) {p : Param}
    (hp : p ∈ f.visible) (bound : Assoc String Value × Bool) :
    f.fill lookup' bound p = f.fill lookup bound p := by
  have hfallback : f.fallbackValue? lookup' p = f.fallbackValue? lookup p := by
    rw [fallbackValue?, fallbackValue?]
    cases hbinding : f.binding p.name with
    | fallback name => exact h name ⟨p, hp, by rw [hbinding, Binding.entryName?]⟩
    | _ => rfl
  rw [fill, fill, hfallback]

/-- **Binding depends on the instance only through the entries that are read.** -/
theorem bind_congr (h : ∀ entry, f.Reads entry → lookup' entry = lookup entry) :
    f.bind positional named lookup' = f.bind positional named lookup := by
  have hfill (ps : List Param) (hps : ∀ p ∈ ps, p ∈ f.visible) (bound) :
      ps.foldlM (f.fill lookup') bound = ps.foldlM (f.fill lookup) bound := by
    induction ps generalizing bound with
    | nil => rfl
    | cons p ps ih =>
        obtain ⟨hp, hps⟩ := List.forall_mem_cons.mp hps
        rw [List.foldlM_cons, List.foldlM_cons, fill_congr h hp]
        simp only [ih hps]
  simp only [bind, entryValues_congr h, hfill f.visible fun _ => id]

/-! ### Putting entries -/

theorem contains_putAll {entries : List (String × Value)} (h : name ∈ entries.map (·.1)) :
    Assoc.contains (putAll m entries) name = true := by
  have hlookup : (entries.reverse.lookup name).isSome = true := by
    rw [isSome_lookup_iff, List.map_reverse, List.mem_reverse]
    exact h
  rw [Assoc.contains, putAll, Assoc.find?_foldl_insert, Option.isSome_or, hlookup, Bool.true_or]

/-! ### Giving by name -/

/-- A value that is there after arguments were given was there before or is one of them, and every
parameter that had a value has one still, as have those that were given. -/
theorem foldlM_bindNamed_eq_ok {given : List String}
    (h : named.foldlM (f.bindNamed given) m = .ok m') (name : String) (v : Value) :
    (Assoc.find? m' name = some v → Assoc.find? m name = some v ∨ (name, v) ∈ named) ∧
      (Assoc.contains m name = true ∨ name ∈ named.map (·.1) →
        Assoc.contains m' name = true) := by
  obtain ⟨-, rfl⟩ := foldlM_bindNamed_eq_ok_iff.mp h
  rw [Assoc.contains, Assoc.contains, Assoc.find?_foldl_insert_absent, Option.isSome_or,
    Bool.or_eq_true, isSome_lookup_iff]
  refine ⟨fun hv => ?_, id⟩
  rcases Option.or_eq_some_iff.mp hv with hv | ⟨-, hv⟩
  · exact .inl hv
  · obtain ⟨front, back, rfl, -⟩ := List.lookup_eq_some_iff.mp hv
    exact .inr (List.mem_append_right _ (.head _))

/-! ### Filling up -/

/-- A value that is there in the end was there before, or its parameter had none and got it from the
entry that it falls back on or as its default. -/
theorem foldlM_fill_eq_ok {bound bound' : Assoc String Value × Bool}
    (h : f.visible.foldlM (f.fill lookup) bound = .ok bound')
    (hv : Assoc.find? bound'.1 name = some v) :
    Assoc.find? bound.1 name = some v ∨ Assoc.contains bound.1 name = false ∧
      ∃ p ∈ f.visible, p.name = name ∧
        (f.fallbackValue? lookup p = some v ∨ p.default? = some v) := by
  refine (except_foldlM_induction
    (motive := fun c => (∀ w, Assoc.find? bound.1 name = some w → Assoc.find? c.1 name = some w) ∧
      (Assoc.find? c.1 name = some v → Assoc.find? bound.1 name = some v ∨
        Assoc.contains bound.1 name = false ∧ ∃ p ∈ f.visible, p.name = name ∧
          (f.fallbackValue? lookup p = some v ∨ p.default? = some v)))
    h ⟨fun _ => id, .inl⟩ ?_).2 hv
  rintro c p c' hp ⟨hkept, hfind⟩ hstep
  rw [(of_fill_eq_ok hstep).2.1]
  split
  · next hname =>
      subst hname
      rw [filled?]
      refine ⟨fun w hw => by rw [hkept w hw, Option.some_or], fun hv => ?_⟩
      rcases Option.or_eq_some_iff.mp hv with hv | ⟨hnone, hv⟩
      · exact hfind hv
      · refine .inr ⟨?_, p, hp, rfl, (Option.or_eq_some_iff.mp hv).imp_right (·.2)⟩
        rw [Assoc.contains, Option.isSome_eq_false_iff, Option.isNone_iff_eq_none,
          Option.eq_none_iff_forall_ne_some]
        intro w hw
        rw [hkept w hw] at hnone
        cases hnone
  · exact ⟨hkept, hfind⟩

/-! ### Origins -/

/-- Where the value of a parameter comes from. It is the default only of a parameter that is given
neither by name nor by position. -/
inductive Origin (f : Function) (positional : List Value) (named : List (String × Value))
    (lookup : String → Option Value) (name : String) (v : Value) : Prop
  | fixed (h : (name, v) ∈ f.fixed)
  | entry (e : String) (h : (f.binding name).entryName? = some e) (hv : lookup e = some v)
  | positional (h : v ∈ positional)
  | named (h : (name, v) ∈ named)
  | default (p : Param) (hp : p ∈ f.visible) (hname : p.name = name) (hv : p.default? = some v)
      (hnamed : name ∉ named.map (·.1))
      (hslot : p ∈ f.slots → p ∈ f.slots.drop positional.length)

/-- **Every bound value has one of the origins.** -/
theorem origin_of_bind {args : Args} {fromEntry : Bool}
    (h : f.bind positional named lookup = .ok (args, fromEntry))
    (hv : Assoc.find? args.values name = some v) :
    f.Origin positional named lookup name v := by
  obtain ⟨given, hgiven, h⟩ := except_bind_eq_ok.mp h
  obtain ⟨supplied, hsupplied, h⟩ := except_bind_eq_ok.mp h
  obtain ⟨bound, hbound, h⟩ := except_bind_eq_ok.mp h
  obtain ⟨rfl, -⟩ := Prod.mk.inj (Except.ok.inj h)
  have hgiven : positional.length ≤ f.slots.length ∧
      given = (f.slots.map (·.name)).zip positional := by
    rw [positionalValues] at hgiven
    split at hgiven
    · cases hgiven
    · next hlength => exact ⟨not_lt.mp hlength, (Except.ok.inj hgiven).symm⟩
  obtain ⟨hlength, rfl⟩ := hgiven
  obtain ⟨hfind, hcontains⟩ := foldlM_bindNamed_eq_ok hsupplied name v
  rcases foldlM_fill_eq_ok hbound hv with hv | ⟨hempty, p, hp, rfl, hfallback | hdefault⟩
  · rcases hfind hv with hv | hnamed
    · rcases Assoc.mem_of_find?_foldl_insert hv with hpositional | hv
      · exact .positional (List.of_mem_zip hpositional).2
      · rcases Assoc.mem_of_find?_foldl_insert hv with hentry | hv
        · obtain ⟨p, -, hp⟩ := List.mem_filterMap.mp hentry
          split at hp
          · next e he =>
              obtain ⟨w, hw, heq⟩ := Option.map_eq_some_iff.mp hp
              obtain ⟨rfl, rfl⟩ := Prod.mk.inj heq
              exact .entry e (by rw [he, Binding.entryName?]) hw
          · cases hp
        · exact .fixed (Assoc.mem_of_find?_ofList hv)
    · exact .named hnamed
  · rw [fallbackValue?] at hfallback
    split at hfallback
    · next e he => exact .entry e (by rw [he, Binding.entryName?]) hfallback
    · cases hfallback
  · refine .default p hp rfl hdefault (fun hnamed => ?_) fun hslot => ?_
    · rw [hcontains (.inr hnamed)] at hempty
      cases hempty
    · rw [← List.take_append_drop positional.length f.slots] at hslot
      refine (List.mem_append.mp hslot).resolve_left fun htake => ?_
      -- The names of the first parameters are those that were given by position.
      have hmem : p.name ∈ (((f.slots.map (·.name)).zip positional).map (·.1)) := by
        have hlength : positional.length ≤ (f.slots.map (·.name)).length := by
          rwa [List.length_map]
        rw [List.zip_eq_zip_take_min, min_eq_right hlength, List.take_length, List.map_fst_zip,
          ← List.map_take]
        · exact List.mem_map_of_mem htake
        · rw [List.length_take, min_eq_left hlength]
      rw [hcontains (.inl (contains_putAll hmem))] at hempty
      cases hempty

end Function

/-! ### Calls as they are written -/

namespace Given

/-- The values that are given by position. -/
def positional (given : List Given) : List Value :=
  (given.filter (·.name?.isNone)).map (·.value.value)

/-- The values that are given by name. -/
def named (given : List Given) : List (String × Value) :=
  given.filterMap fun g => g.name?.map (·, g.value.value)

variable {given : List Given} {args : List Arg}

theorem length_positional (h : given.map (·.name?) = args.map Arg.name?) :
    (positional given).length = (args.filter Arg.isPositional).length := by
  have hgiven : (given.filter (·.name?.isNone)).length =
      ((given.map (·.name?)).filter Option.isNone).length := by
    rw [List.filter_map, List.length_map]
    rfl
  have hargs : (args.filter Arg.isPositional).length =
      ((args.map Arg.name?).filter Option.isNone).length := by
    rw [List.filter_map, List.length_map]
    exact congrArg List.length (List.filter_congr fun a _ => by cases a <;> rfl)
  rw [positional, List.length_map, hgiven, h, hargs]

theorem names_named (h : given.map (·.name?) = args.map Arg.name?) :
    (named given).map (·.1) = args.filterMap Arg.name? := by
  have hgiven : (named given).map (·.1) = (given.map (·.name?)).filterMap id := by
    rw [named, List.map_filterMap, List.filterMap_map]
    refine List.filterMap_congr fun g _ => ?_
    rw [Option.map_map]
    exact Option.map_id'
  rw [hgiven, h, List.filterMap_map]
  rfl

end Given

namespace Registry

variable {r : Registry} {expand : Expansion Traced} {s : Scope} {args : List Arg} {given : List Given}

theorem name?_of_evaluateArg {a : Arg} {g : Given} (h : (r.evaluateArg expand a s).result = .ok g) :
    g.name? = a.name? := by
  cases a with
  | positional x =>
      simp only [evaluateArg, Eval.result_bind_eq_ok, Eval.result_pure_eq_ok] at h
      obtain ⟨v, -, rfl⟩ := h
      rfl
  | named name x =>
      rw [evaluateArg] at h
      split at h
      · obtain rfl := Eval.result_pure_eq_ok.mp h
        rfl
      · simp only [Eval.result_bind_eq_ok, Eval.result_pure_eq_ok] at h
        obtain ⟨v, -, rfl⟩ := h
        rfl

/-- The arguments keep their names. -/
theorem names_of_evaluateArgs (h : (r.evaluateArgs expand args s).result = .ok given) :
    given.map (·.name?) = args.map Arg.name? := by
  induction args generalizing given with
  | nil =>
      rw [evaluateArgs, Eval.result_pure_eq_ok] at h
      subst h
      rfl
  | cons a args ih =>
      simp only [evaluateArgs, Eval.result_bind_eq_ok, Eval.result_pure_eq_ok] at h
      obtain ⟨g, hg, gs, hgs, rfl⟩ := h
      rw [List.map_cons, List.map_cons, name?_of_evaluateArg hg, ih hgs]

theorem literalArgument?_eq_none {name : String} (h : name ≠ literalKeyword) (x : Expr) :
    literalArgument? name x = none := by
  cases x with
  | ident s => exact if_neg h
  | _ => rfl

/-- An argument has the value of its tree, unless its keyword makes a text of a bare name. -/
theorem value_of_evaluateArg {a : Arg} {g : Given} (h : (r.evaluateArg expand a s).result = .ok g)
    (hname : g.name? ≠ some literalKeyword) :
    (r.evaluateWith expand a.value s).result = .ok g.value := by
  cases a with
  | positional x =>
      simp only [evaluateArg, Eval.result_bind_eq_ok, Eval.result_pure_eq_ok] at h
      obtain ⟨v, hv, rfl⟩ := h
      exact hv
  | named name x =>
      rw [name?_of_evaluateArg h] at hname
      rw [evaluateArg, literalArgument?_eq_none fun heq => hname (congrArg some heq)] at h
      simp only [Eval.result_bind_eq_ok, Eval.result_pure_eq_ok] at h
      obtain ⟨v, hv, rfl⟩ := h
      exact hv

/-- A value that is given by position is that of the tree of an argument. -/
theorem exists_of_mem_positional (h : (r.evaluateArgs expand args s).result = .ok given)
    {v : Value} (hv : v ∈ Given.positional given) :
    ∃ a ∈ args, ∃ u, (r.evaluateWith expand a.value s).result = .ok u ∧ u.value = v := by
  obtain ⟨g, hg, rfl⟩ := List.mem_map.mp hv
  obtain ⟨hg, hnone⟩ := List.mem_filter.mp hg
  obtain ⟨a, ha, harg⟩ := exists_mem_of_evaluateArgs h hg
  refine ⟨a, ha, g.value, value_of_evaluateArg harg ?_, rfl⟩
  rw [Option.isNone_iff_eq_none.mp hnone]
  exact nofun

/-- So is a value that is given by name, unless the keyword makes texts of bare names. -/
theorem exists_of_mem_named (h : (r.evaluateArgs expand args s).result = .ok given)
    {name : String} {v : Value} (hv : (name, v) ∈ Given.named given)
    (hname : name ≠ literalKeyword) :
    ∃ a ∈ args, ∃ u, (r.evaluateWith expand a.value s).result = .ok u ∧ u.value = v := by
  obtain ⟨g, hg, hpair⟩ := List.mem_filterMap.mp hv
  obtain ⟨name', hname', heq⟩ := Option.map_eq_some_iff.mp hpair
  obtain ⟨rfl, rfl⟩ := Prod.mk.inj heq
  obtain ⟨a, ha, harg⟩ := exists_mem_of_evaluateArgs h hg
  refine ⟨a, ha, g.value, value_of_evaluateArg harg ?_, rfl⟩
  rw [hname']
  exact fun heq => hname (Option.some.inj heq)

/-- **A parameter that was given neither by position nor by name is one that the call leaves out.** -/
theorem mem_omittedParams (h : (r.evaluateArgs expand args s).result = .ok given) {f : Function}
    {p : Param} (hslot : p ∈ f.slots.drop (Given.positional given).length)
    (hnamed : p.name ∉ (Given.named given).map (·.1)) (hedit : p.name ≠ "rewrite")
    (asksEdit : Bool) : p ∈ omittedParams f args asksEdit := by
  have hnames := names_of_evaluateArgs h
  rw [Given.length_positional hnames] at hslot
  rw [Given.names_named hnames] at hnamed
  refine List.mem_filter.mpr ⟨hslot, ?_⟩
  simp [hnamed, hedit]

end Registry

end ErrorAnalysis
