import ErrorAnalysis.Function.Binding
import ErrorAnalysis.Proofs.Data.Maps
import ErrorAnalysis.Proofs.Evaluation.Results

/-!
# The Precedence of Arguments

A parameter can get its value from six sources. Binding writes what they offer into one map, in five
passes of which some overwrite what is there and some do not. What comes out of them is an order of
precedence: each parameter gets what the first source in that order offers. The passes of binding do
not follow that order, since positional arguments overwrite entries and entries overwrite fixed values;
but no two of these three offer a value to the same parameter.

## Main definitions

* `Function.Source`: the sources, with `Function.Source.order` as their order.
* `Function.offer?`: what a source offers for a parameter.
* `Function.supply?`: what the first source offers that offers anything.
* `Function.Accepts`: the condition under which binding succeeds.

## Main results

* `Function.exists_bind_iff`: **binding succeeds iff the call is accepted.**
* `Function.find?_of_bind`: **every bound parameter has what the first source offers.**
* `Function.fromEntry_of_bind`: the flag tells whether an entry was the first source of a parameter.
* `Function.bind_follows_precedence`: the three together.
-/

namespace ErrorAnalysis

/-! ### Looking up -/

section

variable {κ α : Type} [DecidableEq κ] {names : List κ} {name : κ}

theorem isSome_lookup_iff {entries : List (κ × α)} :
    (entries.lookup name).isSome = true ↔ name ∈ entries.map Prod.fst := by
  rw [List.lookup_isSome_iff, List.mem_map]
  refine exists_congr fun e => ?_
  rw [beq_iff_eq, eq_comm]

/-- A value that is given under a name is found by the place of the name. -/
theorem lookup_reverse_zip {values : List α} (h : names.Nodup) :
    (names.zip values).reverse.lookup name = (names.idxOf? name).bind (values[·]?) := by
  induction names generalizing values with
  | nil => rfl
  | cons first names ih =>
      obtain ⟨hfirst, hnames⟩ := List.nodup_cons.mp h
      cases values with
      | nil => simp
      | cons v values =>
          rw [List.zip_cons_cons, List.reverse_cons, List.lookup_append, ih hnames, List.idxOf?_cons]
          by_cases hname : first = name
          · subst hname
            simp [List.idxOf?_eq_none_iff.mpr hfirst]
          · rw [beq_eq_false_iff_ne.mpr hname]
            cases names.idxOf? name <;> simp [List.lookup_cons, beq_eq_false_iff_ne.mpr (Ne.symm hname)]

/-- What names have is found under each of them. -/
theorem lookup_filterMap {g : κ → Option α} :
    (names.filterMap fun n => (g n).map (n, ·)).lookup name = if name ∈ names then g name else none := by
  induction names with
  | nil => rfl
  | cons first names ih =>
      rw [List.filterMap_cons]
      by_cases hname : name = first
      · subst hname
        cases hg : g name <;> simp [hg, ih]
      · cases g first <;> simp [ih, hname, List.lookup_cons, beq_eq_false_iff_ne.mpr hname]

end

namespace Function

variable {f : Function} {positional : List Value} {named : List (String × Value)}
  {lookup : String → Option Value} {m m' : Assoc String Value} {name : String} {p : Param}

/-! ### Sources -/

/-- Where the value of a parameter can come from. -/
inductive Source where
  | fixed
  /-- The entry of the parameter's name. -/
  | entry
  | position
  | keyword
  /-- The entry that the parameter falls back on. -/
  | fallback
  | default
deriving DecidableEq, Repr

/-- The sources in the order of their precedence. -/
def Source.order : List Source :=
  [.fixed, .entry, .position, .keyword, .fallback, .default]

/-- Whether a source is an entry of the instance. -/
def Source.isEntry : Source → Bool
  | .entry | .fallback => true
  | _ => false

/-- What a source offers for a parameter. -/
def offer? (f : Function) (positional : List Value) (named : List (String × Value))
    (lookup : String → Option Value) (name : String) : Source → Option Value
  | .fixed => f.fixed.reverse.lookup name
  | .entry =>
    match f.binding name with
    | .entry e => lookup e
    | _ => none
  | .position => ((f.slots.map (·.name)).idxOf? name).bind (positional[·]?)
  | .keyword => named.lookup name
  | .fallback =>
    match f.binding name with
    | .fallback e => lookup e
    | _ => none
  | .default => (f.param? name).bind (·.default?)

/-- The first source that offers a value for a parameter. -/
def source? (f : Function) (positional : List Value) (named : List (String × Value))
    (lookup : String → Option Value) (name : String) : Option Source :=
  Source.order.find? fun source => (f.offer? positional named lookup name source).isSome

/-- What the first source offers for a parameter that offers anything. -/
def supply? (f : Function) (positional : List Value) (named : List (String × Value))
    (lookup : String → Option Value) (name : String) : Option Value :=
  (f.source? positional named lookup name).bind (f.offer? positional named lookup name)

/-- A call is accepted if each argument has a parameter of its own and each parameter has a source. -/
structure Accepts (f : Function) (positional : List Value) (named : List (String × Value))
    (lookup : String → Option Value) : Prop where
  /-- There are parameters for all positional arguments. -/
  fits : positional.length ≤ f.slots.length
  /-- A keyword names a visible parameter that got no positional argument. -/
  keywords : ∀ argument ∈ named, argument.1 ∈ f.visible.map (·.name) ∧
    f.offer? positional named lookup argument.1 .position = none
  /-- Every visible parameter has a source. -/
  supplied : ∀ p ∈ f.visible, (f.supply? positional named lookup p.name).isSome = true

theorem supply?_eq : f.supply? positional named lookup name =
    (f.offer? positional named lookup name .fixed).or
      ((f.offer? positional named lookup name .entry).or
        ((f.offer? positional named lookup name .position).or
          ((f.offer? positional named lookup name .keyword).or
            ((f.offer? positional named lookup name .fallback).or
              (f.offer? positional named lookup name .default))))) := by
  have hcons (source : Source) (sources : List Source) :
      ((source :: sources).find? fun s => (f.offer? positional named lookup name s).isSome).bind
          (f.offer? positional named lookup name) =
        (f.offer? positional named lookup name source).or
          ((sources.find? fun s => (f.offer? positional named lookup name s).isSome).bind
            (f.offer? positional named lookup name)) := by
    rw [List.find?_cons]
    cases hoffer : f.offer? positional named lookup name source with
    | some v => exact hoffer
    | none => rfl
  rw [supply?, source?, Source.order, hcons, hcons, hcons, hcons, hcons, hcons, List.find?_nil,
    Option.bind_none, Option.or_none]

/-- An entry is the first source iff it is offered under the name of a parameter that is not fixed, or
to fall back on where nothing else is. -/
theorem isEntry_source?_iff : (f.source? positional named lookup name).any Source.isEntry = true ↔
    f.offer? positional named lookup name .fixed = none ∧
      ((f.offer? positional named lookup name .entry).isSome = true ∨
        f.offer? positional named lookup name .entry = none ∧
          f.offer? positional named lookup name .position = none ∧
          f.offer? positional named lookup name .keyword = none ∧
          (f.offer? positional named lookup name .fallback).isSome = true) := by
  simp only [source?, Source.order, List.find?_cons, List.find?_nil]
  cases f.offer? positional named lookup name .fixed with
  | some v => simp [Source.isEntry]
  | none =>
      cases f.offer? positional named lookup name .entry with
      | some v => simp [Source.isEntry]
      | none =>
          cases f.offer? positional named lookup name .position with
          | some v => simp [Source.isEntry]
          | none =>
              cases f.offer? positional named lookup name .keyword with
              | some v => simp [Source.isEntry]
              | none =>
                  cases f.offer? positional named lookup name .fallback with
                  | some v => simp [Source.isEntry]
                  | none =>
                      cases f.offer? positional named lookup name .default <;>
                        simp [Source.isEntry]

/-! ### Names of parameters -/

theorem nodup_visible (h : (f.params.map (·.name)).Nodup) : (f.visible.map (·.name)).Nodup :=
  h.sublist (List.filter_sublist.map _)

theorem nodup_slots (h : (f.params.map (·.name)).Nodup) : (f.slots.map (·.name)).Nodup :=
  (nodup_visible h).sublist (List.filter_sublist.map _)

theorem param?_of_mem (h : (f.params.map (·.name)).Nodup) (hp : p ∈ f.params) :
    f.param? p.name = some p := by
  obtain ⟨q, hq⟩ : ∃ q, f.param? p.name = some q :=
    Option.isSome_iff_exists.mp (List.find?_isSome.mpr ⟨p, hp, beq_self_eq_true _⟩)
  have hfound := List.find?_some hq
  have hname : q.name = p.name := eq_of_beq hfound
  rw [hq, List.inj_on_of_nodup_map h (List.mem_of_find?_eq_some hq) hp hname]

theorem fixed_isSome_iff :
    (f.offer? positional named lookup name .fixed).isSome = true ↔ name ∈ f.fixed.map Prod.fst := by
  rw [offer?, isSome_lookup_iff, List.map_reverse, List.mem_reverse]

/-- A fixed parameter is hidden. -/
theorem mem_visible_iff : p ∈ f.visible ↔
    p ∈ f.params ∧ f.offer? positional named lookup p.name .fixed = none := by
  have hhidden : (f.fixed.all fun e => e.1 != p.name) = true ↔ p.name ∉ f.fixed.map Prod.fst := by
    rw [List.all_eq_true, List.mem_map]
    simp only [bne_iff_ne, not_exists, not_and]
  rw [visible, List.mem_filter, hhidden, ← fixed_isSome_iff, Option.not_isSome_iff_eq_none]

theorem fixed_eq_none_of_visible (h : name ∈ f.visible.map (·.name)) :
    f.offer? positional named lookup name .fixed = none := by
  obtain ⟨p, hp, rfl⟩ := List.mem_map.mp h
  exact (mem_visible_iff.mp hp).2

theorem visible_of_slots (h : name ∈ f.slots.map (·.name)) : name ∈ f.visible.map (·.name) :=
  (List.filter_sublist.map _).subset h

/-- A parameter that is given by position is not bound to the entry of its name. -/
theorem entry_eq_none_of_slots (h : name ∈ f.slots.map (·.name)) :
    f.offer? positional named lookup name .entry = none := by
  obtain ⟨p, hp, rfl⟩ := List.mem_map.mp h
  have hbinds := (List.mem_filter.mp hp).2
  rw [bindsEntry] at hbinds
  rw [offer?]
  cases hbinding : f.binding p.name with
  | entry e =>
      rw [hbinding] at hbinds
      cases hbinds
  | _ => rfl

theorem position_eq_none_of_not_slots (h : name ∉ f.slots.map (·.name)) :
    f.offer? positional named lookup name .position = none := by
  rw [offer?, List.idxOf?_eq_none_iff.mpr h]
  rfl

/-! ### Before parameters are filled up -/

/-- What the passes before the last one bind. -/
def supplied (f : Function) (positional : List Value) (named : List (String × Value))
    (lookup : String → Option Value) : Assoc String Value :=
  named.foldl (fun m e => if Assoc.contains m e.1 then m else Assoc.insert m e.1 e.2)
    (putAll (putAll (Assoc.ofList f.fixed) (f.entryValues lookup))
      ((f.slots.map (·.name)).zip positional))

theorem entryValues_eq : f.entryValues lookup = (f.visible.map (·.name)).filterMap fun n =>
    (f.offer? positional named lookup n .entry).map (n, ·) := by
  rw [entryValues, List.filterMap_map]
  refine List.filterMap_congr fun p _ => ?_
  rw [Function.comp_apply, offer?]
  cases f.binding p.name <;> rfl

theorem find?_supplied (h : (f.params.map (·.name)).Nodup) :
    Assoc.find? (f.supplied positional named lookup) name =
      ((f.offer? positional named lookup name .position).or
        ((if name ∈ f.visible.map (·.name) then f.offer? positional named lookup name .entry
          else none).or
          (f.offer? positional named lookup name .fixed))).or
        (f.offer? positional named lookup name .keyword) := by
  have hfixed : Assoc.find? (Assoc.ofList f.fixed) name = f.fixed.reverse.lookup name := by
    rw [Assoc.ofList, Assoc.find?_foldl_insert]
    exact Option.or_none
  rw [supplied, Assoc.find?_foldl_insert_absent, putAll, Assoc.find?_foldl_insert, putAll,
    Assoc.find?_foldl_insert, hfixed, lookup_reverse_zip (nodup_slots h),
    @entryValues_eq f positional named, ← List.filterMap_reverse, lookup_filterMap]
  simp only [List.mem_reverse]
  rfl

/-- **The first passes follow the order of precedence.** They do not write in that order, but a parameter
that is fixed is hidden, and one that is bound to its entry is not given by position. -/
theorem find?_supplied_of_visible (h : (f.params.map (·.name)).Nodup)
    (hvisible : name ∈ f.visible.map (·.name)) :
    Assoc.find? (f.supplied positional named lookup) name =
      (f.offer? positional named lookup name .entry).or
        ((f.offer? positional named lookup name .position).or
          (f.offer? positional named lookup name .keyword)) := by
  rw [find?_supplied h, if_pos hvisible, fixed_eq_none_of_visible hvisible, Option.or_none,
    ← Option.or_assoc]
  by_cases hslots : name ∈ f.slots.map (·.name)
  · rw [entry_eq_none_of_slots hslots, Option.or_none, Option.none_or]
  · rw [position_eq_none_of_not_slots hslots, Option.none_or, Option.or_none]

theorem find?_supplied_of_not_visible (h : (f.params.map (·.name)).Nodup)
    (hvisible : name ∉ f.visible.map (·.name)) (hkeyword : name ∉ named.map Prod.fst) :
    Assoc.find? (f.supplied positional named lookup) name =
      f.offer? positional named lookup name .fixed := by
  have hlookup : f.offer? positional named lookup name .keyword = none := by
    rw [offer?, ← Option.not_isSome_iff_eq_none, isSome_lookup_iff]
    exact hkeyword
  rw [find?_supplied h, if_neg hvisible,
    position_eq_none_of_not_slots fun hslots => hvisible (visible_of_slots hslots), hlookup,
    Option.none_or, Option.none_or, Option.or_none]

/-! ### Keywords -/

theorem bindNamed_eq_ok_iff {given : List String} {argument : String × Value} :
    f.bindNamed given m argument = .ok m' ↔
      (argument.1 ∈ f.visible.map (·.name) ∧ argument.1 ∉ given) ∧
        m' = if Assoc.contains m argument.1 then m else Assoc.insert m argument.1 argument.2 := by
  have hhidden : (f.visible.all fun p => p.name != argument.1) = true ↔
      argument.1 ∉ f.visible.map (·.name) := by
    rw [List.all_eq_true, List.mem_map]
    simp only [bne_iff_ne, not_exists, not_and]
  rw [bindNamed]
  split
  · next hno => simp [hhidden.mp hno]
  · next hno =>
      have hmem := not_not.mp (mt hhidden.mpr hno)
      split
      · next hgiven => simp [List.contains_iff_mem.mp hgiven]
      · next hgiven =>
          have hnot : argument.1 ∉ given := fun hmem => hgiven (List.contains_iff_mem.mpr hmem)
          split <;> simp only [hmem, hnot, Except.ok.injEq, true_and, not_false_eq_true, eq_comm]

theorem foldlM_bindNamed_eq_ok_iff {given : List String} :
    named.foldlM (f.bindNamed given) m = .ok m' ↔
      (∀ argument ∈ named, argument.1 ∈ f.visible.map (·.name) ∧ argument.1 ∉ given) ∧
        m' = named.foldl
          (fun m e => if Assoc.contains m e.1 then m else Assoc.insert m e.1 e.2) m := by
  induction named generalizing m with
  | nil => exact ⟨fun h => ⟨nofun, (Except.ok.inj h).symm⟩, fun h => congrArg _ h.2.symm⟩
  | cons argument named ih =>
      rw [List.foldlM_cons, except_bind_eq_ok, List.foldl_cons]
      simp only [bindNamed_eq_ok_iff, ih, List.forall_mem_cons]
      constructor
      · rintro ⟨m₁, ⟨hfirst, rfl⟩, hlater, rfl⟩
        exact ⟨⟨hfirst, hlater⟩, rfl⟩
      · rintro ⟨⟨hfirst, hlater⟩, rfl⟩
        exact ⟨_, ⟨hfirst, rfl⟩, hlater, rfl⟩

/-! ### Filling up -/

/-- The value of a parameter after it was filled up. -/
def filled? (f : Function) (lookup : String → Option Value) (m : Assoc String Value) (p : Param) :
    Option Value :=
  (Assoc.find? m p.name).or ((f.fallbackValue? lookup p).or p.default?)

/-- Whether a parameter is filled up from the entry that it falls back on. -/
def fallsBack (f : Function) (lookup : String → Option Value) (m : Assoc String Value) (p : Param) :
    Bool :=
  (Assoc.find? m p.name).isNone && (f.fallbackValue? lookup p).isSome

variable {bound bound' : Assoc String Value × Bool} {ps : List Param}

theorem fill_eq : f.fill lookup bound p =
    match f.filled? lookup bound.1 p with
    | some v => .ok (if Assoc.contains bound.1 p.name then bound.1 else Assoc.insert bound.1 p.name v,
        bound.2 || f.fallsBack lookup bound.1 p)
    | none => .error (.missingArgument f.name p.name) := by
  rw [fill, filled?, fallsBack, Assoc.contains]
  cases Assoc.find? bound.1 p.name with
  | some v => simp
  | none =>
      cases f.fallbackValue? lookup p with
      | some v => simp
      | none => cases p.default? <;> simp

theorem exists_fill (h : (f.filled? lookup bound.1 p).isSome = true) :
    ∃ out, f.fill lookup bound p = .ok out := by
  obtain ⟨v, hv⟩ := Option.isSome_iff_exists.mp h
  rw [fill_eq, hv]
  exact ⟨_, rfl⟩

/-- Filling up a parameter gives it its value and leaves the others as they are. -/
theorem of_fill_eq_ok (h : f.fill lookup bound p = .ok bound') :
    (f.filled? lookup bound.1 p).isSome = true ∧
      (∀ name, Assoc.find? bound'.1 name =
        if name = p.name then f.filled? lookup bound.1 p else Assoc.find? bound.1 name) ∧
      bound'.2 = (bound.2 || f.fallsBack lookup bound.1 p) := by
  rw [fill_eq] at h
  split at h
  · next v hfilled =>
      obtain rfl := Except.ok.inj h
      refine ⟨hfilled ▸ rfl, fun name => ?_, rfl⟩
      cases hfind : Assoc.find? bound.1 p.name with
      | none => simp [Assoc.contains, hfind, hfilled, Assoc.find?_insert]
      | some w =>
          have hcontains : Assoc.contains bound.1 p.name = true := by rw [Assoc.contains, hfind]; rfl
          rw [filled?, hfind, Option.some_or] at hfilled
          rw [if_pos hcontains, filled?, hfind, Option.some_or]
          split
          · next hname => rw [hname, hfind]
          · rfl
  · cases h

/-- The parameters that follow are filled up as if one was not. -/
theorem filled?_of_fill (h : f.fill lookup bound p = .ok bound') {q : Param} (hq : q.name ≠ p.name) :
    f.filled? lookup bound'.1 q = f.filled? lookup bound.1 q ∧
      f.fallsBack lookup bound'.1 q = f.fallsBack lookup bound.1 q := by
  rw [filled?, filled?, fallsBack, fallsBack, (of_fill_eq_ok h).2.1, if_neg hq]
  exact ⟨rfl, rfl⟩

theorem exists_foldlM_fill (hps : (ps.map (·.name)).Nodup)
    (h : ∀ p ∈ ps, (f.filled? lookup bound.1 p).isSome = true) :
    ∃ out, ps.foldlM (f.fill lookup) bound = .ok out := by
  induction ps generalizing bound with
  | nil => exact ⟨bound, rfl⟩
  | cons p ps ih =>
      obtain ⟨hne, hps⟩ := List.pairwise_cons.mp (List.pairwise_map.mp hps)
      obtain ⟨hp, h⟩ := List.forall_mem_cons.mp h
      obtain ⟨bound₁, hfill⟩ := exists_fill hp
      obtain ⟨out, hout⟩ := @ih bound₁ (List.pairwise_map.mpr hps) fun q hq => by
        rw [(filled?_of_fill hfill (hne q hq).symm).1]
        exact h q hq
      refine ⟨out, ?_⟩
      rw [List.foldlM_cons, hfill]
      exact hout

/-- **Parameters of different names are filled up independently of each other.** -/
theorem of_foldlM_fill_eq_ok (hps : (ps.map (·.name)).Nodup)
    (h : ps.foldlM (f.fill lookup) bound = .ok bound') :
    (∀ p ∈ ps, (f.filled? lookup bound.1 p).isSome = true ∧
      Assoc.find? bound'.1 p.name = f.filled? lookup bound.1 p) ∧
    (∀ name, name ∉ ps.map (·.name) → Assoc.find? bound'.1 name = Assoc.find? bound.1 name) ∧
    bound'.2 = (bound.2 || ps.any (f.fallsBack lookup bound.1)) := by
  induction ps generalizing bound with
  | nil =>
      obtain rfl := Except.ok.inj h
      exact ⟨nofun, fun _ _ => rfl, (Bool.or_false _).symm⟩
  | cons p ps ih =>
      obtain ⟨hne, hps⟩ := List.pairwise_cons.mp (List.pairwise_map.mp hps)
      rw [List.foldlM_cons] at h
      obtain ⟨bound₁, hfill, h⟩ := except_bind_eq_ok.mp h
      obtain ⟨hsome, hfind, hflag⟩ := of_fill_eq_ok hfill
      obtain ⟨hin, hout, hflags⟩ := ih (List.pairwise_map.mpr hps) h
      refine ⟨List.forall_mem_cons.mpr ⟨⟨hsome, ?_⟩, fun q hq => ?_⟩, fun name hname => ?_, ?_⟩
      · -- None of the parameters that follow has the name of the first one.
        rw [hout, hfind, if_pos rfl]
        intro hmem
        obtain ⟨q, hq, heq⟩ := List.mem_map.mp hmem
        exact hne q hq heq.symm
      · rw [← (filled?_of_fill hfill (hne q hq).symm).1]
        exact hin q hq
      · rw [List.map_cons, List.mem_cons, not_or] at hname
        rw [hout name hname.2, hfind, if_neg hname.1]
      · have hany : ps.any (f.fallsBack lookup bound₁.1) = ps.any (f.fallsBack lookup bound.1) := by
          rw [Bool.eq_iff_iff, List.any_eq_true, List.any_eq_true]
          refine exists_congr fun q => and_congr_right fun hq => ?_
          rw [(filled?_of_fill hfill (hne q hq).symm).2]
        rw [hflags, hflag, hany, List.any_cons, Bool.or_assoc]

/-! ### Binding -/

/-- A parameter is given by position iff that source offers a value. -/
theorem mem_given_iff (h : (f.params.map (·.name)).Nodup) :
    name ∈ ((f.slots.map (·.name)).zip positional).map Prod.fst ↔
      (f.offer? positional named lookup name .position).isSome = true := by
  rw [offer?, ← lookup_reverse_zip (nodup_slots h), isSome_lookup_iff, List.map_reverse,
    List.mem_reverse]

theorem filled?_supplied (h : (f.params.map (·.name)).Nodup) (hp : p ∈ f.visible) :
    f.filled? lookup (f.supplied positional named lookup) p =
      f.supply? positional named lookup p.name := by
  have hname : p.name ∈ f.visible.map (·.name) := List.mem_map_of_mem hp
  have hfallback : f.fallbackValue? lookup p = f.offer? positional named lookup p.name .fallback := rfl
  have hdefault : p.default? = f.offer? positional named lookup p.name .default := by
    rw [offer?, param?_of_mem h (List.mem_of_mem_filter hp)]
    rfl
  rw [filled?, find?_supplied_of_visible h hname, hfallback, hdefault, supply?_eq,
    fixed_eq_none_of_visible hname, Option.none_or, Option.or_assoc, Option.or_assoc]

/-- What binding does, pass by pass. -/
theorem bind_eq_ok_iff (h : (f.params.map (·.name)).Nodup) {args : Args} {fromEntry : Bool} :
    f.bind positional named lookup = .ok (args, fromEntry) ↔
      positional.length ≤ f.slots.length ∧
      (∀ argument ∈ named, argument.1 ∈ f.visible.map (·.name) ∧
        f.offer? positional named lookup argument.1 .position = none) ∧
      f.visible.foldlM (f.fill lookup)
        (f.supplied positional named lookup, !(f.entryValues lookup).isEmpty) =
          .ok (args.values, fromEntry) ∧
      args.function = f.name := by
  have hkeywords : (∀ argument ∈ named, argument.1 ∈ f.visible.map (·.name) ∧
        f.offer? positional named lookup argument.1 .position = none) ↔
      ∀ argument ∈ named, argument.1 ∈ f.visible.map (·.name) ∧
        argument.1 ∉ ((f.slots.map (·.name)).zip positional).map Prod.fst := by
    refine forall₂_congr fun argument _ => and_congr_right fun _ => ?_
    rw [mem_given_iff h, Option.not_isSome_iff_eq_none]
  rw [bind, hkeywords]
  simp only [except_bind_eq_ok, positionalValues]
  constructor
  · rintro ⟨given, hgiven, start, hstart, ⟨values, flag⟩, hfill, hresult⟩
    split at hgiven
    · cases hgiven
    · next hfits =>
        obtain rfl := Except.ok.inj hgiven
        obtain ⟨hnamed, rfl⟩ := foldlM_bindNamed_eq_ok_iff.mp hstart
        obtain ⟨rfl, rfl⟩ := Prod.mk.inj (Except.ok.inj hresult)
        exact ⟨not_lt.mp hfits, hnamed, hfill, rfl⟩
  · rintro ⟨hfits, hnamed, hfill, hname⟩
    refine ⟨_, if_neg (not_lt.mpr hfits), _, foldlM_bindNamed_eq_ok_iff.mpr ⟨hnamed, rfl⟩, _, hfill, ?_⟩
    rw [← hname]

/-- **Binding succeeds iff the call is accepted.** -/
theorem exists_bind_iff (h : (f.params.map (·.name)).Nodup) :
    (∃ bound, f.bind positional named lookup = .ok bound) ↔ f.Accepts positional named lookup := by
  constructor
  · rintro ⟨⟨args, fromEntry⟩, hbind⟩
    obtain ⟨hfits, hnamed, hfill, -⟩ := (bind_eq_ok_iff h).mp hbind
    refine ⟨hfits, hnamed, fun p hp => ?_⟩
    rw [← filled?_supplied h hp]
    exact ((of_foldlM_fill_eq_ok (nodup_visible h) hfill).1 p hp).1
  · rintro ⟨hfits, hnamed, hsupplied⟩
    obtain ⟨⟨values, fromEntry⟩, hfill⟩ := @exists_foldlM_fill f lookup
      (f.supplied positional named lookup, !(f.entryValues lookup).isEmpty) _ (nodup_visible h)
      fun p hp => by
        rw [filled?_supplied h hp]
        exact hsupplied p hp
    exact ⟨(⟨f.name, values⟩, fromEntry), (bind_eq_ok_iff h).mpr ⟨hfits, hnamed, hfill, rfl⟩⟩

variable {args : Args} {fromEntry : Bool}

/-- **The fixed and the visible parameters are bound, each to what the first source offers.** -/
theorem find?_of_bind (h : (f.params.map (·.name)).Nodup)
    (hbind : f.bind positional named lookup = .ok (args, fromEntry)) (name : String) :
    Assoc.find? args.values name =
      if name ∈ f.fixed.map Prod.fst ∨ name ∈ f.visible.map (·.name) then
        f.supply? positional named lookup name
      else none := by
  obtain ⟨-, hnamed, hfill, -⟩ := (bind_eq_ok_iff h).mp hbind
  obtain ⟨hin, hout, -⟩ := of_foldlM_fill_eq_ok (nodup_visible h) hfill
  by_cases hvisible : name ∈ f.visible.map (·.name)
  · obtain ⟨p, hp, rfl⟩ := List.mem_map.mp hvisible
    rw [if_pos (.inr hvisible), (hin p hp).2, filled?_supplied h hp]
  · have hkeyword : name ∉ named.map Prod.fst := by
      intro hmem
      obtain ⟨argument, hargument, rfl⟩ := List.mem_map.mp hmem
      exact hvisible (hnamed argument hargument).1
    rw [hout name hvisible, find?_supplied_of_not_visible h hvisible hkeyword, supply?_eq]
    split
    · next hmem =>
        obtain ⟨v, hv⟩ := Option.isSome_iff_exists.mp
          (fixed_isSome_iff.mpr (hmem.resolve_right hvisible))
        rw [hv, Option.some_or]
    · next hmem =>
        rw [← Option.not_isSome_iff_eq_none, fixed_isSome_iff]
        exact fun hfixed => hmem (.inl hfixed)

/-- A bound parameter has a source. -/
theorem contains_of_bind (h : (f.params.map (·.name)).Nodup)
    (hbind : f.bind positional named lookup = .ok (args, fromEntry)) (name : String) :
    Assoc.contains args.values name = true ↔
      name ∈ f.fixed.map Prod.fst ∨ name ∈ f.visible.map (·.name) := by
  rw [Assoc.contains, find?_of_bind h hbind]
  split
  · next hbound =>
      refine iff_of_true ?_ hbound
      rcases hbound with hfixed | hvisible
      · rw [supply?_eq, Option.isSome_or, fixed_isSome_iff.mpr hfixed, Bool.true_or]
      · obtain ⟨p, hp, rfl⟩ := List.mem_map.mp hvisible
        exact ((exists_bind_iff h).mp ⟨_, hbind⟩).supplied p hp
  · next hbound => exact iff_of_false Bool.false_ne_true hbound

/-- An entry is the first source of a visible parameter if it is offered under its name, or to fall back
on where the passes before have left the parameter without a value. -/
theorem isEntry_source?_of_visible (h : (f.params.map (·.name)).Nodup) (hp : p ∈ f.visible) :
    (f.source? positional named lookup p.name).any Source.isEntry = true ↔
      (f.offer? positional named lookup p.name .entry).isSome = true ∨
        f.fallsBack lookup (f.supplied positional named lookup) p = true := by
  have hname : p.name ∈ f.visible.map (·.name) := List.mem_map_of_mem hp
  have hfallback : f.fallbackValue? lookup p = f.offer? positional named lookup p.name .fallback := rfl
  rw [isEntry_source?_iff, fallsBack, find?_supplied_of_visible h hname, hfallback,
    fixed_eq_none_of_visible hname]
  simp [and_assoc]

/-- **The flag tells whether an entry was the first source of a parameter.** -/
theorem fromEntry_of_bind (h : (f.params.map (·.name)).Nodup)
    (hbind : f.bind positional named lookup = .ok (args, fromEntry)) :
    fromEntry = true ↔
      ∃ p ∈ f.params, (f.source? positional named lookup p.name).any Source.isEntry = true := by
  obtain ⟨-, -, hfill, -⟩ := (bind_eq_ok_iff h).mp hbind
  have hflag : fromEntry = (!(f.entryValues lookup).isEmpty ||
      f.visible.any (f.fallsBack lookup (f.supplied positional named lookup))) :=
    (of_foldlM_fill_eq_ok (nodup_visible h) hfill).2.2
  have hentries : (!(f.entryValues lookup).isEmpty) = true ↔
      ∃ p ∈ f.visible, (f.offer? positional named lookup p.name .entry).isSome = true := by
    rw [Bool.not_eq_true', List.isEmpty_eq_false_iff_exists_mem, @entryValues_eq f positional named]
    constructor
    · rintro ⟨e, he⟩
      obtain ⟨n, hn, heq⟩ := List.mem_filterMap.mp he
      obtain ⟨p, hp, rfl⟩ := List.mem_map.mp hn
      exact ⟨p, hp, Option.isSome_map ▸ heq ▸ Option.isSome_some⟩
    · rintro ⟨p, hp, hoffer⟩
      obtain ⟨v, hv⟩ := Option.isSome_iff_exists.mp hoffer
      refine ⟨(p.name, v), List.mem_filterMap.mpr ⟨p.name, List.mem_map_of_mem hp, ?_⟩⟩
      rw [hv, Option.map_some]
  rw [hflag, Bool.or_eq_true, hentries, List.any_eq_true, ← exists_or]
  constructor
  · rintro ⟨p, ⟨hp, hoffer⟩ | ⟨hp, hback⟩⟩
    · exact ⟨p, List.mem_of_mem_filter hp, (isEntry_source?_of_visible h hp).mpr (.inl hoffer)⟩
    · exact ⟨p, List.mem_of_mem_filter hp, (isEntry_source?_of_visible h hp).mpr (.inr hback)⟩
  · rintro ⟨p, hp, hentry⟩
    have hvisible : p ∈ f.visible := mem_visible_iff.mpr ⟨hp, (isEntry_source?_iff.mp hentry).1⟩
    exact ⟨p, ((isEntry_source?_of_visible h hvisible).mp hentry).imp (⟨hvisible, ·⟩) (⟨hvisible, ·⟩)⟩

/-- **Binding follows the order of precedence.** It succeeds iff each argument has a parameter of its own
and each visible parameter has a source; then the fixed and the visible parameters are bound, each to
what its first source offers, and the flag tells whether that was an entry for any of them. -/
theorem bind_follows_precedence (h : (f.params.map (·.name)).Nodup) (positional : List Value)
    (named : List (String × Value)) (lookup : String → Option Value) :
    ((∃ bound, f.bind positional named lookup = .ok bound) ↔ f.Accepts positional named lookup) ∧
    ∀ args fromEntry, f.bind positional named lookup = .ok (args, fromEntry) →
      (∀ name, Assoc.contains args.values name = true ↔
        name ∈ f.fixed.map Prod.fst ∨ name ∈ f.visible.map (·.name)) ∧
      (∀ name, Assoc.contains args.values name = true →
        Assoc.find? args.values name = f.supply? positional named lookup name) ∧
      (fromEntry = true ↔
        ∃ p ∈ f.params, (f.source? positional named lookup p.name).any Source.isEntry = true) := by
  refine ⟨exists_bind_iff h, fun args fromEntry hbind => ?_⟩
  refine ⟨contains_of_bind h hbind, fun name hname => ?_, fromEntry_of_bind h hbind⟩
  rw [find?_of_bind h hbind, if_pos ((contains_of_bind h hbind name).mp hname)]

/-! ### An alias with parameters of every kind -/

/-- A function of documents and their context, with the unit fixed. -/
def countedWords : Function :=
  (ofParams ["question", "context"] "measure"
    [{ name := "docs", fallback? := some "question" }, { name := "context" },
      { name := "label", default? := some (.str "lemma") }, { name := "unit" }] .count).fix
    "measure_words" "unit" (.str "words")

/-- Keywords for a parameter that has an entry, and twice for one that has none. -/
def wordKeywords : List (String × Value) :=
  [("context", .str "we"), ("label", .str "pos"), ("label", .str "tag")]

/-- The entries of an instance with a question and a context. -/
def wordEntries (entry : String) : Option Value :=
  if entry = "question" then some (.str "who")
  else if entry = "context" then some (.str "they")
  else none

/-- A positional argument comes before the entry to fall back on, an entry before the keyword of its
name, and the first of two keywords before the second. -/
theorem bind_countedWords :
    (countedWords.params.map (·.name)).Nodup ∧
    ∃ args, countedWords.bind [.str "what"] wordKeywords wordEntries = .ok (args, true) ∧
      args.get "docs" = .str "what" ∧ args.get "context" = .str "they" ∧
      args.get "label" = .str "pos" ∧ args.get "unit" = .str "words" := by
  have hnames : (countedWords.params.map (·.name)).Nodup := by decide
  obtain ⟨haccepts, hbound⟩ :=
    bind_follows_precedence hnames [.str "what"] wordKeywords wordEntries
  have hkeywords : ∀ argument ∈ wordKeywords, argument.1 ∈ countedWords.visible.map (·.name) ∧
      countedWords.offer? [.str "what"] wordKeywords wordEntries argument.1 .position = none := by
    intro argument hargument
    fin_cases hargument <;> exact ⟨by decide, rfl⟩
  obtain ⟨⟨args, fromEntry⟩, hbind⟩ := haccepts.mpr ⟨by decide, hkeywords, by decide⟩
  obtain ⟨hcontains, hfind, hflag⟩ := hbound args fromEntry hbind
  have hentry : fromEntry = true :=
    hflag.mpr ⟨{ name := "context" }, .tail _ (.head _), by decide⟩
  subst hentry
  have hget (name : String) (v : Value)
      (hname : name ∈ countedWords.fixed.map Prod.fst ∨ name ∈ countedWords.visible.map (·.name))
      (hv : countedWords.supply? [.str "what"] wordKeywords wordEntries name = some v) :
      args.get name = v := by
    rw [Args.get, hfind name ((hcontains name).mpr hname), hv, Option.getD_some]
  exact ⟨hnames, args, hbind, hget "docs" _ (by decide) rfl, hget "context" _ (by decide) rfl,
    hget "label" _ (by decide) rfl, hget "unit" _ (by decide) rfl⟩

end Function

end ErrorAnalysis
