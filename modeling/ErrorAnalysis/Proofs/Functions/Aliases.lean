import ErrorAnalysis.Proofs.Functions.Precedence

/-!
# Aliases

An alias binds its arguments as the function that it stands for does with one argument more: the fixed
value, put among the positional arguments where the parameter has its place, or behind the keywords if
the positional arguments do not reach that place. Fixing a parameter hides it and moves those behind it
forward, so each of the other parameters is offered the same by each source in both calls.

## Main definitions

* `Function.withArgument`: a call with one argument more.

## Main results

* `Function.visible_fix`, `Function.slots_fix`: a fixed parameter is taken out, and the others stay.
* `Function.offer?_fix`: **the other parameters are offered the same by every source.**
* `Function.accepts_fix_iff`: an alias accepts a call iff its base does with the value supplied.
* `FunctionTable.bind_alias`: **an alias is its base with one argument supplied.**
-/

namespace ErrorAnalysis

/-- **A place that is taken out moves those behind it forward,** as a value that is put in moves the
values behind it back. If the values do not reach the place, nothing behind it has one. -/
theorem idxOf?_bind_insertIdx {κ α : Type} [DecidableEq κ] {front back : List κ} {name gap : κ}
    {values : List α} {v : α} (h : name ≠ gap) :
    ((front ++ gap :: back).idxOf? name).bind ((values.insertIdx front.length v)[·]?) =
      ((front ++ back).idxOf? name).bind (values[·]?) := by
  have hgap : (gap == name) = false := beq_eq_false_iff_ne.mpr h.symm
  rw [List.idxOf?, List.findIdx?_append, List.findIdx?_append, List.findIdx?_cons, hgap]
  cases hfront : front.findIdx? (· == name) with
  | some k =>
      have hk : k < front.length := (List.findIdx?_eq_some_iff_getElem.mp hfront).1
      rw [Option.some_or, Option.some_or, Option.bind_some, Option.bind_some,
        List.getElem?_insertIdx_of_lt hk]
  | none =>
      cases back.findIdx? (· == name) with
      | none => rfl
      | some k =>
          have hk : front.length < k + 1 + front.length := by omega
          simp only [Bool.false_eq_true, if_false, Option.map_some, Option.none_or, Option.bind_some]
          rw [List.getElem?_insertIdx_of_gt hk]
          congr 1
          omega

namespace Function

variable {f : Function} {name : String} {v : Value} {p : Param} {i : ℕ}
  {positional : List Value} {named : List (String × Value)} {lookup : String → Option Value}

/-! ### Parameters of an alias -/

theorem mem_fixed_fix_iff {q parameter : String} :
    q ∈ (f.fix name parameter v).fixed.map Prod.fst ↔ q = parameter ∨ q ∈ f.fixed.map Prod.fst := by
  by_cases hq : q = parameter
  · simp [fix, hq]
  · simp [fix, hq]

/-- A parameter of another name is fixed to what it was. -/
theorem lookup_fixed_fix {q parameter : String} (hq : q ≠ parameter) :
    (f.fix name parameter v).fixed.reverse.lookup q = f.fixed.reverse.lookup q := by
  have hkept (entries : List (String × Value)) :
      (entries.filter fun e => e.1 != parameter).lookup q = entries.lookup q := by
    induction entries with
    | nil => rfl
    | cons e entries ih =>
        rw [List.filter_cons, List.lookup_cons]
        by_cases he : e.1 = parameter
        · simp [he, ih, beq_eq_false_iff_ne.mpr hq]
        · rw [if_pos (bne_iff_ne.mpr he), List.lookup_cons, ih]
  rw [fix, List.reverse_append, List.lookup_append, ← List.filter_reverse, hkept]
  simp [List.lookup_cons, beq_eq_false_iff_ne.mpr hq]

/-- **A parameter that is fixed is taken out of the visible ones.** -/
theorem visible_fix {parameter : String} :
    (f.fix name parameter v).visible = f.visible.filter fun q => q.name != parameter := by
  have hhidden (q : Param) : (f.fix name parameter v).fixed.all (fun e => e.1 != q.name) =
      (q.name != parameter && f.fixed.all fun e => e.1 != q.name) := by
    rw [Bool.eq_iff_iff, Bool.and_eq_true]
    simp only [List.all_eq_true, bne_iff_ne]
    constructor
    · intro h
      refine ⟨fun hq => h (parameter, v) (List.mem_append_right _ (.head _)) hq.symm, fun e he => ?_⟩
      by_cases hq : e.1 = parameter
      · exact fun heq => h (parameter, v) (List.mem_append_right _ (.head _)) (hq.symm.trans heq)
      · exact h e (List.mem_append_left _ (List.mem_filter.mpr ⟨he, bne_iff_ne.mpr hq⟩))
    · rintro ⟨hq, hfixed⟩ e he
      rcases List.mem_append.mp he with he | he
      · exact hfixed e (List.mem_of_mem_filter he)
      · rw [List.mem_singleton.mp he]
        exact hq.symm
  rw [visible, visible, List.filter_filter]
  exact congrArg (fun keep => List.filter keep f.params) (funext hhidden)

/-- **It is taken out of the places for positional arguments too.** -/
theorem slots_fix {parameter : String} :
    (f.fix name parameter v).slots = f.slots.filter fun q => q.name != parameter := by
  rw [slots, visible_fix, slots, List.filter_filter, List.filter_filter]
  exact List.filter_congr fun q _ => Bool.and_comm _ _

theorem mem_names_visible_fix_iff {q parameter : String} (hq : q ≠ parameter) :
    q ∈ (f.fix name parameter v).visible.map (·.name) ↔ q ∈ f.visible.map (·.name) := by
  simp only [visible_fix, List.mem_map, List.mem_filter, bne_iff_ne]
  constructor
  · rintro ⟨r, ⟨hr, -⟩, rfl⟩
    exact ⟨r, hr, rfl⟩
  · rintro ⟨r, hr, rfl⟩
    exact ⟨r, ⟨hr, hq⟩, rfl⟩

/-- A place is between those before it and those behind it, which stay if its parameter is fixed. -/
theorem exists_slots_eq (h : (f.params.map (·.name)).Nodup) (hp : f.slots[i]? = some p) :
    ∃ front back, f.slots.map (·.name) = front ++ p.name :: back ∧ front.length = i ∧
      ∀ name v, (f.fix name p.name v).slots.map (·.name) = front ++ back := by
  obtain ⟨front, back, hslots, hfront⟩ : ∃ front back, f.slots = front ++ p :: back ∧
      front.length = i := by
    obtain ⟨hi, rfl⟩ := List.getElem?_eq_some_iff.mp hp
    refine ⟨f.slots.take i, f.slots.drop (i + 1), ?_, List.length_take_of_le hi.le⟩
    rw [List.getElem_cons_drop, List.take_append_drop]
  have hnames := nodup_slots h
  rw [hslots, List.map_append, List.map_cons, List.nodup_middle, List.nodup_cons,
    List.mem_append, not_or] at hnames
  obtain ⟨⟨hnotFront, hnotBack⟩, -⟩ := hnames
  have hkept {ps : List Param} (hps : p.name ∉ ps.map (·.name)) :
      (ps.filter fun q => q.name != p.name) = ps :=
    List.filter_eq_self.mpr fun q hq => bne_iff_ne.mpr fun heq => hps (heq ▸ List.mem_map_of_mem hq)
  refine ⟨front.map (·.name), back.map (·.name), ?_, ?_, fun name v => ?_⟩
  · rw [hslots, List.map_append, List.map_cons]
  · rw [List.length_map, hfront]
  · rw [slots_fix, hslots, List.filter_append, List.filter_cons, bne_self_eq_false, hkept hnotFront,
      if_neg Bool.false_ne_true, hkept hnotBack, List.map_append]

/-! ### Supplying the value -/

/-- A call with one argument more: by position if the positional arguments reach its place, and
otherwise as the last keyword. -/
def withArgument (i : ℕ) (name : String) (v : Value) (positional : List Value)
    (named : List (String × Value)) : List Value × List (String × Value) :=
  if i ≤ positional.length then (positional.insertIdx i v, named)
  else (positional, named ++ [(name, v)])

variable {call : List Value × List (String × Value)} {q : String} {source : Source}

theorem positional_of_withArgument (hcall : withArgument i name v positional named = call) :
    call.1 = positional.insertIdx i v := by
  rw [← hcall, withArgument]
  split
  · rfl
  · next hi => rw [List.insertIdx_of_length_lt (not_le.mp hi)]

theorem lookup_of_withArgument (hcall : withArgument i name v positional named = call)
    (hq : q ≠ name) : call.2.lookup q = named.lookup q := by
  rw [← hcall, withArgument]
  split
  · rfl
  · rw [List.lookup_append, List.lookup_cons, beq_eq_false_iff_ne.mpr hq]
    exact Option.or_none

theorem keyword_of_withArgument (hnamed : p.name ∉ named.map Prod.fst)
    (hcall : withArgument i p.name v positional named = call) :
    f.offer? call.1 call.2 lookup p.name .keyword =
      if i ≤ positional.length then none else some v := by
  have hnone : named.lookup p.name = none := by
    rw [← Option.not_isSome_iff_eq_none, isSome_lookup_iff]
    exact hnamed
  rw [offer?, ← hcall, withArgument]
  split
  · exact hnone
  · rw [List.lookup_append, hnone, Option.none_or, List.lookup_cons_self]

/-- The value of the fixed parameter comes from no entry. -/
theorem supply?_fix_self :
    (f.fix name p.name v).supply? positional named lookup p.name = some v ∧
      ((f.fix name p.name v).source? positional named lookup p.name).any Source.isEntry = false := by
  have hfixed : (f.fix name p.name v).offer? positional named lookup p.name .fixed = some v := by
    rw [offer?, fix, List.reverse_append]
    exact List.lookup_cons_self
  refine ⟨by rw [supply?_eq, hfixed, Option.some_or], ?_⟩
  rw [← Bool.not_eq_true, isEntry_source?_iff, hfixed]
  exact fun hnone => Option.some_ne_none v hnone.1

section Supplied

variable (h : (f.params.map (·.name)).Nodup) (hp : f.slots[i]? = some p)
  (hcall : withArgument i p.name v positional named = call)

include h hp hcall

/-- **The other parameters are offered the same by every source.** -/
theorem offer?_fix (hq : q ≠ p.name) :
    (f.fix name p.name v).offer? positional named lookup q source =
      f.offer? call.1 call.2 lookup q source := by
  cases source with
  | fixed => exact lookup_fixed_fix hq
  | position =>
      obtain ⟨front, back, hslots, rfl, hfixed⟩ := exists_slots_eq h hp
      simp only [offer?]
      rw [hslots, hfixed, positional_of_withArgument hcall, idxOf?_bind_insertIdx hq]
  | keyword => exact (lookup_of_withArgument hcall hq).symm
  | _ => rfl

theorem source?_fix (hq : q ≠ p.name) :
    (f.fix name p.name v).source? positional named lookup q =
      f.source? call.1 call.2 lookup q := by
  simp only [source?, offer?_fix h hp hcall hq]

theorem supply?_fix (hq : q ≠ p.name) :
    (f.fix name p.name v).supply? positional named lookup q =
      f.supply? call.1 call.2 lookup q := by
  rw [supply?, source?_fix h hp hcall hq, supply?]
  exact congrArg _ (funext fun _ => offer?_fix h hp hcall hq)

theorem position_of_withArgument :
    f.offer? call.1 call.2 lookup p.name .position =
      if i ≤ positional.length then some v else none := by
  obtain ⟨front, back, hslots, rfl, -⟩ := exists_slots_eq h hp
  have hfront : front.findIdx? (· == p.name) = none := by
    have hnames := nodup_slots h
    rw [hslots, List.nodup_middle, List.nodup_cons, List.mem_append, not_or] at hnames
    exact List.idxOf?_eq_none_iff.mpr hnames.1.1
  have hplace : (f.slots.map (·.name)).idxOf? p.name = some front.length := by
    rw [hslots, List.idxOf?, List.findIdx?_append, hfront, List.findIdx?_cons, beq_self_eq_true,
      if_pos rfl, Option.none_or, Option.map_some, Nat.zero_add]
  rw [offer?, hplace, Option.bind_some, positional_of_withArgument hcall, List.getElem?_insertIdx_self]

theorem fits_fix_iff :
    positional.length ≤ (f.fix name p.name v).slots.length ↔ call.1.length ≤ f.slots.length := by
  obtain ⟨front, back, hslots, rfl, hfixed⟩ := exists_slots_eq h hp
  have hbase := congrArg List.length hslots
  have halias := congrArg List.length (hfixed name v)
  simp only [List.length_map, List.length_append, List.length_cons] at hbase halias
  rw [positional_of_withArgument hcall, List.length_insertIdx]
  split <;> omega

variable (hnamed : p.name ∉ named.map Prod.fst)

include hnamed

/-- **The value that is supplied for a parameter is the one that it gets,** by position or by keyword:
no entry comes before it. -/
theorem supply?_of_withArgument :
    f.supply? call.1 call.2 lookup p.name = some v ∧
      (f.source? call.1 call.2 lookup p.name).any Source.isEntry = false := by
  have hslot : p.name ∈ f.slots.map (·.name) := List.mem_map_of_mem (List.mem_of_getElem? hp)
  have hoffer : (f.offer? call.1 call.2 lookup p.name .position).or
      (f.offer? call.1 call.2 lookup p.name .keyword) = some v := by
    rw [position_of_withArgument h hp hcall, keyword_of_withArgument hnamed hcall]
    split <;> rfl
  constructor
  · rw [supply?_eq, fixed_eq_none_of_visible (visible_of_slots hslot), entry_eq_none_of_slots hslot,
      Option.none_or, Option.none_or, ← Option.or_assoc, hoffer, Option.some_or]
  · rw [← Bool.not_eq_true, isEntry_source?_iff, entry_eq_none_of_slots hslot]
    rintro ⟨-, hsome | ⟨-, hposition, hkeyword, -⟩⟩
    · cases hsome
    · rw [hposition, hkeyword] at hoffer
      cases hoffer

/-! ### Binding -/

theorem keywords_fix_iff :
    (∀ argument ∈ named, argument.1 ∈ (f.fix name p.name v).visible.map (·.name) ∧
      (f.fix name p.name v).offer? positional named lookup argument.1 .position = none) ↔
    ∀ argument ∈ call.2, argument.1 ∈ f.visible.map (·.name) ∧
      f.offer? call.1 call.2 lookup argument.1 .position = none := by
  have hothers (argument : String × Value) (hargument : argument ∈ named) :
      (argument.1 ∈ (f.fix name p.name v).visible.map (·.name) ∧
        (f.fix name p.name v).offer? positional named lookup argument.1 .position = none) ↔
      (argument.1 ∈ f.visible.map (·.name) ∧
        f.offer? call.1 call.2 lookup argument.1 .position = none) := by
    have hne : argument.1 ≠ p.name := fun heq => hnamed (heq ▸ List.mem_map_of_mem hargument)
    rw [mem_names_visible_fix_iff hne, offer?_fix h hp hcall hne]
  have hslot : p.name ∈ f.slots.map (·.name) := List.mem_map_of_mem (List.mem_of_getElem? hp)
  have hself : f.offer? call.1 call.2 lookup p.name .position = _ :=
    position_of_withArgument h hp hcall
  rw [forall₂_congr hothers]
  -- The value is among the keywords only if it cannot be put among the positional arguments.
  by_cases hi : i ≤ positional.length
  · rw [show call.2 = named by rw [← hcall, withArgument, if_pos hi]]
  · rw [if_neg hi] at hself
    rw [show call.2 = named ++ [(p.name, v)] by rw [← hcall, withArgument, if_neg hi]] at hself ⊢
    simp only [List.forall_mem_append, List.forall_mem_singleton]
    exact (and_iff_left ⟨visible_of_slots hslot, hself⟩).symm

/-- **An alias accepts a call iff its base does with the value supplied.** -/
theorem accepts_fix_iff :
    (f.fix name p.name v).Accepts positional named lookup ↔ f.Accepts call.1 call.2 lookup := by
  constructor
  · rintro ⟨hfits, hkeywords, hsupplied⟩
    refine ⟨(fits_fix_iff h hp hcall).mp hfits,
      (keywords_fix_iff h hp hcall hnamed).mp hkeywords, fun q hq => ?_⟩
    by_cases hname : q.name = p.name
    · rw [hname, (supply?_of_withArgument h hp hcall hnamed).1]
      rfl
    · rw [← @supply?_fix f name _ _ _ _ _ _ _ _ h hp hcall hname]
      refine hsupplied q ?_
      rw [visible_fix]
      exact List.mem_filter.mpr ⟨hq, bne_iff_ne.mpr hname⟩
  · rintro ⟨hfits, hkeywords, hsupplied⟩
    refine ⟨(fits_fix_iff h hp hcall).mpr hfits,
      (keywords_fix_iff h hp hcall hnamed).mpr hkeywords, fun q hq => ?_⟩
    rw [visible_fix] at hq
    obtain ⟨hvisible, hname⟩ := List.mem_filter.mp hq
    rw [supply?_fix h hp hcall (bne_iff_ne.mp hname)]
    exact hsupplied q hvisible

variable {args args' : Args} {fromEntry fromEntry' : Bool}

/-- **An alias binds what its base binds with the value supplied.** -/
theorem find?_fix_of_bind
    (halias : (f.fix name p.name v).bind positional named lookup = .ok (args, fromEntry))
    (hbase : f.bind call.1 call.2 lookup = .ok (args', fromEntry')) (q : String) :
    Assoc.find? args.values q = Assoc.find? args'.values q := by
  have hslot : p.name ∈ f.slots.map (·.name) := List.mem_map_of_mem (List.mem_of_getElem? hp)
  rw [@find?_of_bind (f.fix name p.name v) _ _ _ _ _ h halias, find?_of_bind h hbase]
  by_cases hq : q = p.name
  · subst hq
    rw [if_pos (.inl (mem_fixed_fix_iff.mpr (.inl rfl))), if_pos (.inr (visible_of_slots hslot)),
      supply?_fix_self.1, (supply?_of_withArgument h hp hcall hnamed).1]
  · have hbound : q ∈ (f.fix name p.name v).fixed.map Prod.fst ∨
          q ∈ (f.fix name p.name v).visible.map (·.name) ↔
        q ∈ f.fixed.map Prod.fst ∨ q ∈ f.visible.map (·.name) :=
      or_congr (mem_fixed_fix_iff.trans (or_iff_right hq)) (mem_names_visible_fix_iff hq)
    simp only [hbound, supply?_fix h hp hcall hq]

/-- **The flags are the same.** -/
theorem fromEntry_fix_of_bind
    (halias : (f.fix name p.name v).bind positional named lookup = .ok (args, fromEntry))
    (hbase : f.bind call.1 call.2 lookup = .ok (args', fromEntry')) :
    fromEntry = fromEntry' := by
  rw [Bool.eq_iff_iff, @fromEntry_of_bind (f.fix name p.name v) _ _ _ _ _ h halias,
    fromEntry_of_bind h hbase]
  refine exists_congr fun q => and_congr_right fun _ => ?_
  by_cases hq : q.name = p.name
  · rw [hq, supply?_fix_self.2, (supply?_of_withArgument h hp hcall hnamed).2]
  · rw [source?_fix h hp hcall hq]

end Supplied

end Function

namespace FunctionTable

variable {t : FunctionTable} {f : Function} {p : Param} {base : String} {i : ℕ}

/-- An alias of a function that is in a table can be registered and is the function with its parameter
fixed. -/
theorem registerAlias_eq (hget : t.get base = .ok f) (h : (f.params.map (·.name)).Nodup)
    (hp : p ∈ f.params) (name : String) (v : Value) :
    ∃ t', t.registerAlias base name p.name v = .ok t' ∧
      t'.get name = .ok (f.fix name p.name v) := by
  refine ⟨{ t with functions := Assoc.insert t.functions name (f.fix name p.name v) }, ?_, ?_⟩
  · have hfound : ¬(f.param? p.name).isNone = true := by
      rw [Function.param?_of_mem h hp]
      exact Bool.false_ne_true
    rw [registerAlias, hget]
    exact if_neg hfound
  · rw [get, Assoc.find?_insert_self]
    rfl

/-- **An alias is its base with one argument supplied.** Let an alias fix the `i`th parameter of a
function that can be given by position. Each call of the alias that does not name the parameter succeeds
iff the call of the function with the value supplied does, and then both give every parameter the same
value and have the same flag. -/
theorem bind_alias (hget : t.get base = .ok f) (h : (f.params.map (·.name)).Nodup)
    (hp : f.slots[i]? = some p) (name : String) (v : Value) :
    ∃ t' a, t.registerAlias base name p.name v = .ok t' ∧ t'.get name = .ok a ∧
      ∀ positional named lookup, p.name ∉ named.map Prod.fst →
        let call := Function.withArgument i p.name v positional named
        ((∃ bound, a.bind positional named lookup = .ok bound) ↔
          ∃ bound, f.bind call.1 call.2 lookup = .ok bound) ∧
        ∀ args fromEntry args' fromEntry',
          a.bind positional named lookup = .ok (args, fromEntry) →
          f.bind call.1 call.2 lookup = .ok (args', fromEntry') →
          (∀ q, Assoc.find? args.values q = Assoc.find? args'.values q) ∧ fromEntry = fromEntry' := by
  have hmem : p ∈ f.params :=
    List.mem_of_mem_filter (List.mem_of_mem_filter (List.mem_of_getElem? hp))
  obtain ⟨t', hregister, halias⟩ := registerAlias_eq hget h hmem name v
  refine ⟨t', _, hregister, halias, fun positional named lookup hnamed => ⟨?_, ?_⟩⟩
  · rw [@Function.exists_bind_iff (f.fix name p.name v) _ _ _ h, Function.exists_bind_iff h]
    exact Function.accepts_fix_iff h hp rfl hnamed
  · intro args fromEntry args' fromEntry' hbind hcall
    exact ⟨Function.find?_fix_of_bind h hp rfl hnamed hbind hcall,
      Function.fromEntry_fix_of_bind h hp rfl hnamed hbind hcall⟩

/-- A table with one function, which fixes a parameter already. -/
def measures : FunctionTable where
  functions := [("measure_words", Function.countedWords)]
  entryNames := ["question", "context"]

/-- The label is the second parameter that can be given by position, behind the documents. If they are
given by position, so is the label; otherwise it is given by name. -/
theorem bind_alias_measures :
    measures.get "measure_words" = .ok Function.countedWords ∧
    ∃ t' a, measures.registerAlias "measure_words" "measure_pos" "label" (.str "pos") = .ok t' ∧
      t'.get "measure_pos" = .ok a ∧
      (∃ bound, a.bind [.str "what"] [] Function.wordEntries = .ok bound) ∧
      (∃ bound, a.bind [] [] Function.wordEntries = .ok bound) := by
  have hget : measures.get "measure_words" = .ok Function.countedWords := by rfl
  have hnames : (Function.countedWords.params.map (·.name)).Nodup := by decide
  obtain ⟨t', a, hregister, halias, hbinds⟩ := bind_alias hget hnames
    (show Function.countedWords.slots[1]? = some { name := "label", default? := some (.str "lemma") }
      by rfl) "measure_pos" (.str "pos")
  refine ⟨hget, t', a, hregister, halias, ?_, ?_⟩
  · exact (hbinds [.str "what"] [] Function.wordEntries (List.not_mem_nil)).1.mpr ⟨_, rfl⟩
  · exact (hbinds [] [] Function.wordEntries (List.not_mem_nil)).1.mpr ⟨_, rfl⟩

end FunctionTable

end ErrorAnalysis
