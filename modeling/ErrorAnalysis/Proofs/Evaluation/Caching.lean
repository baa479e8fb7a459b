import ErrorAnalysis.Eval.Batch
import ErrorAnalysis.Proofs.Data.Maps
import ErrorAnalysis.Proofs.Evaluation.Surroundings
import ErrorAnalysis.Proofs.Syntax.Trees

/-!
# Evaluation that Keeps Patterns

A traced evaluation tells which patterns it asked for, and they are kept when it is over. Here they are kept
at once: a pattern that is asked for is taken from the store if it is there, and compiled and put there if
not, so that what is asked for later finds it, whether in the same call, in another operand, or on the next
item of a run that goes on after a failure. It is the same evaluation, for another kind of computation. It
comes to the same value or error, whatever the store holds, as long as it holds what was asked for before.

## Main definitions

* `PatternLedger`: the patterns in store, and the texts that were asked for.
* `PatternLedger.IsSound`: the store holds the patterns of the texts that were asked for.
* `Cached`: computations on a store, which ask it for patterns.
* `Follows`: a computation on a store comes to what a traced one comes to, and asks for the same.

## Main results

* `PatternLedger.IsSound.serve`: a request keeps a store sound.
* `Cached.follows_run`: **an operation on a store follows the operation.**
* `Cached.follows_evaluateWith`: a tree does if attributes are expanded so.
* `Cached.follows_evaluate`, `Cached.runsAlike_evaluateFrom`: **evaluation on a store follows evaluation.**
-/

namespace ErrorAnalysis

/-! ### Stores -/

/-- Patterns by their texts, and the texts that were asked for so far. -/
structure PatternLedger where
  entries : Assoc String Pattern := []
  requests : List String := []

namespace PatternLedger

/-- Answers a request: from the store, or by compiling the text, whose pattern is then put there. -/
def serve (l : PatternLedger) (source : String) : Except EvalError Pattern × PatternLedger :=
  let l := { l with requests := l.requests ++ [source] }
  match Assoc.find? l.entries source with
  | some p => (.ok p, l)
  | none =>
    match Pattern.compile source with
    | .ok p => (.ok p, { l with entries := Assoc.insert l.entries source p })
    | .error e => (.error e, l)

/-- The patterns in store are those of the texts that were asked for and have one. -/
structure IsSound (l : PatternLedger) : Prop where
  sorted : Assoc.Sorted l.entries
  find?_eq_some : ∀ source p, Assoc.find? l.entries source = some p ↔
    source ∈ l.requests ∧ Pattern.compile source = .ok p

theorem isSound_empty : IsSound {} where
  sorted := List.Pairwise.nil
  find?_eq_some _ _ := by simp [Assoc.find?]

variable {l : PatternLedger} {source : String}

/-- After a request the store is sound if the pattern that it led to has been put there. -/
theorem IsSound.insert (h : l.IsSound) {p : Pattern} (hp : Pattern.compile source = .ok p) :
    IsSound ⟨Assoc.insert l.entries source p, l.requests ++ [source]⟩ := by
  refine ⟨h.sorted.insert, fun source' p' => ?_⟩
  rw [Assoc.find?_insert, List.mem_append, List.mem_singleton]
  split
  · next heq =>
    subst heq
    rw [hp, Option.some.injEq, Except.ok.injEq]
    exact ⟨fun hpp => ⟨.inr rfl, hpp⟩, fun hpp => hpp.2⟩
  · next hne =>
    rw [h.find?_eq_some]
    simp only [hne, or_false]

/-- After a request the store is sound as it was if the text has no pattern, or its pattern was there. -/
theorem IsSound.skip (h : l.IsSound)
    (hknown : ∀ p, Pattern.compile source = .ok p → Assoc.find? l.entries source = some p) :
    IsSound ⟨l.entries, l.requests ++ [source]⟩ := by
  refine ⟨h.sorted, fun source' p => ?_⟩
  rw [h.find?_eq_some, List.mem_append, List.mem_singleton]
  constructor
  · exact fun ⟨hmem, hp⟩ => ⟨.inl hmem, hp⟩
  · rintro ⟨hmem | rfl, hp⟩
    · exact ⟨hmem, hp⟩
    · exact (h.find?_eq_some source' p).mp (hknown p hp)

theorem requests_serve (l : PatternLedger) (source : String) :
    (l.serve source).2.requests = l.requests ++ [source] := by
  rw [serve]
  split
  · rfl
  · split <;> rfl

/-- **A request is answered as the text denotes,** whatever was asked for before. -/
theorem IsSound.serve_eq (h : l.IsSound) (source : String) :
    (l.serve source).1 = Pattern.compile source := by
  rw [serve]
  split
  · next p hp => exact ((h.find?_eq_some source p).mp hp).2.symm
  · split
    · next p hp => exact hp.symm
    · next e he => exact he.symm

/-- **A request keeps a store sound.** -/
theorem IsSound.serve (h : l.IsSound) (source : String) : (l.serve source).2.IsSound := by
  rw [PatternLedger.serve]
  split
  · next p hp =>
    refine h.skip fun p' hp' => ?_
    have hcompile := ((h.find?_eq_some source p).mp hp).2
    rw [hp'] at hcompile
    rwa [Except.ok.inj hcompile]
  · split
    · next p hp => exact h.insert hp
    · next e he => exact h.skip fun p hp => absurd (he.symm.trans hp) (by simp)

/-- Texts that are kept later leave a store sound as well. -/
theorem IsSound.rememberAll {c : PatternCache} (h : IsSound ⟨c.entries, l.requests⟩)
    (sources : List String) : IsSound ⟨(c.rememberAll sources).entries, l.requests ++ sources⟩ := by
  induction sources generalizing c l with
  | nil => rwa [List.append_nil]
  | cons source sources ih =>
      have hfirst : IsSound ⟨(c.remember source).entries, l.requests ++ [source]⟩ := by
        rw [PatternCache.remember]
        split
        · next p hp => exact h.insert hp
        · next e he => exact h.skip fun p hp => absurd (he.symm.trans hp) (by simp)
      have hrest := ih (l := ⟨[], l.requests ++ [source]⟩) hfirst
      rwa [List.append_assoc] at hrest

/-- A sound store is determined by what was asked for. -/
theorem IsSound.entries_eq {l' : PatternLedger} (h : l.IsSound) (h' : l'.IsSound)
    (hrequests : l'.requests = l.requests) : l'.entries = l.entries := by
  refine h'.sorted.eq_of_mem_iff h.sorted fun e => ?_
  rw [← Assoc.find?_eq_some_iff_mem h'.sorted, ← Assoc.find?_eq_some_iff_mem h.sorted,
    h.find?_eq_some, h'.find?_eq_some, hrequests]

/-- What is in store stays there as it is, however much more is asked for. -/
theorem IsSound.find?_of_prefix {l' : PatternLedger} (h : l.IsSound) (h' : l'.IsSound)
    (hrequests : l.requests <+: l'.requests) {p : Pattern}
    (hfind : Assoc.find? l.entries source = some p) : Assoc.find? l'.entries source = some p := by
  obtain ⟨hmem, hp⟩ := (h.find?_eq_some source p).mp hfind
  exact (h'.find?_eq_some source p).mpr ⟨hrequests.subset hmem, hp⟩

/-- The keys of a sound store are the texts that were asked for and have a pattern, each of them once. -/
theorem IsSound.keys_eq (h : l.IsSound) : Assoc.keys l.entries =
    SortedSet.ofList (l.requests.filter fun source => (Pattern.compile source).isOk) := by
  have hsorted : SortedSet.Sorted (Assoc.keys l.entries) := List.pairwise_map.mpr h.sorted
  refine hsorted.eq_of_mem_iff (SortedSet.sorted_union List.Pairwise.nil) fun source => ?_
  rw [SortedSet.mem_ofList, List.mem_filter, Assoc.keys, List.mem_map]
  constructor
  · rintro ⟨⟨source', p⟩, hmem, rfl⟩
    obtain ⟨hrequested, hp⟩ :=
      (h.find?_eq_some source' p).mp ((Assoc.find?_eq_some_iff_mem h.sorted).mpr hmem)
    exact ⟨hrequested, by rw [hp]; rfl⟩
  · rintro ⟨hrequested, hok⟩
    cases hp : Pattern.compile source with
    | error e => exact absurd hok (by simp [hp, Except.isOk, Except.toBool])
    | ok p =>
        have hfind := (h.find?_eq_some source p).mpr ⟨hrequested, hp⟩
        exact ⟨(source, p), (Assoc.find?_eq_some_iff_mem h.sorted).mp hfind, rfl⟩

end PatternLedger

/-! ### Computations on a store -/

/-- A computation on a store of patterns. -/
abbrev Cached := StateM PatternLedger

/-- A computation on a store takes a pattern from there, or compiles it and puts it there. -/
instance : AsksPatterns Cached where
  ask _ source := modifyGet fun l => l.serve source

/-- What a computation on a store comes to, and the store after it. -/
def PatternLedger.run {α : Type} (l : PatternLedger) (y : Cached α) : α × PatternLedger :=
  (StateT.run y l).run

/-- A computation on a store comes to the value of a traced one, and asks for the same patterns. The
store stays sound. -/
def RunsAlike {α : Type} (x : Traced α) (y : Cached α) : Prop :=
  ∀ l : PatternLedger, l.IsSound →
    (l.run y).1 = x.value ∧ (l.run y).2.IsSound ∧ (l.run y).2.requests = l.requests ++ x.asked

/-- The same for computations that may fail. -/
def Follows {α : Type} (x : Eval Traced α) (y : Eval Cached α) : Prop :=
  RunsAlike x.run y.run

section Laws

variable {α β : Type}

theorem runsAlike_pure (a : α) : RunsAlike (pure a) (pure a) :=
  fun l hl => ⟨rfl, hl, (List.append_nil l.requests).symm⟩

/-- What comes out does not depend on what is in store. -/
theorem RunsAlike.run_eq {x : Traced α} {y : Cached α} (h : RunsAlike x y)
    {l l' : PatternLedger} (hl : l.IsSound) (hl' : l'.IsSound) : (l'.run y).1 = (l.run y).1 :=
  (h l' hl').1.trans (h l hl).1.symm

theorem RunsAlike.bind {x : Traced α} {y : Cached α} {f : α → Traced β} {g : α → Cached β}
    (hx : RunsAlike x y) (hf : ∀ a, RunsAlike (f a) (g a)) : RunsAlike (x >>= f) (y >>= g) := by
  intro l hl
  obtain ⟨hvalue, hsound, hrequests⟩ := hx l hl
  obtain ⟨hvalue', hsound', hrequests'⟩ := hf (l.run y).1 (l.run y).2 hsound
  rw [hvalue] at hvalue' hsound' hrequests'
  have hrun : l.run (y >>= g) = (l.run y).2.run (g x.value) := by
    rw [← hvalue]
    rfl
  rw [hrun]
  refine ⟨hvalue', hsound', ?_⟩
  rw [hrequests', hrequests, Traced.asked_bind, List.append_assoc]

theorem follows_pure (a : α) : Follows (pure a) (pure a) :=
  runsAlike_pure _

theorem follows_throw (e : EvalError) : Follows (throw e : Eval Traced α) (throw e) :=
  runsAlike_pure _

theorem follows_liftM (x : Except EvalError α) : Follows (liftM x) (liftM x) :=
  runsAlike_pure _

theorem Follows.bind {x : Eval Traced α} {y : Eval Cached α} {f : α → Eval Traced β}
    {g : α → Eval Cached β} (hx : Follows x y) (hf : ∀ a, Follows (f a) (g a)) :
    Follows (x >>= f) (y >>= g) := by
  rw [Follows, ExceptT.run_bind, ExceptT.run_bind]
  refine RunsAlike.bind hx fun v => ?_
  cases v with
  | ok a => exact hf a
  | error e => exact runsAlike_pure _

theorem Follows.mapM {xs : List α} {f : α → Eval Traced β} {g : α → Eval Cached β}
    (h : ∀ a, Follows (f a) (g a)) : Follows (xs.mapM f) (xs.mapM g) := by
  induction xs with
  | nil => exact follows_pure []
  | cons x xs ih =>
      rw [List.mapM_cons, List.mapM_cons]
      exact (h x).bind fun b => ih.bind fun bs => follows_pure (b :: bs)

theorem follows_ite {c : Prop} [Decidable c] {x x' : Eval Traced α} {y y' : Eval Cached α}
    (h : Follows x y) (h' : Follows x' y') : Follows (if c then x else x') (if c then y else y') := by
  split
  · exact h
  · exact h'

/-- A check in front of the rest. -/
theorem follows_check {c : Prop} [Decidable c] (e : EvalError) {x : Eval Traced α} {y : Eval Cached α}
    (h : Follows x y) : Follows (if c then (throw e : Eval Traced PUnit) >>= fun _ => x else x)
      (if c then (throw e : Eval Cached PUnit) >>= fun _ => y else y) :=
  follows_ite ((follows_throw e).bind fun _ => h) h

end Laws

/-! ### Operations -/

namespace Cached

variable (a : Ambient) (args : Args) (c : PatternCache)

/-- A request to the store follows one to the surroundings. -/
theorem follows_pattern (source : String) :
    Follows ((a.withPatterns c).pattern source) (a.pattern source) := by
  intro l hl
  refine ⟨?_, hl.serve source, l.requests_serve source⟩
  exact (hl.serve_eq source).trans (PatternCache.lookup_eq c source).symm

theorem follows_patternsOf (v : Value) : Follows ((a.withPatterns c).patternsOf v) (a.patternsOf v) := by
  refine Follows.mapM fun v => ?_
  cases v with
  | str s => exact follows_pattern a c s
  | _ => exact follows_throw _

theorem follows_linguistic :
    Follows (Annotations.linguistic args (a.withPatterns c)) (Annotations.linguistic args a) := by
  refine (follows_liftM _).bind fun feature => follows_ite
    ((follows_patternsOf a c _).bind fun patterns => (follows_liftM _).bind fun spans => ?_)
    ((follows_pure _).bind fun spans => ?_)
  all_goals
    cases spans with
    | list items => exact (follows_liftM _).bind fun _ => follows_pure _
    | _ => exact follows_liftM _

theorem follows_token : Follows (Documents.token args (a.withPatterns c)) (Documents.token args a) := by
  refine follows_ite ((follows_liftM _).bind fun range? => (follows_liftM _).bind fun found => ?_)
    (follows_throw _)
  exact follows_ite ((follows_patternsOf a c _).bind fun _ => follows_liftM _) (follows_pure _)

theorem follows_patternFound (range? : Option (Int × Int)) :
    Follows (Documents.patternFound args (a.withPatterns c) range?)
      (Documents.patternFound args a range?) := by
  refine follows_check _ (follows_ite ?_ (follows_throw _))
  exact (follows_patternsOf a c _).bind fun _ => (follows_liftM _).bind fun _ => follows_pure _

theorem follows_hasPattern :
    Follows (Documents.hasPattern args (a.withPatterns c)) (Documents.hasPattern args a) :=
  (follows_liftM _).bind fun range? => follows_patternFound a args c range?

theorem follows_boundaryWith :
    Follows (Documents.boundaryWith args (a.withPatterns c)) (Documents.boundaryWith args a) := by
  refine follows_check _ ((follows_patternsOf a c _).bind fun patterns => ?_)
  exact (follows_liftM _).bind fun direction => follows_patternFound a args c _

theorem follows_distance :
    Follows (Answers.distance args (a.withPatterns c)) (Answers.distance args a) := by
  refine follows_check _ ((follows_liftM _).bind fun question => (follows_liftM _).bind fun context => ?_)
  exact (follows_patternsOf a c _).bind fun patterns => follows_pure _

/-- **An operation on a store follows the operation,** whatever patterns the surroundings have. -/
theorem follows_run (b : Builtin) : Follows (b.run args (a.withPatterns c)) (b.run args a) := by
  cases b with
  | linguistic => exact follows_linguistic a args c
  | token => exact follows_token a args c
  | hasPattern => exact follows_hasPattern a args c
  | boundaryWith => exact follows_boundaryWith a args c
  | depDistance => exact follows_distance a args c
  | _ => exact runsAlike_pure _

end Cached

/-! ### Evaluation -/

/-- The registry with other patterns in store. -/
def Registry.withPatterns (r : Registry) (c : PatternCache) : Registry :=
  { r with ambient := r.ambient.withPatterns c }

theorem Registry.withPatterns_self (r : Registry) : r.withPatterns r.ambient.patterns = r := rfl

namespace Cached

variable {r : Registry} {c : PatternCache} {expand : Registry.Expansion Traced}
  {expand' : Registry.Expansion Cached}

theorem follows_block (hexpand : ∀ name x s, Follows (expand name x s) (expand' name x s))
    (kind : BlockKind) (name : String) (s : Scope) :
    Follows ((r.withPatterns c).block expand kind name s) (r.block expand' kind name s) := by
  cases kind with
  | attr =>
      rw [Registry.block, Registry.block, show (r.withPatterns c).attributes = r.attributes from rfl]
      cases Assoc.find? r.attributes name with
      | none => exact follows_throw _
      | some a =>
          dsimp only
          cases s.instance? with
          | none => exact follows_pure _
          | some i =>
              dsimp only
              cases Assoc.find? a.values i.key with
              | some v => exact follows_pure _
              | none => exact (hexpand name a.query.root _).bind fun v => follows_pure _
  | group =>
      rw [Registry.block, Registry.block, show (r.withPatterns c).groups = r.groups from rfl]
      cases Assoc.find? r.groups name with
      | none => exact follows_throw _
      | some g =>
          dsimp only
          cases s.instance? with
          | none => exact follows_pure _
          | some i => exact follows_pure _

theorem follows_call (f : Function) (i : Instance) (given : List Given) :
    Follows ((r.withPatterns c).call f i given) (r.call f i given) := by
  refine (follows_liftM _).bind fun bound => ?_
  exact (follows_run r.ambient bound.1 c f.body).bind fun value => follows_pure _

theorem follows_evaluateAll {xs : List Expr} {s : Scope}
    (h : ∀ x ∈ xs, Follows ((r.withPatterns c).evaluateWith expand x s) (r.evaluateWith expand' x s)) :
    Follows ((r.withPatterns c).evaluateAll expand xs s) (r.evaluateAll expand' xs s) := by
  induction xs with
  | nil => exact follows_pure []
  | cons x xs ih =>
      obtain ⟨hx, hxs⟩ := List.forall_mem_cons.mp h
      rw [Registry.evaluateAll, Registry.evaluateAll]
      exact hx.bind fun v => (ih hxs).bind fun vs => follows_pure (v :: vs)

theorem follows_evaluateArg {a : Arg} {s : Scope}
    (h : Follows ((r.withPatterns c).evaluateWith expand a.value s) (r.evaluateWith expand' a.value s)) :
    Follows ((r.withPatterns c).evaluateArg expand a s) (r.evaluateArg expand' a s) := by
  cases a with
  | positional x =>
      rw [Registry.evaluateArg, Registry.evaluateArg]
      exact h.bind fun value => follows_pure _
  | named name x =>
      rw [Registry.evaluateArg, Registry.evaluateArg]
      cases literalArgument? name x with
      | some text => exact follows_pure _
      | none => exact h.bind fun value => follows_pure _

theorem follows_evaluateArgs {args : List Arg} {s : Scope}
    (h : ∀ a ∈ args, Follows ((r.withPatterns c).evaluateWith expand a.value s)
      (r.evaluateWith expand' a.value s)) :
    Follows ((r.withPatterns c).evaluateArgs expand args s) (r.evaluateArgs expand' args s) := by
  induction args with
  | nil => exact follows_pure []
  | cons a args ih =>
      obtain ⟨ha, hargs⟩ := List.forall_mem_cons.mp h
      rw [Registry.evaluateArgs, Registry.evaluateArgs]
      exact (follows_evaluateArg ha).bind fun g => (ih hargs).bind fun gs => follows_pure (g :: gs)

/-- **Evaluation of a tree on a store follows evaluation of the tree,** if attributes are expanded so. -/
theorem follows_evaluateWith (hexpand : ∀ name x s, Follows (expand name x s) (expand' name x s))
    (x : Expr) (s : Scope) :
    Follows ((r.withPatterns c).evaluateWith expand x s) (r.evaluateWith expand' x s) := by
  induction x using Expr.induction generalizing s with
  | noOp => exact follows_pure _
  | literal l => exact follows_pure _
  | list items ih =>
      rw [Registry.evaluateWith, Registry.evaluateWith]
      exact (follows_evaluateAll fun x hx => ih x hx s).bind fun vs => follows_pure _
  | block kind name =>
      rw [Registry.evaluateWith, Registry.evaluateWith]
      exact follows_block hexpand kind name s
  | unary op x ih =>
      rw [Registry.evaluateWith, Registry.evaluateWith]
      exact (ih s).bind fun v => (follows_liftM _).bind fun value => follows_pure _
  | binary op x y ihx ihy =>
      rw [Registry.evaluateWith, Registry.evaluateWith]
      refine (ihx s).bind fun v => follows_ite (follows_pure _) ((ihy s).bind fun w => follows_ite ?_ ?_)
      · exact (follows_pure _).bind fun value => follows_pure _
      · exact (follows_liftM _).bind fun value => follows_pure _
  | ident name =>
      rw [Registry.evaluateWith, Registry.evaluateWith]
      exact follows_pure _
  | call function args edit? ih =>
      rw [Registry.evaluateWith, Registry.evaluateWith]
      refine (follows_liftM _).bind fun f => ?_
      have hscope : s.forCall (r.withPatterns c).ambient f edit? = s.forCall r.ambient f edit? := rfl
      dsimp only
      rw [hscope]
      cases (s.forCall r.ambient f edit?).instance? with
      | none => exact follows_pure _
      | some i => exact (follows_evaluateArgs fun a ha => ih a ha _).bind fun given => follows_call f i given

theorem follows_evaluateAt (depth : ℕ) (x : Expr) (s : Scope) :
    Follows ((r.withPatterns c).evaluateAt depth x s) (r.evaluateAt depth x s) := by
  induction depth generalizing x s with
  | zero => exact follows_evaluateWith (fun name _ _ => follows_throw (.circular name)) x s
  | succ depth ih => exact follows_evaluateWith (fun _ => ih) x s

/-- **Evaluation on a store follows evaluation,** whatever patterns the registry has. -/
theorem follows_evaluate (x : Expr) (s : Scope) :
    Follows ((r.withPatterns c).evaluate x s) (r.evaluate x s) :=
  follows_evaluateAt r.maxDepth x s

/-- **A run over items on a store runs alike,** through failures or up to the first. -/
theorem runsAlike_evaluateFrom (x : Expr) (kind : BlockKind) (policy : FailurePolicy) (o : Outcome)
    (items : List Item) : RunsAlike ((r.withPatterns c).evaluateFrom x kind policy o items)
      (r.evaluateFrom x kind policy o items) := by
  induction items generalizing o with
  | nil => exact runsAlike_pure o
  | cons item items ih =>
      refine RunsAlike.bind (follows_evaluate x _) fun v => ?_
      cases v with
      | ok v => exact ih _
      | error e =>
          cases policy with
          | failFast => exact runsAlike_pure _
          | skipFailing => exact ih _

end Cached

end ErrorAnalysis
