import ErrorAnalysis.Proofs.Blocks.Histories
import ErrorAnalysis.Proofs.Dependencies.Flags
import ErrorAnalysis.Proofs.Evaluation.Caching

/-!
# Sessions

A session on a registry is a sequence of actions: trees are evaluated on an instance or on many items, blocks
are made and taken out, and models, edits and frequencies are selected. The patterns that are compiled on the
way are kept, in two ways: a registry keeps those that an action asked for when the action is over, and a
session has a store that each request reads and fills at once. The store holds the patterns of all texts that
were asked for and have one, it only grows, and nobody can tell what is in it from the answers.

## Main definitions

* `Session.Action`, `Session.Answer`: the actions of a session, and what they come to.
* `Registry.perform`, `Registry.performAll`: actions on a registry.
* `Session.perform`, `Session.performAll`: actions on a registry with a store of patterns.
* `Session.performAllAfresh`: actions that find the store empty.

## Main results

* `Session.Mirrors.perform`: an action on a session comes to what it comes to on the registry.
* `Session.cache_isTransparent`: **the patterns in store are those of the texts that were asked for, and no
  answer depends on them.**
-/

namespace ErrorAnalysis

/-! ### Making blocks on a store -/

namespace Cached

variable {r : Registry} {d : Dataset} {source : Definition} {q : Query.Compiled} {o : CreateOptions}
  {c : PatternCache}

theorem runsAlike_attributeFor :
    RunsAlike ((r.withPatterns c).attributeFor d source q o) (r.attributeFor d source q o) := by
  rw [Registry.attributeFor_eq, Registry.attributeFor_eq,
    show (r.withPatterns c).reusable? d q o = r.reusable? d q o from rfl]
  cases r.reusable? d q o with
  | some known => exact runsAlike_pure _
  | none => exact (runsAlike_evaluateFrom _ _ _ _ _).bind fun outcome => runsAlike_pure _

theorem runsAlike_membersFor (items : List Item) :
    RunsAlike ((r.withPatterns c).membersFor q items) (r.membersFor q items) := by
  rw [Registry.membersFor, Registry.membersFor]
  split
  · exact runsAlike_pure _
  · exact (runsAlike_evaluateFrom _ _ _ _ _).bind fun outcome => runsAlike_pure _

theorem runsAlike_groupFor :
    RunsAlike ((r.withPatterns c).groupFor d source q o) (r.groupFor d source q o) := by
  rw [Registry.groupFor_eq, Registry.groupFor_eq,
    show (r.withPatterns c).reusableGroup? d q o = r.reusableGroup? d q o from rfl]
  cases r.reusableGroup? d q o with
  | some known => exact runsAlike_pure _
  | none => exact (runsAlike_membersFor _).bind fun members => runsAlike_pure _

end Cached

/-! ### Actions -/

namespace Session

/-- An action on a registry. -/
inductive Action where
  /-- Evaluates a tree in a scope. -/
  | evaluate (x : Expr) (s : Scope)
  /-- Evaluates a tree on items one after the other. -/
  | evaluateOver (x : Expr) (kind : BlockKind) (policy : FailurePolicy) (items : List Item)
  | createAttribute (d : Dataset) (source : Definition) (o : CreateOptions)
  | createGroup (d : Dataset) (source : Definition) (o : CreateOptions)
  | eraseAttribute (name : String)
  | eraseGroup (name : String)
  | setModel (model? : Option String)
  | setEdit (rid : String)
  | setFrequencies (targetType : String) (table : Assoc String ℕ)

/-- What an action comes to. -/
inductive Answer where
  | value (v : Except EvalError Sourced)
  | outcome (o : Outcome)
  | attribute (a : Except AnalysisError Attribute)
  | group (g : Except AnalysisError Group)
  | done

end Session

namespace Registry

open Session (Action Answer)

/-- Performs an action. The patterns that it asked for are kept when it is over. -/
def perform (r : Registry) : Action → Answer × Registry
  | .evaluate x s => (.value (r.evaluate x s).result, r.remember (r.evaluate x s).asked)
  | .evaluateOver x kind policy items =>
    let run := r.evaluateOver x kind policy items
    (.outcome run.value, r.remember run.asked)
  | .createAttribute d source o =>
    match r.createAttribute d source o with
    | .ok (a, r) => (.attribute (.ok a), r)
    | .error e => (.attribute (.error e), r)
  | .createGroup d source o =>
    match r.createGroup d source o with
    | .ok (g, r) => (.group (.ok g), r)
    | .error e => (.group (.error e), r)
  | .eraseAttribute name => (.done, r.eraseAttribute name)
  | .eraseGroup name => (.done, r.eraseGroup name)
  | .setModel model? => (.done, r.setModel model?)
  | .setEdit rid => (.done, r.setEdit rid)
  | .setFrequencies targetType table => (.done, r.setFrequencies targetType table)

/-- Performs actions one after the other. -/
def performAll (r : Registry) : List Action → List Answer × Registry
  | [] => ([], r)
  | t :: ts =>
    let (answer, r) := r.perform t
    let (answers, r) := performAll r ts
    (answer :: answers, r)

end Registry

/-- A registry with a store of patterns beside it. -/
structure Session where
  registry : Registry
  ledger : PatternLedger := {}

namespace Session

/-- A session on a registry without blocks, with nothing in store. -/
def fresh (config : Config) : Session :=
  { registry := .ofConfig config }

/-- The session with nothing in store. -/
def emptied (s : Session) : Session :=
  { registry := s.registry }

/-- Performs an action. The patterns that it asks for are taken from the store, or put there. -/
def perform (s : Session) : Action → Answer × Session
  | .evaluate x scope =>
    let (v, ledger) := s.ledger.run (s.registry.evaluate x scope).run
    (.value v, { s with ledger })
  | .evaluateOver x kind policy items =>
    let (outcome, ledger) := s.ledger.run (s.registry.evaluateOver x kind policy items)
    (.outcome outcome, { s with ledger })
  | .createAttribute d source o =>
    match s.registry.attributeQuery source with
    | .error e => (.attribute (.error e), s)
    | .ok q =>
      let (a, ledger) := s.ledger.run (s.registry.attributeFor d source q o)
      (.attribute (.ok a),
        { registry := if o.save then s.registry.saveAttribute a else s.registry, ledger })
  | .createGroup d source o =>
    match s.registry.groupQuery source.cmd with
    | .error e => (.group (.error e), s)
    | .ok q =>
      let (g, ledger) := s.ledger.run (s.registry.groupFor d source q o)
      (.group (.ok g), { registry := if o.save then s.registry.saveGroup g else s.registry, ledger })
  | .eraseAttribute name => (.done, { s with registry := s.registry.eraseAttribute name })
  | .eraseGroup name => (.done, { s with registry := s.registry.eraseGroup name })
  | .setModel model? => (.done, { s with registry := s.registry.setModel model? })
  | .setEdit rid => (.done, { s with registry := s.registry.setEdit rid })
  | .setFrequencies targetType table =>
    (.done, { s with registry := s.registry.setFrequencies targetType table })

/-- Performs actions one after the other. -/
def performAll (s : Session) : List Action → List Answer × Session
  | [] => ([], s)
  | t :: ts =>
    let (answer, s) := s.perform t
    let (answers, s) := performAll s ts
    (answer :: answers, s)

/-- Performs actions one after the other, each with nothing in store. -/
def performAllAfresh (s : Session) : List Action → List Answer × Session
  | [] => ([], s)
  | t :: ts =>
    let (answer, s) := s.emptied.perform t
    let (answers, s) := performAllAfresh s ts
    (answer :: answers, s)

/-! ### Sessions and registries -/

end Session

/-- Compiling a command has nothing to do with patterns. -/
theorem Registry.compile_withPatterns {r : Registry} {c : PatternCache} (cmd : String) :
    (r.withPatterns c).compile cmd = r.compile cmd := by
  rw [Registry.compile, Registry.compile]
  cases Query.parse cmd with
  | error e => rfl
  | ok root =>
      have hkeeps : r.Keeps (r.withPatterns c) root := ⟨rfl, fun _ _ => rfl, fun _ _ => rfl⟩
      dsimp only
      rw [hkeeps.dependencies]

theorem Registry.attributeQuery_withPatterns {r : Registry} {c : PatternCache} (source : Definition) :
    (r.withPatterns c).attributeQuery source = r.attributeQuery source := by
  rw [Registry.attributeQuery, Registry.attributeQuery, Registry.compile_withPatterns]

theorem Registry.groupQuery_withPatterns {r : Registry} {c : PatternCache} (cmd : String) :
    (r.withPatterns c).groupQuery cmd = r.groupQuery cmd := by
  rw [Registry.groupQuery, Registry.groupQuery, Registry.compile_withPatterns]

namespace Session

variable {s s' : Session} {r : Registry}

/-- The session has the same blocks and surroundings as the registry, a sound store, and the patterns in it
that the registry keeps. -/
structure Mirrors (s : Session) (r : Registry) : Prop where
  sound : s.ledger.IsSound
  registry : r = s.registry.withPatterns r.ambient.patterns
  entries : r.ambient.patterns.entries = s.ledger.entries

theorem mirrors_fresh (config : Config) : (fresh config).Mirrors (.ofConfig config) where
  sound := PatternLedger.isSound_empty
  registry := (Registry.withPatterns_self _).symm
  entries := rfl

/-- A change that has nothing to do with patterns. -/
theorem Mirrors.change (h : s.Mirrors r) {f : Registry → Registry}
    (hf : ∀ r c, f (r.withPatterns c) = (f r).withPatterns c) :
    Mirrors { s with registry := f s.registry } (f r) := by
  have hpatterns : (f r).ambient.patterns = r.ambient.patterns := by
    conv_lhs => rw [← r.withPatterns_self, hf]
    rfl
  refine ⟨h.sound, ?_, ?_⟩
  · rw [hpatterns, ← hf, ← h.registry]
  · rw [hpatterns]
    exact h.entries

/-- What was asked for is in store at once, and kept by the registry afterwards. -/
theorem Mirrors.remember (h : s.Mirrors r) {α : Type} {x : Traced α} {y : Cached α}
    (hxy : RunsAlike x y) : Mirrors { s with ledger := (s.ledger.run y).2 } (r.remember x.asked) := by
  obtain ⟨-, hsound, hrequests⟩ := hxy s.ledger h.sound
  refine ⟨hsound, ?_, ?_⟩
  · conv_lhs => rw [h.registry]
    rfl
  · have hstore : PatternLedger.IsSound ⟨r.ambient.patterns.entries, s.ledger.requests⟩ := by
      rw [h.entries]
      exact h.sound
    exact hsound.entries_eq (hstore.rememberAll x.asked) hrequests.symm

/-- **An action on a session comes to what it comes to on the registry,** and what was asked for before stays
in the store's record. -/
theorem Mirrors.perform (h : s.Mirrors r) (t : Action) :
    (r.perform t).1 = (s.perform t).1 ∧ (s.perform t).2.Mirrors (r.perform t).2 ∧
      s.ledger.requests <+: (s.perform t).2.ledger.requests := by
  have hprefix {α : Type} {x : Traced α} {y : Cached α} (hxy : RunsAlike x y) :
      s.ledger.requests <+: (s.ledger.run y).2.requests :=
    ⟨x.asked, (hxy s.ledger h.sound).2.2.symm⟩
  cases t with
  | evaluate x scope =>
      have hxy : Follows (r.evaluate x scope) (s.registry.evaluate x scope) :=
        h.registry ▸ Cached.follows_evaluate x scope
      exact ⟨congrArg Answer.value (hxy s.ledger h.sound).1.symm, h.remember hxy, hprefix hxy⟩
  | evaluateOver x kind policy items =>
      have hxy : RunsAlike (r.evaluateOver x kind policy items)
          (s.registry.evaluateOver x kind policy items) :=
        h.registry ▸ Cached.runsAlike_evaluateFrom x kind policy {} items
      exact ⟨congrArg Answer.outcome (hxy s.ledger h.sound).1.symm, h.remember hxy, hprefix hxy⟩
  | createAttribute d source o =>
      have hquery : r.attributeQuery source = s.registry.attributeQuery source :=
        h.registry ▸ Registry.attributeQuery_withPatterns source
      rw [Registry.perform, Session.perform, Registry.createAttribute, hquery]
      cases s.registry.attributeQuery source with
      | error e => exact ⟨rfl, h, List.prefix_refl _⟩
      | ok q =>
          have hxy : RunsAlike (r.attributeFor d source q o) (s.registry.attributeFor d source q o) :=
            h.registry ▸ Cached.runsAlike_attributeFor
          have hmade := (hxy s.ledger h.sound).1
          refine ⟨congrArg (Answer.attribute ∘ .ok) hmade.symm, ?_, hprefix hxy⟩
          dsimp only
          rw [hmade]
          exact (h.remember hxy).change
            (f := fun r' => if o.save then r'.saveAttribute (r.attributeFor d source q o).value else r')
            fun _ _ => by cases o.save <;> rfl
  | createGroup d source o =>
      have hquery : r.groupQuery source.cmd = s.registry.groupQuery source.cmd :=
        h.registry ▸ Registry.groupQuery_withPatterns source.cmd
      rw [Registry.perform, Session.perform, Registry.createGroup, hquery]
      cases s.registry.groupQuery source.cmd with
      | error e => exact ⟨rfl, h, List.prefix_refl _⟩
      | ok q =>
          have hxy : RunsAlike (r.groupFor d source q o) (s.registry.groupFor d source q o) :=
            h.registry ▸ Cached.runsAlike_groupFor
          have hmade := (hxy s.ledger h.sound).1
          refine ⟨congrArg (Answer.group ∘ .ok) hmade.symm, ?_, hprefix hxy⟩
          dsimp only
          rw [hmade]
          exact (h.remember hxy).change
            (f := fun r' => if o.save then r'.saveGroup (r.groupFor d source q o).value else r')
            fun _ _ => by cases o.save <;> rfl
  | eraseAttribute name =>
      exact ⟨rfl, h.change (f := (·.eraseAttribute name)) fun _ _ => rfl, List.prefix_refl _⟩
  | eraseGroup name =>
      exact ⟨rfl, h.change (f := (·.eraseGroup name)) fun _ _ => rfl, List.prefix_refl _⟩
  | setModel model? => exact ⟨rfl, h.change (f := (·.setModel model?)) fun _ _ => rfl, List.prefix_refl _⟩
  | setEdit rid => exact ⟨rfl, h.change (f := (·.setEdit rid)) fun _ _ => rfl, List.prefix_refl _⟩
  | setFrequencies targetType table =>
      exact ⟨rfl, h.change (f := (·.setFrequencies targetType table)) fun _ _ => rfl,
        List.prefix_refl _⟩

/-- **A run of actions on a session comes to what it comes to on the registry.** -/
theorem Mirrors.performAll (h : s.Mirrors r) (actions : List Action) :
    (r.performAll actions).1 = (s.performAll actions).1 ∧
      (s.performAll actions).2.Mirrors (r.performAll actions).2 ∧
      s.ledger.requests <+: (s.performAll actions).2.ledger.requests := by
  induction actions generalizing s r with
  | nil => exact ⟨rfl, h, List.prefix_refl _⟩
  | cons t actions ih =>
      obtain ⟨hanswer, hmirrors, hprefix⟩ := h.perform t
      obtain ⟨hanswers, hend, hprefix'⟩ := ih hmirrors
      exact ⟨congrArg₂ List.cons hanswer hanswers, hend, hprefix.trans hprefix'⟩

/-! ### An empty store -/

/-- An action leads to the same answer, and to the same blocks, whatever is in store. -/
theorem perform_emptied (hs : s.ledger.IsSound) (t : Action) :
    (s.emptied.perform t).1 = (s.perform t).1 ∧
      (s.emptied.perform t).2.registry = (s.perform t).2.registry := by
  have hrun {α : Type} {x : Traced α} {y : Cached α} (hxy : RunsAlike x y) :
      (s.emptied.ledger.run y).1 = (s.ledger.run y).1 :=
    hxy.run_eq hs PatternLedger.isSound_empty
  cases t with
  | evaluate x scope =>
      exact ⟨congrArg Answer.value (hrun (Cached.follows_evaluate (c := {}) x scope)), rfl⟩
  | evaluateOver x kind policy items =>
      have hxy := Cached.runsAlike_evaluateFrom (r := s.registry) (c := {}) x kind policy {} items
      exact ⟨congrArg Answer.outcome (hrun hxy), rfl⟩
  | createAttribute d source o =>
      rw [Session.perform, Session.perform, show s.emptied.registry = s.registry from rfl]
      cases s.registry.attributeQuery source with
      | error e => exact ⟨rfl, rfl⟩
      | ok q =>
          have hxy : RunsAlike ((s.registry.withPatterns {}).attributeFor d source q o)
              (s.registry.attributeFor d source q o) := Cached.runsAlike_attributeFor
          have hmade := hrun hxy
          refine ⟨congrArg (Answer.attribute ∘ .ok) hmade, ?_⟩
          dsimp only
          rw [hmade]
  | createGroup d source o =>
      rw [Session.perform, Session.perform, show s.emptied.registry = s.registry from rfl]
      cases s.registry.groupQuery source.cmd with
      | error e => exact ⟨rfl, rfl⟩
      | ok q =>
          have hxy : RunsAlike ((s.registry.withPatterns {}).groupFor d source q o)
              (s.registry.groupFor d source q o) := Cached.runsAlike_groupFor
          have hmade := hrun hxy
          refine ⟨congrArg (Answer.group ∘ .ok) hmade, ?_⟩
          dsimp only
          rw [hmade]
  | eraseAttribute | eraseGroup | setModel | setEdit | setFrequencies => exact ⟨rfl, rfl⟩

/-- A run of actions yields the same answers if each of them finds the store empty. -/
theorem performAllAfresh_eq (hs : s.Mirrors r) (hregistry : s'.registry = s.registry)
    (actions : List Action) : (s'.performAllAfresh actions).1 = (s.performAll actions).1 := by
  induction actions generalizing s s' r with
  | nil => rfl
  | cons t actions ih =>
      have hemptied : s'.emptied = s.emptied := congrArg (Session.mk · {}) hregistry
      obtain ⟨hanswer, hblocks⟩ := perform_emptied hs.sound t
      rw [performAllAfresh, performAll, hemptied]
      exact congrArg₂ List.cons hanswer (ih (hs.perform t).2.1 hblocks)

/-- **The store is transparent.** After any actions on a fresh registry, also such as have failed, a text is
found in store if and only if it was asked for and has a pattern, and then its pattern is found. So the keys
are the texts that were asked for and have a pattern, each of them once. Whatever actions follow, what is in
store stays there as it is. Every action has come to what it would have come to with nothing in store, and to
what it comes to on a registry that keeps patterns when an action is over; and that registry has kept the same
ones. -/
theorem cache_isTransparent (config : Config) (actions later : List Action) :
    let run := (fresh config).performAll actions
    let store := run.2.ledger
    (∀ source p, Assoc.find? store.entries source = some p ↔
      source ∈ store.requests ∧ Pattern.compile source = .ok p) ∧
    Assoc.keys store.entries =
      SortedSet.ofList (store.requests.filter fun source => (Pattern.compile source).isOk) ∧
    (∀ source p, Assoc.find? store.entries source = some p →
      Assoc.find? (run.2.performAll later).2.ledger.entries source = some p) ∧
    run.1 = ((fresh config).performAllAfresh actions).1 ∧
    run.1 = ((Registry.ofConfig config).performAll actions).1 ∧
    ((Registry.ofConfig config).performAll actions).2.ambient.patterns.entries = store.entries := by
  intro run store
  have hfresh := mirrors_fresh config
  obtain ⟨hanswers, hmirrors, -⟩ := hfresh.performAll actions
  obtain ⟨-, hlater, hprefix⟩ := hmirrors.performAll later
  have hafresh := performAllAfresh_eq hfresh rfl actions
  refine ⟨hmirrors.sound.find?_eq_some, hmirrors.sound.keys_eq, fun source p hfind => ?_, hafresh.symm,
    hanswers.symm, hmirrors.entries⟩
  exact hmirrors.sound.find?_of_prefix hlater.sound hprefix hfind

end Session

end ErrorAnalysis
