import ErrorAnalysis.Proofs.Blocks.Histories
import ErrorAnalysis.Proofs.Evaluation.Depth

/-!
# Evaluation and Unrelated Blocks

Evaluation depends on the blocks that a tree reaches, and on no others. Attributes that refer to each
other in a cycle are no exception: two registries that agree on what is reached yield the same at every
depth. The depth that a registry allows depends on the number of its attributes, reached or not, but
where evaluation finishes in one of the two it does in the other, with the same value and the same
sources, or with the same error.

## Main definitions

* `Registry.AgreesOn`: two registries agree on what a tree reaches.
* `Registry.EvaluatesAlike`: a tree is evaluated alike in a scope.
* `Registry.ChangesElsewhere`: a change of a block that a tree does not reach.

## Main results

* `Registry.AgreesOn.evaluateAt_eq`: at every depth, evaluation depends on the blocks that are reached.
* `Registry.evaluatesAlike`: **evaluation depends on the blocks that are reached,** and no change of
  others has an effect on it.
-/

namespace ErrorAnalysis

namespace Registry

variable {r r' r'' : Registry} {x : Expr} {s : Scope} {name : String} {a : Attribute}

/-! ### Agreement on what is reached -/

/-- Two registries are alike and have the same attributes and groups where a tree reaches them. -/
structure AgreesOn (r r' : Registry) (x : Expr) : Prop where
  alike : r.Alike r'
  attributes : ∀ name, r.Reaches x name →
    Assoc.find? r'.attributes name = Assoc.find? r.attributes name
  groups : ∀ name, r.ReachesGroup x name → Assoc.find? r'.groups name = Assoc.find? r.groups name

/-- They agree on what the tree of an attribute reaches that is reached itself. -/
theorem AgreesOn.attribute (h : r.AgreesOn r' x) (hname : r.Reaches x name)
    (hfind : Assoc.find? r.attributes name = some a) : r.AgreesOn r' a.query.root where
  alike := h.alike
  attributes other hother := h.attributes other (hname.trans hfind hother)
  groups group hgroup := h.groups group (hgroup.attribute hname hfind)

/-- What is reached in the second one is reached in the first one. -/
theorem AgreesOn.reaches (h : r.AgreesOn r' x) (hname : r'.Reaches x name) : r.Reaches x name := by
  obtain ⟨first, hfirst, hsteps⟩ := hname
  induction hsteps with
  | refl => exact reaches_of_mem hfirst
  | tail _ hstep ih =>
      obtain ⟨a, hfind, hmem⟩ := hstep
      rw [h.attributes _ ih] at hfind
      exact ih.trans hfind (reaches_of_mem hmem)

/-- A tree has the same value if the attributes that it reaches are expanded alike. -/
theorem AgreesOn.evaluateWith_eq (h : r.AgreesOn r' x) {expand expand' : Expansion Traced}
    (hexpand : ∀ name a, r.Reaches x name → Assoc.find? r.attributes name = some a →
      ∀ s, expand' name a.query.root s = expand name a.query.root s) (s : Scope) :
    r'.evaluateWith expand' x s = r.evaluateWith expand x s := by
  refine evaluateWith_congr h.alike (fun ⟨kind, name⟩ hb s => block_congr ?_ ?_ ?_) s
  · rintro rfl
    exact h.attributes name (reaches_of_mem hb)
  · rintro rfl
    exact h.groups name (.inl hb)
  · rintro a i rfl hfind
    exact hexpand name a (reaches_of_mem hb) hfind _

/-- **At every depth, evaluation depends on the blocks that are reached.** -/
theorem AgreesOn.evaluateAt_eq (h : r.AgreesOn r' x) (depth : ℕ) (s : Scope) :
    r'.evaluateAt depth x s = r.evaluateAt depth x s := by
  induction depth generalizing x s with
  | zero =>
      rw [evaluateAt_eq, evaluateAt_eq]
      exact h.evaluateWith_eq (fun _ _ _ _ _ => rfl) s
  | succ depth ih =>
      rw [evaluateAt_eq, evaluateAt_eq]
      exact h.evaluateWith_eq (fun _ _ hname hfind s => ih (h.attribute hname hfind) s) s

/-! ### The same evaluation -/

/-- A tree is evaluated alike in a scope: the same at every depth, and the same if it finishes, which it
does in both registries or in none. -/
structure EvaluatesAlike (r r' : Registry) (x : Expr) (s : Scope) : Prop where
  atDepth : ∀ depth, r'.evaluateAt depth x s = r.evaluateAt depth x s
  finishes : (r'.evaluate x s).finishes = (r.evaluate x s).finishes
  evaluate : (r.evaluate x s).finishes = true → r'.evaluate x s = r.evaluate x s

/-- What is the same at every depth is the same if it finishes. -/
theorem evaluate_eq_of_forall_depth
    (h : ∀ depth, r'.evaluateAt depth x s = r.evaluateAt depth x s)
    (hfinishes : (r.evaluate x s).finishes = true) : r'.evaluate x s = r.evaluate x s := by
  have hdepth : r'.evaluateAt r.maxDepth x s = r.evaluate x s := h r.maxDepth
  have hfinishes' : (r'.evaluateAt r.maxDepth x s).finishes = true := by rw [hdepth, hfinishes]
  exact (evaluate_eq_of_finishes hfinishes').trans hdepth

theorem evaluatesAlike_of_forall_depth
    (h : ∀ depth, r'.evaluateAt depth x s = r.evaluateAt depth x s) : r.EvaluatesAlike r' x s where
  atDepth := h
  finishes := by
    refine Bool.eq_iff_iff.mpr ⟨fun hfinishes => ?_, fun hfinishes => ?_⟩
    · rwa [evaluate_eq_of_forall_depth (fun depth => (h depth).symm) hfinishes]
    · rwa [evaluate_eq_of_forall_depth h hfinishes]
  evaluate := evaluate_eq_of_forall_depth h

theorem EvaluatesAlike.trans (h : r.EvaluatesAlike r' x s) (h' : r'.EvaluatesAlike r'' x s) :
    r.EvaluatesAlike r'' x s :=
  evaluatesAlike_of_forall_depth fun depth => (h'.atDepth depth).trans (h.atDepth depth)

/-! ### Changes elsewhere -/

/-- A block that a tree does not reach is saved, in place of the one with its name if there is one, or
taken out, or patterns are kept. -/
inductive ChangesElsewhere (x : Expr) : Registry → Registry → Prop
  | saveAttribute {r : Registry} {a : Attribute} (h : ¬ r.Reaches x a.name) :
      ChangesElsewhere x r (r.saveAttribute a)
  | saveGroup {r : Registry} {g : Group} (h : ¬ r.ReachesGroup x g.name) :
      ChangesElsewhere x r (r.saveGroup g)
  | eraseAttribute {r : Registry} {name : String} (h : ¬ r.Reaches x name) :
      ChangesElsewhere x r (r.eraseAttribute name)
  | eraseGroup {r : Registry} {name : String} (h : ¬ r.ReachesGroup x name) :
      ChangesElsewhere x r (r.eraseGroup name)
  | remember (r : Registry) (sources : List String) : ChangesElsewhere x r (r.remember sources)

/-- After a change elsewhere, registries agree on what is reached. -/
theorem ChangesElsewhere.agreesOn (h : ChangesElsewhere x r r') : r.AgreesOn r' x := by
  have hne {p : String → Prop} {name other : String} (hother : p other) (hname : ¬ p name) :
      other ≠ name := fun heq => hname (heq ▸ hother)
  cases h with
  | saveAttribute hnot =>
      exact ⟨⟨rfl, rfl⟩, fun _ hreach => Assoc.find?_insert_of_ne (hne hreach hnot), fun _ _ => rfl⟩
  | saveGroup hnot =>
      exact ⟨⟨rfl, rfl⟩, fun _ _ => rfl, fun _ hreach => Assoc.find?_insert_of_ne (hne hreach hnot)⟩
  | eraseAttribute hnot =>
      exact ⟨⟨rfl, rfl⟩, fun _ hreach => Assoc.find?_erase_of_ne (hne hreach hnot), fun _ _ => rfl⟩
  | eraseGroup hnot =>
      exact ⟨⟨rfl, rfl⟩, fun _ _ => rfl, fun _ hreach => Assoc.find?_erase_of_ne (hne hreach hnot)⟩
  | remember sources => exact ⟨alike_remember r sources, fun _ _ => rfl, fun _ _ => rfl⟩

/-- **Evaluation depends on the blocks that are reached.** Two registries that agree on them evaluate a
tree alike on every item, at every edit. So no sequence of changes of other blocks has an effect on it,
whatever it saves, replaces or takes out. -/
theorem evaluatesAlike (x : Expr) :
    (∀ r r' : Registry, r.AgreesOn r' x → ∀ s, r.EvaluatesAlike r' x s) ∧
      ∀ r r' : Registry, Relation.ReflTransGen (ChangesElsewhere x) r r' →
        ∀ s, r.EvaluatesAlike r' x s := by
  have hagree (r r' : Registry) (h : r.AgreesOn r' x) (s : Scope) : r.EvaluatesAlike r' x s :=
    evaluatesAlike_of_forall_depth fun depth => h.evaluateAt_eq depth s
  refine ⟨hagree, fun r r' hsteps s => ?_⟩
  induction hsteps with
  | refl => exact evaluatesAlike_of_forall_depth fun _ => rfl
  | tail _ hstep ih => exact ih.trans (hagree _ _ hstep.agreesOn s)

/-! ### An unrelated cycle -/

/-- An attribute that refers to itself. -/
def selfish : Attribute :=
  { countAttribute with name := "selfish", query := ⟨"attr:selfish", .block .attr "selfish", {}⟩ }

/-- Saving an attribute that refers to itself changes no value of the count, and nor does taking it out
again. -/
theorem evaluatesAlike_selfish :
    let x : Expr := .block .attr "count"
    let r := countRegistry.saveAttribute selfish
    (∀ s, countRegistry.EvaluatesAlike r x s) ∧
      (∀ s, countRegistry.EvaluatesAlike (r.eraseAttribute "selfish") x s) ∧
      ∀ item ∈ countedQuestions.allItems,
        (countRegistry.evaluate x ⟨item, Instance.noEdit⟩).finishes = true ∧
          (r.evaluate (.block .attr "selfish") ⟨item, Instance.noEdit⟩).finishes = false := by
  intro x r
  have hnot : ¬ countRegistry.Reaches x "selfish" := fun hreach => by
    have hname := eq_count_of_reaches rfl hreach
    exact absurd hname (by decide)
  have hsave : ChangesElsewhere x countRegistry r := .saveAttribute hnot
  have herase : ChangesElsewhere x r (r.eraseAttribute "selfish") :=
    .eraseAttribute fun hreach => hnot (hsave.agreesOn.reaches hreach)
  have hsteps : Relation.ReflTransGen (ChangesElsewhere x) countRegistry r := .single hsave
  obtain ⟨hagree, hchanges⟩ := evaluatesAlike x
  exact ⟨hagree _ _ hsave.agreesOn, hchanges _ _ (hsteps.tail herase), by decide +kernel⟩

end Registry

end ErrorAnalysis
