import ErrorAnalysis.Proofs.Blocks.Making
import ErrorAnalysis.Proofs.Evaluation.Batch
import ErrorAnalysis.Proofs.Evaluation.References
import ErrorAnalysis.Proofs.Printing.Text

/-!
# Recorded Values

An attribute records the results of its query, and a reference to it takes what is recorded for the
variant in question. Where nothing is recorded the query is evaluated again. This module shows that
the two ways agree: after an attribute was made, referring to it means the same as writing out its
query.

## Main results

* `Registry.evaluate_attr`: the value of an attribute, recorded or not.
* `Registry.valueOn_attr_of_createAttribute`: **referring to an attribute that was made and
  evaluating its query yield the same.**
-/

namespace ErrorAnalysis

namespace Registry

variable {r r' : Registry} {d : Dataset} {source : Definition} {o : CreateOptions} {a : Attribute}

/-! ### Referring to attributes -/

/-- The value of an attribute: what is recorded for the variant in question, or else the value of
its tree there. -/
theorem evaluate_attr {name : String} {s : Scope} {i : Instance}
    (hfind : Assoc.find? r.attributes name = some a) (hi : s.instance? = some i) :
    r.evaluate (.block .attr name) s =
      match Assoc.find? a.values i.key with
      | some v => pure (.ofInstance i v)
      | none =>
        r.evaluateAt (r.maxDepth - 1) a.query.root { s with edit := i.rid } >>=
          fun v => pure (.ofInstance i v.value) := by
  have hpos : 0 < r.attributes.length := List.length_pos_of_mem (Assoc.mem_of_find? hfind)
  obtain ⟨depth, hdepth⟩ : ∃ depth, r.maxDepth = depth + 1 :=
    ⟨r.maxDepth - 1, by rw [maxDepth]; omega⟩
  rw [evaluate, hdepth, Nat.add_sub_cancel, evaluateAt, evaluateWith, block, hfind]
  cases hrecorded : Assoc.find? a.values i.key with
  | some v => simp only [hi, hrecorded]
  | none => simp only [hi, hrecorded]

/-- **Referring to an attribute and evaluating its query yield the same,** the same value or the
same error, on every item whose unedited variant says that it is one. The attribute was made from its
query over a dataset in order, by any policy, and saved; its query reaches neither the attribute
itself nor one that refers to itself. -/
theorem valueOn_attr_of_createAttribute (hd : d.IsFiled)
    (hmade : r.createAttribute d source o = .ok (a, r')) (hsave : o.save = true)
    (hfresh : r.reusable? d a.query o = none)
    (hacyclic : r.IsAcyclic a.query.root) (hself : ¬ r.Reaches a.query.root source.name)
    {item : Item} (hitem : item ∈ d.allItems) {i : Instance} (hi : item.unedited? = some i)
    (hrid : i.rid = Instance.noEdit) :
    (r'.valueOn (.block .attr source.name) item).result =
      (r'.valueOn a.query.root item).result := by
  obtain ⟨q, -, hvalue, hregistry⟩ := createAttribute_eq_ok hmade
  have hquery : a.query = q := by rw [hvalue, query_attributeFor]
  have hname : a.name = source.name := by rw [hvalue, name_attributeFor]
  rw [if_pos hsave] at hregistry
  rw [← hname] at hself ⊢
  have hfind : Assoc.find? r'.attributes a.name = some a := by
    rw [hregistry, find?_saveAttribute_self]
  have hlength : r.attributes.length ≤ r'.attributes.length := by
    rw [hregistry]
    exact length_le_length_saveAttribute
  have hpos : 0 < r'.attributes.length := List.length_pos_of_mem (Assoc.mem_of_find? hfind)
  -- The query does not reach the new attribute, so it has the value that it had before.
  have heval {m : ℕ} (hm : r.attributes.length ≤ m) (s : Scope) :
      r'.evaluateAt m a.query.root s = r.evaluate a.query.root s := by
    rw [hregistry]
    exact evaluateAt_saveAttribute hacyclic hself _ hm s
  have hdirect : r'.evaluate a.query.root ⟨item, Instance.noEdit⟩ =
      r.evaluate a.query.root ⟨item, Instance.noEdit⟩ :=
    heval (by rw [maxDepth]; omega) _
  have hexpanded : r'.evaluateAt (r'.maxDepth - 1) a.query.root ⟨item, Instance.noEdit⟩ =
      r.evaluate a.query.root ⟨item, Instance.noEdit⟩ :=
    heval (by rw [maxDepth]; omega) _
  have hkey : i.key = item.uneditedKey := (hd.item_of_mem hitem).key_of_variant? hi
  rw [← Scope.instance?_noEdit] at hi
  rw [result_valueOn, result_valueOn, hdirect, evaluate_attr hfind hi, hkey, hrid]
  cases hrecorded : Assoc.find? a.values item.uneditedKey with
  | some v =>
      rw [hvalue, values_attributeFor (hquery ▸ hfresh), ← hquery] at hrecorded
      rw [result_of_find?_evaluateOver hd (fun _ => CreateOptions.mem_sample) hitem hrecorded]
      rfl
  | none =>
      dsimp only
      rw [hexpanded, Eval.result_bind]
      cases (r.evaluate a.query.root ⟨item, Instance.noEdit⟩).result <;> rfl

/-! ### A reference between attributes -/

/-- A count with its sign changed. -/
def negatedCount : Expr :=
  .unary .neg (.block .attr "count")

/-- What an attribute for the negated count is made from. -/
def negation : Definition where
  name := "negated"
  cmd := "-attr:count"

/-- The negated count is the same by reference to an attribute for it on both questions, although
the attribute records it for the first one only. -/
theorem valueOn_attr_negatedCount :
    ∃ a r', countRegistry.createAttribute countedQuestions negation {} = .ok (a, r') ∧
      Assoc.keys a.values = [⟨"q1", 0⟩] ∧
      ∀ item ∈ countedQuestions.allItems,
        (r'.valueOn (.block .attr negation.name) item).result =
          (r'.valueOn a.query.root item).result := by
  have hparse : Query.parse "-attr:count" = .ok negatedCount :=
    Expr.parse_of_text_eq (by decide +kernel) (by decide) (by decide) (by decide)
  have hcompile : countRegistry.compile "-attr:count" = .ok ⟨"-attr:count", negatedCount, {}⟩ := by
    rw [compile, hparse]
    rfl
  have hmade := @createAttribute_of_compile countRegistry countedQuestions negation {} _ (by decide)
    hcompile
  have hunedited : ∀ item ∈ countedQuestions.allItems,
      ∃ i, item.unedited? = some i ∧ i.rid = Instance.noEdit := by
    have hitems : countedQuestions.allItems = [⟨"q1", _⟩, ⟨"q2", _⟩] := rfl
    rw [hitems]
    simp only [List.forall_mem_cons]
    exact ⟨⟨_, rfl, rfl⟩, ⟨_, rfl, rfl⟩, by simp⟩
  refine ⟨_, _, hmade, rfl, fun item hitem => ?_⟩
  obtain ⟨i, hi, hrid⟩ := hunedited item hitem
  refine valueOn_attr_of_createAttribute (Dataset.isFiled_ofInstances _) hmade rfl ?_ ?_ ?_
    hitem hi hrid <;> rw [query_attributeFor]
  · rfl
  · intro name hreach hcycle
    obtain rfl := eq_count_of_reaches rfl hreach
    obtain ⟨next, hnext, -⟩ := Relation.TransGen.head'_iff.mp hcycle
    exact not_refers_countAttribute next hnext
  · intro hreach
    exact absurd (eq_count_of_reaches rfl hreach) (by decide)

end Registry

end ErrorAnalysis
