import ErrorAnalysis.Block.Group
import ErrorAnalysis.Proofs.Blocks.Building

/-!
# Membership in Groups

A query that asks whether an instance belongs to a group goes through the list of the members and
compares keys. What it answers is what the group says of the key, and the group says it because its own
query was true of the item when the group was made. The answer is true of the unedited variant if the
query was true, unless the only source of the result was an edited variant: the result was recorded
under the key of that variant then.

## Main definitions

* `Expr.memberOf`: the query that asks for membership.

## Main results

* `Registry.evaluate_memberOf`: **a query for membership says what the group says.**
* `Registry.hasMember_computeGroup_iff`: a computed group has the keys under which its query was true.
* `Registry.memberOf_iff_of_createGroup`: **membership means what the query of the group means.**
-/

namespace ErrorAnalysis

/-! ### Keys in a list of members -/

/-- A key is in the list of the members of a group iff it is a member. -/
theorem Group.contains_members (g : Group) (k : InstanceKey) :
    Value.contains (.list (g.members.map .key)) (.key k) = .ok (g.hasMember k) := by
  have hany : (g.members.map Value.key).any (· == .key k) = true ↔ g.hasMember k = true := by
    rw [hasMember, SortedSet.has_eq_true_iff, List.any_eq_true]
    constructor
    · rintro ⟨v, hv, heq⟩
      obtain ⟨k', hk', rfl⟩ := List.mem_map.mp hv
      have hkey : Value.beq (.key k') (.key k) = true := heq
      rw [Value.beq] at hkey
      rwa [← eq_of_beq hkey]
    · intro hk
      have hself : Value.beq (.key k) (.key k) = true := by rw [Value.beq, beq_self_eq_true]
      exact ⟨.key k, List.mem_map_of_mem hk, hself⟩
  rw [Value.contains, Bool.eq_iff_iff.mpr hany]

/-! ### The query for membership -/

/-- The query that asks whether the variant in question belongs to a group. -/
def Expr.memberOf (name : String) : Expr :=
  .binary .in (.ident "instance") (.block .group name)

/-- How the query for membership is written. -/
theorem Expr.parse_memberOf {name : String} (h : isName name = true) :
    Query.parse ("instance in group:" ++ name) = .ok (memberOf name) := by
  refine parse_of_text_eq ?_ ?_ rfl rfl
  · rw [memberOf, text, text, text]
    rfl
  · exact every_binary.mpr ⟨rfl, by decide +kernel, h⟩

namespace Registry

variable {r r' : Registry} {d : Dataset} {source : Definition} {q : Query.Compiled}
  {o : CreateOptions} {g : Group} {items : List Item} {item : Item}

/-- **A query for membership says what the group says of the variant in question.** -/
theorem evaluate_memberOf {name : String} (hfind : Assoc.find? r.groups name = some g) {s : Scope}
    {i : Instance} (hi : s.instance? = some i) :
    r.evaluate (.memberOf name) s = pure (.ofInstance i (.bool (g.hasMember i.key))) := by
  have hunion : SortedSet.union [i.key] [i.key] = [i.key] := by
    rw [SortedSet.union, List.foldl_cons, List.foldl_nil, SortedSet.insert, Std.ReflOrd.compare_self]
  have hident : r.identifier "instance" s = .ofInstance i (.key i.key) := by
    rw [identifier, hi]
    rfl
  rw [evaluate, evaluateAt_eq, Expr.memberOf]
  simp only [evaluateWith, block, hfind, hi, hident, pure_bind, Sourced.ofInstance, Value.applyBinary,
    g.contains_members, hunion]
  rfl

/-! ### Computed groups -/

/-- A result is recorded under the key of the unedited variant, unless an edited variant is its only
source. -/
theorem recordKey_eq_uneditedKey_iff {x : Expr} {v : Sourced} (hitem : item.OwnsVariants)
    (h : (r.evaluate x ⟨item, Instance.noEdit⟩).result = .ok v) :
    v.recordKey item.qid = item.uneditedKey ↔ ¬ ∃ k, v.sources = [k] ∧ k.isUnedited = false := by
  rw [Sourced.recordKey]
  split
  · next k hsources =>
      have hqid : k.qid = item.qid := hitem k (mem_keys_of_evaluate h (by simp [hsources]))
      constructor
      · rintro rfl ⟨k', hk', hedited⟩
        obtain rfl := List.singleton_inj.mp (hsources.symm.trans hk')
        cases hedited
      · intro hnot
        have hunedited : k.isUnedited = true := by
          by_contra hedited
          exact hnot ⟨k, hsources, Bool.eq_false_iff.mpr hedited⟩
        have hvid : k.vid = 0 := eq_of_beq hunedited
        rw [Item.uneditedKey, InstanceKey.unedited, ← hqid, ← hvid]
  · next hmany =>
      refine iff_of_true rfl ?_
      rintro ⟨k, hk, -⟩
      exact hmany k hk

/-- **A computed group has the keys under which its query was true,** unless its run was ended early. -/
theorem hasMember_computeGroup_iff (hd : d.IsFiled) (hitems : ∀ item ∈ items, item ∈ d.allItems)
    (hnoOp : q.root.isNoOp = false) {size : ℕ} {k : InstanceKey} :
    (r.computeGroup source q size items).hasMember k = true ↔
      r.Completes q.root r.config.failurePolicy items ∧
        ∃ item ∈ items, r.Yields q.root item (k, .bool true) := by
  rw [Group.hasMember, SortedSet.has_eq_true_iff, members_computeGroup r source size items hnoOp,
    Assoc.keys, List.mem_map]
  constructor
  · rintro ⟨e, he, rfl⟩
    obtain ⟨hcompletes, hkeeps, hyields⟩ := (mem_evaluateOver_iff hd hitems).mp he
    rw [← BlockKind.eq_true_of_keeps hkeeps]
    exact ⟨hcompletes, hyields⟩
  · rintro ⟨hcompletes, hyields⟩
    have hkeeps : BlockKind.group.keeps (.bool true) = true := by decide +kernel
    exact ⟨(k, .bool true), (mem_evaluateOver_iff hd hitems).mpr ⟨hcompletes, hkeeps, hyields⟩, rfl⟩

/-- A computed group has the unedited variant of an item iff its query was true of the item, with
another provenance than one edited variant alone. -/
theorem hasMember_uneditedKey_iff (hd : d.IsFiled) (hitems : ∀ item ∈ items, item ∈ d.allItems)
    (hnoOp : q.root.isNoOp = false)
    (hcompletes : r.Completes q.root r.config.failurePolicy items) {size : ℕ} (hitem : item ∈ items) :
    (r.computeGroup source q size items).hasMember item.uneditedKey = true ↔
      ∃ v, (r.evaluate q.root ⟨item, Instance.noEdit⟩).result = .ok v ∧ v.value = .bool true ∧
        ¬ ∃ k, v.sources = [k] ∧ k.isUnedited = false := by
  rw [hasMember_computeGroup_iff hd hitems hnoOp, and_iff_right hcompletes]
  have howns := (hd.item_of_mem (hitems item hitem)).ownsVariants
  constructor
  · rintro ⟨item', hitem', v, hv, heq⟩
    obtain ⟨hkey, hvalue⟩ := Prod.mk.inj heq
    have hqid := qid_recordKey (hd.item_of_mem (hitems item' hitem')).ownsVariants hv
    rw [← hkey] at hqid
    obtain rfl := hd.eq_of_qid_eq (hitems item hitem) (hitems item' hitem') hqid
    exact ⟨v, hv, hvalue.symm, (recordKey_eq_uneditedKey_iff howns hv).mp hkey.symm⟩
  · rintro ⟨v, hv, hvalue, hsources⟩
    have hkey := (recordKey_eq_uneditedKey_iff howns hv).mpr hsources
    exact ⟨item, hitem, v, hv, by rw [hkey, hvalue]⟩

/-! ### Groups that are made -/

/-- A group that takes over no members is computed. -/
theorem value_groupFor (h : r.reusableGroup? d q o = none) :
    (r.groupFor d source q o).value =
      r.computeGroup source q (o.size r.config d) (o.sample r.config d (o.size r.config d)) := by
  rw [groupFor_eq, h]
  rfl

/-- A command that is not blank denotes a query that does something. -/
theorem isNoOp_of_groupQuery (hcmd : isAllBlank source.cmd.toList = false)
    (h : r.groupQuery source.cmd = .ok q) : q.root.isNoOp = false := by
  rw [groupQuery, if_neg (Bool.eq_false_iff.mp hcmd)] at h
  obtain ⟨hparse, -, -⟩ := compile_eq_ok h
  have hlegible := (Query.isLegible_of_parse hparse).1
  cases hroot : q.root with
  | noOp =>
      rw [hroot] at hlegible
      cases hlegible
  | _ => rfl

/-- **Membership means what the query of a group means.** A group is made from a command over all items
of a dataset, each of which its query has a value on, and it is saved. From then on, the query for
membership is true of the unedited variant of an item iff the query of the group was true, with another
provenance than one edited variant alone, and false otherwise. For every variant it says what the group
says. -/
theorem memberOf_iff_of_createGroup (hd : d.IsFiled)
    (hmade : r.createGroup d source o = .ok (g, r')) (hsave : o.save = true)
    (hcmd : isAllBlank source.cmd.toList = false) (hcomputed : r.reusableGroup? d g.query o = none)
    (hall : ∀ item ∈ d.allItems, item ∈ o.sample r.config d (o.size r.config d))
    (hvalues : ∀ item ∈ d.allItems, ∃ v,
      (r.evaluate g.query.root ⟨item, Instance.noEdit⟩).result = .ok v) :
    (Expr.isName source.name = true →
      Query.parse ("instance in group:" ++ source.name) = .ok (.memberOf source.name)) ∧
    (∀ item ∈ d.allItems, item.unedited?.isSome = true →
      ∃ b, (r'.valueOn (.memberOf source.name) item).result = .ok (.bool b) ∧
        (b = true ↔ ∃ v, (r.evaluate g.query.root ⟨item, Instance.noEdit⟩).result = .ok v ∧
          v.value = .bool true ∧ ¬ ∃ k, v.sources = [k] ∧ k.isUnedited = false)) ∧
    ∀ item ∈ d.allItems, ∀ edit i, item.byEdit? edit = some i →
      (r'.evaluate (.memberOf source.name) ⟨item, edit⟩).result =
        .ok (.ofInstance i (.bool (g.hasMember i.key))) := by
  obtain ⟨q, hq, hvalue, hregistry⟩ := createGroup_eq_ok hmade
  obtain rfl : g.query = q := by rw [hvalue, query_groupFor]
  rw [value_groupFor hcomputed] at hvalue
  rw [if_pos hsave] at hregistry
  have hfind : Assoc.find? r'.groups source.name = some g := by
    rw [hregistry, hvalue]
    exact Assoc.find?_insert_self
  have hmember {s : Scope} {i : Instance} (hi : s.instance? = some i) :
      (r'.evaluate (.memberOf source.name) s).result =
        .ok (.ofInstance i (.bool (g.hasMember i.key))) := by
    rw [evaluate_memberOf hfind hi]
    rfl
  refine ⟨Expr.parse_memberOf, fun item hitem hsome => ?_, fun item _ edit i hi => hmember hi⟩
  obtain ⟨i, hi⟩ := Option.isSome_iff_exists.mp hsome
  have hkey : i.key = item.uneditedKey := (hd.item_of_mem hitem).key_of_variant? hi
  have hunedited := hmember ((Scope.instance?_noEdit item).trans hi)
  refine ⟨g.hasMember i.key, by rw [result_valueOn, hunedited]; rfl, ?_⟩
  rw [hkey, hvalue]
  have hsample (item : Item) (h : item ∈ o.sample r.config d (o.size r.config d)) := CreateOptions.mem_sample h
  exact hasMember_uneditedKey_iff hd hsample (isNoOp_of_groupQuery hcmd hq)
    (.inr fun item hitem => hvalues item (hsample item hitem)) (hall item hitem)

/-- What a group of the questions whose count is low after an edit is made from. -/
def lowAfterSwap : Definition where
  name := "low"
  cmd := "apply(n, rewrite=\"swap\") < 3"

/-- The tree of its query. -/
def lowAfterSwapTree : Expr :=
  .binary .lt (.call "apply" [.positional (.ident "n")] (some "swap")) (.literal (.num 3))

/-- A registry with the group. -/
def lowRegistry : Registry :=
  (ofConfig {}).withGroup countedQuestions lowAfterSwap lowAfterSwapTree

/-- The group for a query that is true of a question because of an edit has the edited variant alone. -/
theorem memberOf_iff_of_createGroup_low :
    ∃ g, (ofConfig {}).createGroup countedQuestions lowAfterSwap {} = .ok (g, lowRegistry) ∧
      g.members = [⟨"q1", 1⟩] ∧
      (∀ item ∈ countedQuestions.allItems, item.unedited?.isSome = true →
        ∃ b, (lowRegistry.valueOn (.memberOf "low") item).result = .ok (.bool b) ∧
          (b = true ↔ ∃ v,
            ((ofConfig {}).evaluate g.query.root ⟨item, Instance.noEdit⟩).result = .ok v ∧
            v.value = .bool true ∧ ¬ ∃ k, v.sources = [k] ∧ k.isUnedited = false)) ∧
      ∀ item ∈ countedQuestions.allItems, ∀ edit i, item.byEdit? edit = some i →
        (lowRegistry.evaluate (.memberOf "low") ⟨item, edit⟩).result =
          .ok (.ofInstance i (.bool (g.hasMember i.key))) := by
  have hparse : Query.parse lowAfterSwap.cmd = .ok lowAfterSwapTree :=
    Expr.parse_of_text_eq (by decide +kernel) (by decide) (by decide) (by decide)
  have hmade : (ofConfig {}).createGroup countedQuestions lowAfterSwap {} = .ok (_, lowRegistry) :=
    createGroup_of_parse (by decide) hparse
  have hvalues : ∀ item ∈ countedQuestions.allItems, ∃ v,
      ((ofConfig {}).evaluate lowAfterSwapTree ⟨item, Instance.noEdit⟩).result = .ok v := by
    intro item hitem
    have hall : countedQuestions.allItems.all (fun item =>
        ((ofConfig {}).evaluate lowAfterSwapTree ⟨item, Instance.noEdit⟩).result.isOk) = true := by
      decide +kernel
    have hitem := List.all_eq_true.mp hall item hitem
    cases hresult : ((ofConfig {}).evaluate lowAfterSwapTree ⟨item, Instance.noEdit⟩).result with
    | ok v => exact ⟨v, rfl⟩
    | error e =>
        rw [hresult] at hitem
        cases hitem
  obtain ⟨-, hmembership⟩ := memberOf_iff_of_createGroup (Dataset.isFiled_ofInstances _) hmade rfl
    (by decide) rfl (fun _ hitem => hitem) hvalues
  exact ⟨_, hmade, by decide +kernel, hmembership⟩

end Registry

end ErrorAnalysis
