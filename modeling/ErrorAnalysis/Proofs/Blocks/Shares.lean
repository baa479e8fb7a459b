import ErrorAnalysis.Proofs.Blocks.Building
import ErrorAnalysis.Proofs.Blocks.Comparison
import ErrorAnalysis.Proofs.Data.Filing
import ErrorAnalysis.Proofs.Number.Quotient

/-!
# Rates as Shares

The rates of a group compare its members with a baseline: with the unedited instances if all members are
unedited, and with the edited ones otherwise. But all members are counted, also the unedited ones among
members of which some are edited. These stray from the baseline, and if there are more of them than there
are instances of the baseline that are no members, then the part is more than the whole.

## Main definitions

* `Share.IsProper`: the part is not more than the whole.
* `Group.strays`: the members that are not in the baseline.
* `Group.missed`: the instances of the baseline that are no members.

## Main results

* `Share.value_mem_unit`: a proper share is shown as a number between zero and one.
* `Group.strays_eq_nil`: members of one kind do not stray.
* `Group.rates_isProper_iff`: **rates are proper shares iff strays do not outnumber what is missed.**
* `Group.rates_exceed_swapped`: a group whose rates are not.
-/

namespace ErrorAnalysis

/-! ### Shares -/

namespace Share

/-- The part is not more than the whole. -/
def IsProper (s : Share) : Prop :=
  s.part ≤ s.whole

/-- A proper share of what can be counted is shown as a number between zero and one. -/
theorem value_mem_unit {s : Share} (h : s.IsProper) (hsize : s.whole < UInt64.size) :
    0 ≤ s.value ∧ s.value ≤ 1 := by
  rw [value]
  split
  · exact ⟨by decide +kernel, by decide +kernel⟩
  · next hwhole => exact Number.div_ofNat_mem_unit (Nat.pos_of_ne_zero hwhole) h hsize

end Share

namespace Group

variable {d : Dataset} {members : SortedSet InstanceKey} {model? : Option String} {metric : String}
  {k : InstanceKey}

/-! ### The baseline -/

theorem mem_baseline_iff (hd : d.IsFiled) : k ∈ baseline d members ↔
    (d.instance? k).isSome = true ∧ k.isUnedited = members.all InstanceKey.isUnedited := by
  have hkeys (p : InstanceKey → Bool) : k ∈ d.keysWhere (fun i => p i.key) ↔
      (d.instance? k).isSome = true ∧ p k = true := by
    rw [hd.mem_keysWhere, Option.isSome_iff_exists]
    constructor
    · rintro ⟨i, hi, hp⟩
      obtain ⟨-, -, -, rfl⟩ := hd.exists_item_of_instance? hi
      exact ⟨⟨i, hi⟩, hp⟩
    · rintro ⟨⟨i, hi⟩, hp⟩
      obtain ⟨-, -, -, rfl⟩ := hd.exists_item_of_instance? hi
      exact ⟨i, hi, hp⟩
  rw [baseline]
  split
  · next hall =>
      rw [hall]
      exact hkeys InstanceKey.isUnedited
  · next hall =>
      rw [Bool.not_eq_true] at hall
      rw [hall, ← Bool.not_eq_true']
      exact hkeys fun k => !k.isUnedited

theorem sorted_baseline : SortedSet.Sorted (baseline d members) := by
  rw [baseline]
  split <;> exact SortedSet.sorted_union List.Pairwise.nil

/-- The keys of the instances that the model got wrong. -/
def wrongKeys (d : Dataset) (keys : SortedSet InstanceKey) (model? : Option String)
    (metric : String) : SortedSet InstanceKey :=
  keys.filter fun k => (d.instance? k).any (isWrong model? metric)

/-- The members that the dataset has, but that are not in the baseline. -/
def strays (d : Dataset) (members : SortedSet InstanceKey) : SortedSet InstanceKey :=
  (presentKeys d members).filter (· ∉ baseline d members)

/-- The instances of the baseline that are no members. -/
def missed (d : Dataset) (members : SortedSet InstanceKey) : SortedSet InstanceKey :=
  (baseline d members).filter (· ∉ members)

/-- Members that are all unedited, or all edited, do not stray. -/
theorem strays_eq_nil (hd : d.IsFiled)
    (h : (∀ k ∈ members, k.isUnedited = true) ∨ ∀ k ∈ members, k.isUnedited = false) :
    strays d members = [] := by
  refine List.filter_eq_nil_iff.mpr fun k hk => ?_
  obtain ⟨hmember, hpresent⟩ := List.mem_filter.mp hk
  rw [decide_eq_true_eq, not_not, mem_baseline_iff hd]
  refine ⟨hpresent, ?_⟩
  rcases h with h | h
  · rw [h k hmember, List.all_eq_true.mpr h]
  · rw [h k hmember, eq_comm, List.all_eq_false]
    exact ⟨k, hmember, by rw [h k hmember]; decide⟩

/-! ### Parts and wholes -/

theorem length_wrongKeys : (wrongKeys d members model? metric).length =
    (rates d members model? metric).incorrect := by
  have hincorrect : (rates d members model? metric).incorrect =
      ((members.filterMap d.instance?).filter (isWrong model? metric)).length := rfl
  rw [hincorrect, wrongKeys, ← List.countP_eq_length_filter, ← List.countP_eq_length_filter,
    List.countP_filterMap]
  refine List.countP_congr fun k _ => ?_
  cases d.instance? k <;> rfl

/-- What the model got wrong is in the dataset. -/
theorem wrongKeys_presentKeys (keys : SortedSet InstanceKey) :
    wrongKeys d (presentKeys d keys) model? metric = wrongKeys d keys model? metric := by
  rw [wrongKeys, presentKeys, List.filter_filter, wrongKeys]
  refine List.filter_congr fun k _ => ?_
  cases d.instance? k <;> simp

/-- Errors in one set that are no errors in another are those that are not in the other. -/
theorem filter_wrongKeys (keys others : SortedSet InstanceKey) :
    (wrongKeys d keys model? metric).filter (· ∉ wrongKeys d others model? metric) =
      wrongKeys d (keys.filter (· ∉ others)) model? metric := by
  simp only [wrongKeys, List.filter_filter]
  refine List.filter_congr fun k _ => ?_
  rw [Bool.eq_iff_iff]
  simp only [Bool.and_eq_true, decide_eq_true_eq, List.mem_filter, not_and]
  exact ⟨fun ⟨hout, hwrong⟩ => ⟨hwrong, fun hother => hout hother hwrong⟩,
    fun ⟨hwrong, hout⟩ => ⟨fun hother => absurd hother hout, hwrong⟩⟩

/-- The instances of the baseline that are no present members are those that are missed. -/
theorem missed_eq (hd : d.IsFiled) :
    (baseline d members).filter (· ∉ presentKeys d members) = missed d members := by
  refine List.filter_congr fun k hk => ?_
  rw [Bool.eq_iff_iff, decide_eq_true_eq, decide_eq_true_eq, presentKeys, List.mem_filter]
  exact not_congr (and_iff_left ((mem_baseline_iff hd).mp hk).1)

theorem coverage_isProper_iff (hd : d.IsFiled) (hm : SortedSet.Sorted members) :
    (rates d members model? metric).coverage.IsProper ↔
      (strays d members).length ≤ (missed d members).length := by
  have hcoverage : (rates d members model? metric).coverage.IsProper ↔
      (presentKeys d members).length ≤ (baseline d members).length := by
    change (rates d members model? metric).correct + (rates d members model? metric).incorrect ≤ _ ↔ _
    rw [correct_add_incorrect_rates]
    rfl
  have hpresent : SortedSet.Sorted (presentKeys d members) := hm.filter _
  rw [hcoverage, SortedSet.length_le_iff hpresent sorted_baseline, missed_eq hd, strays]

theorem sorted_wrongKeys {keys : SortedSet InstanceKey} (h : SortedSet.Sorted keys) :
    SortedSet.Sorted (wrongKeys d keys model? metric) :=
  h.filter _

theorem errorCoverage_isProper_iff (hm : SortedSet.Sorted members) :
    (rates d members model? metric).errorCoverage.IsProper ↔
      (wrongKeys d (strays d members) model? metric).length ≤
        (wrongKeys d (missed d members) model? metric).length := by
  have herrors : (rates d members model? metric).errorCoverage.IsProper ↔
      (wrongKeys d members model? metric).length ≤
        (wrongKeys d (baseline d members) model? metric).length := by
    rw [length_wrongKeys]
    rfl
  rw [herrors, SortedSet.length_le_iff (sorted_wrongKeys hm) (sorted_wrongKeys sorted_baseline),
    filter_wrongKeys (baseline d members), ← wrongKeys_presentKeys members,
    filter_wrongKeys (presentKeys d members)]
  rfl

theorem globalErrorRate_isProper_iff (hm : SortedSet.Sorted members) :
    (rates d members model? metric).globalErrorRate.IsProper ↔
      (wrongKeys d (strays d members) model? metric).length ≤
        ((baseline d members).filter (· ∉ wrongKeys d members model? metric)).length := by
  have hglobal : (rates d members model? metric).globalErrorRate.IsProper ↔
      (wrongKeys d members model? metric).length ≤ (baseline d members).length := by
    rw [length_wrongKeys]
    rfl
  have hstrays : (wrongKeys d members model? metric).filter (· ∉ baseline d members) =
      wrongKeys d (strays d members) model? metric := by
    rw [← wrongKeys_presentKeys, wrongKeys, List.filter_comm]
    rfl
  rw [hglobal, SortedSet.length_le_iff (sorted_wrongKeys hm) sorted_baseline, hstrays]

theorem localErrorRate_isProper : (rates d members model? metric).localErrorRate.IsProper := by
  change (rates d members model? metric).incorrect ≤ members.length
  rw [← length_wrongKeys]
  exact List.length_filter_le _ _

/-- The rates as shares. -/
def Rates.shares (r : Rates) : List Share :=
  [r.coverage, r.errorCoverage, r.localErrorRate, r.globalErrorRate]

/-- **Rates are proper shares iff strays do not outnumber what is missed.** The members that are wrong are
always a share of the members. The members are a share of the baseline iff there are no more strays than
instances of the baseline that are no members, and the same holds of errors. So all rates are proper
shares if all members are unedited, or all of them edited, and proper shares of what can be counted with
64 bits are shown as numbers between zero and one. -/
theorem rates_isProper_iff (hd : d.IsFiled) (hm : SortedSet.Sorted members) (model? : Option String)
    (metric : String) :
    (rates d members model? metric).localErrorRate.IsProper ∧
    ((rates d members model? metric).coverage.IsProper ↔
      (strays d members).length ≤ (missed d members).length) ∧
    ((rates d members model? metric).errorCoverage.IsProper ↔
      (wrongKeys d (strays d members) model? metric).length ≤
        (wrongKeys d (missed d members) model? metric).length) ∧
    ((rates d members model? metric).globalErrorRate.IsProper ↔
      (wrongKeys d (strays d members) model? metric).length ≤
        ((baseline d members).filter (· ∉ wrongKeys d members model? metric)).length) ∧
    ((∀ k ∈ members, k.isUnedited = true) ∨ (∀ k ∈ members, k.isUnedited = false) →
      ∀ s ∈ (rates d members model? metric).shares, s.IsProper) ∧
    ∀ s ∈ (rates d members model? metric).shares, s.IsProper → s.whole < UInt64.size →
      0 ≤ s.value ∧ s.value ≤ 1 := by
  refine ⟨localErrorRate_isProper, coverage_isProper_iff hd hm, errorCoverage_isProper_iff hm,
    globalErrorRate_isProper_iff hm, fun hkind => ?_, fun s _ => Share.value_mem_unit⟩
  have hstrays : strays d members = [] := strays_eq_nil hd hkind
  have hwrong : wrongKeys d (strays d members) model? metric = [] := by rw [hstrays]; rfl
  intro s hs
  simp only [Rates.shares, List.mem_cons, List.not_mem_nil, or_false] at hs
  rcases hs with rfl | rfl | rfl | rfl
  · rw [coverage_isProper_iff hd hm, hstrays]
    exact Nat.zero_le _
  · rw [errorCoverage_isProper_iff hm, hwrong]
    exact Nat.zero_le _
  · exact localErrorRate_isProper
  · rw [globalErrorRate_isProper_iff hm, hwrong]
    exact Nat.zero_le _

/-! ### A group with strays -/

/-- A question with an edit, and a question without one. A model got all of them wrong. -/
def swappedAnswers : Dataset :=
  .ofInstances [
    ⟨⟨"q1", 0⟩, Instance.noEdit,
      [("n", .num 1), ("predictions", .label ⟨"a", "x", [("f1", 0)], none, []⟩)]⟩,
    ⟨⟨"q1", 1⟩, "swap",
      [("n", .num 2), ("predictions", .label ⟨"a", "x", [("f1", 0)], none, []⟩)]⟩,
    ⟨⟨"q2", 0⟩, Instance.noEdit,
      [("n", .num 3), ("predictions", .label ⟨"a", "y", [("f1", 0)], none, []⟩)]⟩]

/-- The edited variant alone is all of the baseline, so that its rates are proper shares. -/
theorem rates_isProper_iff_swapped :
    swappedAnswers.IsFiled ∧ SortedSet.Sorted [(⟨"q1", 1⟩ : InstanceKey)] ∧
    (∀ k ∈ [(⟨"q1", 1⟩ : InstanceKey)], k.isUnedited = false) ∧
    (rates swappedAnswers [⟨"q1", 1⟩] (some "a") "f1").coverage.IsProper ∧
    (rates swappedAnswers [⟨"q1", 1⟩] (some "a") "f1").coverage.whole < UInt64.size ∧
    0 ≤ (rates swappedAnswers [⟨"q1", 1⟩] (some "a") "f1").coverage.value ∧
    (rates swappedAnswers [⟨"q1", 1⟩] (some "a") "f1").coverage.value ≤ 1 := by
  have hfiled : swappedAnswers.IsFiled := Dataset.isFiled_ofInstances _
  have hsorted : SortedSet.Sorted [(⟨"q1", 1⟩ : InstanceKey)] := List.pairwise_singleton _ _
  have hedited : ∀ k ∈ [(⟨"q1", 1⟩ : InstanceKey)], k.isUnedited = false := by decide
  obtain ⟨-, -, -, -, hproper, hvalue⟩ := rates_isProper_iff hfiled hsorted (some "a") "f1"
  have hcoverage := hproper (.inr hedited) _ List.mem_cons_self
  have hsize : (rates swappedAnswers [⟨"q1", 1⟩] (some "a") "f1").coverage.whole < UInt64.size := by
    decide +kernel
  exact ⟨hfiled, hsorted, hedited, hcoverage, hsize, hvalue _ List.mem_cons_self hcoverage hsize⟩

/-- The group of the questions whose count is not three after an edit. -/
def movedCounts : Definition where
  name := "moved"
  cmd := "apply(n, rewrite=\"swap\") != 3"

/-- The tree of its query. -/
def movedCountsTree : Expr :=
  .binary .ne (.call "apply" [.positional (.ident "n")] (some "swap")) (.literal (.num 3))

/-- A group can have strays: where the edit is missing, nothing is compared with three, and the unedited
variant is a member. Two members are then compared with the one instance that is edited, and three of four
rates are two. -/
theorem rates_exceed_swapped :
    ∃ g r, (Registry.ofConfig {}).createGroup swappedAnswers movedCounts {} = .ok (g, r) ∧
      g.members = [⟨"q1", 1⟩, ⟨"q2", 0⟩] ∧
      (rates swappedAnswers g.members (some "a") "f1").coverage = ⟨2, 1⟩ ∧
      (rates swappedAnswers g.members (some "a") "f1").errorCoverage = ⟨2, 1⟩ ∧
      (rates swappedAnswers g.members (some "a") "f1").globalErrorRate = ⟨2, 1⟩ ∧
      1 < (⟨2, 1⟩ : Share).value := by
  have hparse : Query.parse movedCounts.cmd = .ok movedCountsTree :=
    Expr.parse_of_text_eq (by decide +kernel) (by decide) (by decide) (by decide)
  refine ⟨_, _, Registry.createGroup_of_parse (by decide) hparse, ?_⟩
  decide +kernel

end Group

end ErrorAnalysis
