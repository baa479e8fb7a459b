import ErrorAnalysis.Proofs.Blocks.Records
import ErrorAnalysis.Proofs.Statistics.Bins

/-!
# Domains of Attributes

The domain of an attribute of numbers is the interval from the least to the greatest of them, and that of
categories lists their places. Both are exact: no number outside of the values is an end of the interval,
and no place is listed that is not taken. Both grow with the questions that a summary is about.

Lists are left out, and so are NaNs among numbers. A place can be that of several values, such as handles
that show one text; the domain lists one of them.

## Main definitions

* `QuestionFilter.IsWithin`: one filter lets no more questions pass than another.
* `Attribute.HasNumber`, `Attribute.HasScalar`: what occurs among the questions that pass.
* `Attribute.Spans`: the interval of the numbers.

## Main results

* `Attribute.domain_continuous`: the domain of numbers is the interval that they span.
* `Attribute.mem_place_iff_hasScalar`: the domain of categories has the places that are taken.
* `Attribute.domain_isExact`: **the domain is exact and monotone.**
-/

namespace ErrorAnalysis

/-- One filter lets no more questions pass than another; to have no filter lets all of them pass. -/
def QuestionFilter.IsWithin (F G : QuestionFilter) : Prop :=
  ∀ qid, F.passes qid = true → G.passes qid = true

namespace Attribute

open Value (compareTotal)

variable {a : Attribute} {F G : QuestionFilter} {v : Value} {x least greatest : Number}

/-! ### What occurs -/

/-- A value that is no list occurs for a question that passes a filter. -/
def HasScalar (a : Attribute) (F : QuestionFilter) (v : Value) : Prop :=
  v.isList = false ∧ ∃ k, (k, v) ∈ a.values ∧ F.passes k.qid = true

/-- A number that is not a NaN occurs for a question that passes a filter. -/
def HasNumber (a : Attribute) (F : QuestionFilter) (x : Number) : Prop :=
  a.HasScalar F (.num x) ∧ x.isNaN = false

theorem HasScalar.mono (hF : F.IsWithin G) (h : a.HasScalar F v) : a.HasScalar G v := by
  obtain ⟨hlist, k, hmem, hpasses⟩ := h
  exact ⟨hlist, k, hmem, hF _ hpasses⟩

theorem HasNumber.mono (hF : F.IsWithin G) (h : a.HasNumber F x) : a.HasNumber G x :=
  h.imp_left (HasScalar.mono hF)

theorem exists_mem_scalars_iff (h : a.IsSound) :
    (∃ k, (k, v) ∈ a.scalars F) ↔ a.HasScalar F v := by
  rw [scalars_eq_summarized h.notNull, summarized]
  simp only [List.mem_filter, Bool.and_eq_true, Bool.not_eq_true']
  rw [HasScalar]
  grind

theorem mem_sortedNumbers_iff (h : a.IsSound) (hdtype : a.dtype = .continuous) :
    x ∈ a.sortedNumbers F ↔ a.HasNumber F x := by
  rw [sortedNumbers, Stats.mem_sortedNumbers, HasNumber, ← exists_mem_scalars_iff h]
  refine and_congr_left fun _ => ⟨fun hx => ?_, fun ⟨k, hk⟩ => ?_⟩
  · obtain ⟨⟨k, v⟩, he, hnumber⟩ := List.mem_filterMap.mp hx
    obtain ⟨hlist, k', hmem, -⟩ := (exists_mem_scalars_iff h).mp ⟨k, he⟩
    obtain ⟨y, rfl⟩ := h.exists_num hdtype hmem hlist
    obtain rfl := Option.some.inj hnumber
    exact ⟨k, he⟩
  · exact List.mem_filterMap.mpr ⟨_, hk, rfl⟩

/-! ### Intervals -/

/-- Two numbers that occur, and between which all others are. -/
def Spans (a : Attribute) (F : QuestionFilter) (least greatest : Number) : Prop :=
  a.HasNumber F least ∧ a.HasNumber F greatest ∧
    ∀ x, a.HasNumber F x → least.compareTotal x ≠ .gt ∧ x.compareTotal greatest ≠ .gt

theorem pairwise_sortedNumbers (a : Attribute) (F : QuestionFilter) :
    (a.sortedNumbers F).Pairwise fun x y => x.compareTotal y ≠ .gt :=
  (Stats.pairwise_sortedNumbers Stats.ranksLe_iff _).imp Number.compareTotal_ne_gt_iff.mpr

/-- The domain of numbers is the interval that they span, if there are any. -/
theorem domain_continuous (h : a.IsSound) (hdtype : a.dtype = .continuous) (F : QuestionFilter) :
    (a.domain F = [] ∧ ¬ ∃ x, a.HasNumber F x) ∨
      ∃ least greatest, a.domain F = [.num least, .num greatest] ∧ a.Spans F least greatest := by
  cases hnil : a.sortedNumbers F with
  | nil =>
      refine .inl ⟨by simp only [domain, hdtype, hnil, List.head?_nil], fun ⟨x, hx⟩ => ?_⟩
      rw [← mem_sortedNumbers_iff h hdtype, hnil] at hx
      cases hx
  | cons least rest =>
      have hmem {x : Number} := mem_sortedNumbers_iff h hdtype (F := F) (x := x)
      have hsorted := a.pairwise_sortedNumbers F
      obtain ⟨front, greatest, hlast⟩ : ∃ front greatest, a.sortedNumbers F = front ++ [greatest] :=
        ⟨_, _, (List.dropLast_append_getLast (hnil ▸ List.cons_ne_nil least rest)).symm⟩
      refine .inr ⟨least, greatest, ?_, hmem.mp ?_, hmem.mp ?_, fun x hx => ⟨?_, ?_⟩⟩
      · have hleast : (a.sortedNumbers F).head? = some least := by rw [hnil, List.head?_cons]
        have hgreatest : (a.sortedNumbers F).getLast? = some greatest := by
          rw [hlast, List.getLast?_concat]
        simp only [domain, hdtype, hleast, hgreatest]
      · rw [hnil]
        exact List.mem_cons_self
      · rw [hlast]
        exact List.mem_append_right _ List.mem_cons_self
      · have hx := hmem.mpr hx
        rw [hnil] at hx hsorted
        rcases List.mem_cons.mp hx with rfl | hx
        · exact Number.compareTotal_ne_gt_iff.mpr le_rfl
        · exact List.rel_of_pairwise_cons hsorted hx
      · have hx := hmem.mpr hx
        rw [hlast] at hx hsorted
        rcases List.mem_append.mp hx with hx | hx
        · exact (List.pairwise_append.mp hsorted).2.2 x hx greatest List.mem_cons_self
        · rw [List.mem_singleton.mp hx]
          exact Number.compareTotal_ne_gt_iff.mpr le_rfl

/-- A domain of numbers is empty if there are none. -/
theorem domain_eq_nil_iff (h : a.IsSound) (hdtype : a.dtype = .continuous) :
    a.domain F = [] ↔ ¬ ∃ x, a.HasNumber F x := by
  rcases domain_continuous h hdtype F with ⟨hnil, hnone⟩ | ⟨_, _, hdomain, hspans⟩
  · exact iff_of_true hnil hnone
  · rw [hdomain]
    exact iff_of_false nofun fun hnone => hnone ⟨_, hspans.1⟩

/-- The interval of fewer questions lies within that of more. -/
theorem Spans.within {least' greatest' : Number} (h : a.Spans F least greatest)
    (h' : a.Spans G least' greatest') (hF : F.IsWithin G) :
    least'.compareTotal least ≠ .gt ∧ greatest.compareTotal greatest' ≠ .gt :=
  ⟨(h'.2.2 _ (h.1.mono hF)).1, (h'.2.2 _ (h.2.1.mono hF)).2⟩

theorem exists_spans_of_isWithin (h : a.IsSound) (hdtype : a.dtype = .continuous)
    (hspans : a.Spans F least greatest) (hF : F.IsWithin G) :
    ∃ least' greatest', a.domain G = [.num least', .num greatest'] ∧
      least'.compareTotal least ≠ .gt ∧ greatest.compareTotal greatest' ≠ .gt := by
  rcases domain_continuous h hdtype G with ⟨-, hnone⟩ | ⟨least', greatest', hdomain, hspans'⟩
  · exact absurd ⟨least, hspans.1.mono hF⟩ hnone
  · exact ⟨least', greatest', hdomain, hspans.within hspans' hF⟩

/-! ### Categories -/

/-- The domain of categories has the places that are taken. -/
theorem mem_place_iff_hasScalar (h : a.IsSound) (hdtype : a.dtype = .categorical) :
    (∃ w ∈ a.domain F, compareTotal v w = .eq) ↔ ∃ w, a.HasScalar F w ∧ compareTotal v w = .eq := by
  have hplace := @exists_mem_domain_iff a F v hdtype
  simp only [Value.sameRank_iff, Prod.exists] at hplace
  rw [hplace]
  simp only [← exists_mem_scalars_iff h]
  grind

/-- What the domain of categories lists occurs. -/
theorem hasScalar_of_mem_domain (h : a.IsSound) (hdtype : a.dtype = .categorical)
    (hv : v ∈ a.domain F) : a.HasScalar F v := by
  rw [domain, hdtype] at hv
  obtain ⟨e, he, rfl⟩ := List.mem_map.mp hv
  obtain ⟨⟨k, w⟩, hmem, heq⟩ :=
    List.mem_map.mp ((Stats.perm_sortValues _).subset (Stats.mem_of_mem_runs he))
  obtain rfl : w = e.1 := heq
  exact (exists_mem_scalars_iff h).mp ⟨k, hmem⟩

theorem pairwise_domain (hdtype : a.dtype = .categorical) :
    (a.domain F).Pairwise fun v w => compareTotal v w = .lt := by
  rw [domain, hdtype]
  dsimp only
  rw [distinct_eq]
  exact List.pairwise_map.mpr (isAscending_counts _)

/-- Values other than lists and handles have a place of their own. -/
theorem exists_place_iff_hasScalar_self (hlist : v.isList = false) (hhandle : v.tag ≠ .handle) :
    (∃ w, a.HasScalar F w ∧ compareTotal v w = .eq) ↔ a.HasScalar F v := by
  refine ⟨fun ⟨w, hw, heq⟩ => ?_, fun hv => ⟨v, hv, Std.ReflCmp.compare_self⟩⟩
  rwa [Value.eq_of_compareTotal heq hlist hhandle]

/-! ### The laws -/

/-- **The domain is exact and monotone.** That of numbers is empty iff there are none, and otherwise ends
with two of them between which all are; the interval for more questions has both ends of that for fewer
between its own. That of categories ascends and lists what occurs, and a value has the place of one that is
listed iff it has the place of one that occurs. Handles aside, that one is the value itself. What is listed
for fewer questions has its place listed for more. -/
theorem domain_isExact (h : a.IsSound) (F : QuestionFilter) :
    (a.dtype = .continuous →
      (a.domain F = [] ↔ ¬ ∃ x, a.HasNumber F x) ∧
      (a.domain F ≠ [] → ∃ least greatest, a.domain F = [.num least, .num greatest] ∧
        a.Spans F least greatest ∧ ∀ G, F.IsWithin G → ∃ least' greatest',
          a.domain G = [.num least', .num greatest'] ∧
          least'.compareTotal least ≠ .gt ∧ greatest.compareTotal greatest' ≠ .gt)) ∧
    (a.dtype = .categorical →
      (a.domain F).Pairwise (fun v w => compareTotal v w = .lt) ∧
      (∀ v ∈ a.domain F, a.HasScalar F v) ∧
      (∀ v, v.isList = false → ((∃ w ∈ a.domain F, compareTotal v w = .eq) ↔
        ∃ w, a.HasScalar F w ∧ compareTotal v w = .eq)) ∧
      (∀ v, v.isList = false → v.tag ≠ .handle →
        ((∃ w ∈ a.domain F, compareTotal v w = .eq) ↔ a.HasScalar F v)) ∧
      ∀ G, F.IsWithin G → ∀ v ∈ a.domain F, ∃ w ∈ a.domain G, compareTotal v w = .eq) := by
  refine ⟨fun hdtype => ⟨domain_eq_nil_iff h hdtype, fun hne => ?_⟩, fun hdtype => ?_⟩
  · rcases domain_continuous h hdtype F with ⟨hnil, -⟩ | ⟨least, greatest, hdomain, hspans⟩
    · exact absurd hnil hne
    · exact ⟨least, greatest, hdomain, hspans, fun G hG => exists_spans_of_isWithin h hdtype hspans hG⟩
  · have hplace {G : QuestionFilter} {v : Value} := mem_place_iff_hasScalar h hdtype (F := G) (v := v)
    refine ⟨pairwise_domain hdtype, fun v hv => hasScalar_of_mem_domain h hdtype hv, fun v _ => hplace,
      fun v hlist hhandle => hplace.trans (exists_place_iff_hasScalar_self hlist hhandle),
      fun G hG v hv => hplace.mpr ?_⟩
    exact ⟨v, (hasScalar_of_mem_domain h hdtype hv).mono hG, Std.ReflCmp.compare_self⟩

/-! ### Scattered counts -/

/-- Questions with counts, in no order, and one that has a list of them. -/
def scatteredCounts : Dataset :=
  .ofInstances [
    ⟨⟨"q1", 0⟩, Instance.noEdit, [("n", .num 3)]⟩,
    ⟨⟨"q2", 0⟩, Instance.noEdit, [("n", .num 0)]⟩,
    ⟨⟨"q3", 0⟩, Instance.noEdit, [("n", .num 4)]⟩,
    ⟨⟨"q4", 0⟩, Instance.noEdit, [("n", .list [.num 9])]⟩,
    ⟨⟨"q5", 0⟩, Instance.noEdit, [("n", .num 1)]⟩,
    ⟨⟨"q6", 0⟩, Instance.noEdit, [("n", .num 2)]⟩]

/-- The attribute of the counts. -/
def scattered : Attribute :=
  (Registry.ofConfig {}).computeAttribute ⟨"count", "", "n"⟩ ⟨"n", .ident "n", {}⟩ 6
    scatteredCounts.allItems

theorem isSound_scattered : scattered.IsSound :=
  Registry.computeAttribute_isSound (Dataset.isFiled_ofInstances _)
    (@CreateOptions.Draws.all {} scatteredCounts 6 (by decide))

theorem dtype_scattered : scattered.dtype = .continuous := by
  decide +kernel

/-- Of three questions one has a list. The other two span the interval from 1 to 3, and that of all
questions has it within. -/
theorem domain_isExact_scattered :
    scattered.IsSound ∧ scattered.dtype = .continuous ∧
    QuestionFilter.IsWithin (some ["q1", "q4", "q5"]) none ∧
    scattered.domain (some ["q1", "q4", "q5"]) = [.num 1, .num 3] ∧
    ∃ least' greatest', scattered.domain none = [.num least', .num greatest'] ∧
      least'.compareTotal 1 ≠ .gt ∧ Number.compareTotal 3 greatest' ≠ .gt := by
  have hwithin : QuestionFilter.IsWithin (some ["q1", "q4", "q5"]) none := fun _ _ => rfl
  have hnumbers : (scattered.scalars (some ["q1", "q4", "q5"])).filterMap (fun e => e.2.number?) =
      [3, 1] := by
    decide +kernel
  have hhas (x : Number) : scattered.HasNumber (some ["q1", "q4", "q5"]) x ↔
      (x = 3 ∨ x = 1) ∧ x.isNaN = false := by
    rw [← mem_sortedNumbers_iff isSound_scattered dtype_scattered, sortedNumbers,
      Stats.mem_sortedNumbers, hnumbers, List.mem_cons, List.mem_singleton]
    rfl
  have hthree := (hhas 3).mpr ⟨.inl rfl, by decide +kernel⟩
  have hone := (hhas 1).mpr ⟨.inr rfl, by decide +kernel⟩
  have hne : scattered.domain (some ["q1", "q4", "q5"]) ≠ [] := fun hnil =>
    (domain_eq_nil_iff isSound_scattered dtype_scattered).mp hnil ⟨3, hthree⟩
  obtain ⟨least, greatest, hdomain, ⟨hleast, hgreatest, hall⟩, hmono⟩ :=
    ((domain_isExact isSound_scattered (some ["q1", "q4", "q5"])).1 dtype_scattered).2 hne
  have hgt : Number.compareTotal 3 1 = .gt := by decide +kernel
  obtain rfl : least = 1 :=
    ((hhas least).mp hleast).1.resolve_left fun heq => (hall 1 hone).1 (by rw [heq, hgt])
  obtain rfl : greatest = 3 :=
    ((hhas greatest).mp hgreatest).1.resolve_right fun heq => (hall 3 hthree).2 (by rw [heq, hgt])
  exact ⟨isSound_scattered, dtype_scattered, hwithin, hdomain, hmono none hwithin⟩

end Attribute

end ErrorAnalysis
