import Mathlib.Tactic
import ErrorAnalysis.Stats

/-!
# The Order of Values

Values are compared by kind and then by content. Of two lists the first items that differ decide, and
one that continues the other comes after it; handles are compared by the texts that they show. All of
this is an order but for one thing: different values can have the same place, such as a document and a
label with one text. So it is a total preorder, and to sort values by it gives one result up to the
choice among those of the same place.

## Main results

* `Value.compareTotal_swap`: the comparison the other way round is the reverse.
* `Value.isTransitive_compareTotal`: **the order of values is transitive.** With it come the instances
  for the lemmas of the standard library on comparisons.
* `Stats.forall₂_sameRank_sortValues`: **sorting does not depend on the order of the values.**
* `Value.compareTotal_isTotalPreorder`: the laws together.
-/

namespace ErrorAnalysis

namespace Value

variable {u v w : Value} {us vs ws : List Value}

/-! ### Kinds -/

theorem Tag.rank_injective : Function.Injective Tag.rank := by
  intro s t h
  cases s <;> cases t <;> first | rfl | cases h

/-- Values of different kinds are compared by their kinds. -/
theorem compareTotal_of_tag_ne (h : v.tag ≠ w.tag) :
    compareTotal v w = compare v.tag.rank w.tag.rank := by
  cases v <;> cases w <;> first | rfl | exact absurd rfl h

/-- Handles are compared by the texts that they show. -/
theorem compareTotal_handles (hv : v.tag = .handle) (hw : w.tag = .handle) :
    compareTotal v w = compare v.handleText w.handleText := by
  cases v <;> cases hv <;> cases w <;> cases hw <;> rfl

/-! ### Reversal -/

mutual

/-- The comparison the other way round. -/
theorem compareTotal_swap (v w : Value) : compareTotal w v = (compareTotal v w).swap := by
  by_cases htag : v.tag = w.tag
  · cases v with
    | null => cases w <;> cases htag; rfl
    | bool b => cases w <;> cases htag; exact Std.OrientedOrd.eq_swap
    | num x => cases w <;> cases htag; exact Std.OrientedOrd.eq_swap
    | str s => cases w <;> cases htag; exact Std.OrientedOrd.eq_swap
    | list vs =>
        cases w <;> cases htag
        rw [compareTotal, compareTotal, compareLists_swap vs]
    | doc | label | key =>
        rw [compareTotal_handles rfl htag.symm, compareTotal_handles htag.symm rfl]
        exact Std.OrientedOrd.eq_swap
  · rw [compareTotal_of_tag_ne htag, compareTotal_of_tag_ne (Ne.symm htag)]
    exact Std.OrientedOrd.eq_swap

theorem compareLists_swap (vs ws : List Value) :
    compareLists ws vs = (compareLists vs ws).swap := by
  cases vs with
  | nil => cases ws <;> rfl
  | cons v vs =>
      cases ws with
      | nil => rfl
      | cons w ws =>
          rw [compareLists, compareLists, Ordering.swap_then, compareTotal_swap v w,
            compareLists_swap vs ws]

end

/-! ### Transitivity -/

/-- How three values compare if the order is transitive, where `vw` compares the first with the second,
`wu` the second with the third, and `vu` the first with the third. -/
structure IsTransitive (vw wu vu : Ordering) : Prop where
  lt_of_lt : vw = .lt → wu.isLE = true → vu = .lt
  eq_of_eq : vw = .eq → vu = wu

theorem isTransitive_compare {α : Type} [Ord α] [Std.TransOrd α] (a b c : α) :
    IsTransitive (compare a b) (compare b c) (compare a c) :=
  ⟨Std.TransCmp.lt_of_lt_of_isLE, Std.TransCmp.congr_left⟩

/-- A comparison by two parts is transitive if those of the parts are. -/
theorem IsTransitive.then {vw wu vu vw' wu' vu' : Ordering} (h : IsTransitive vw wu vu)
    (h' : IsTransitive vw' wu' vu') :
    IsTransitive (vw.then vw') (wu.then wu') (vu.then vu') := by
  cases vw with
  | lt =>
      refine ⟨fun _ hwu => ?_, nofun⟩
      rw [h.lt_of_lt rfl (Ordering.isLE_left_of_isLE_then hwu)]
      rfl
  | eq =>
      obtain rfl := h.eq_of_eq rfl
      refine ⟨fun hvw hwu => ?_, fun hvw => ?_⟩
      · cases vu with
        | lt => rfl
        | eq => exact h'.lt_of_lt hvw hwu
        | gt => cases hwu
      · rw [h'.eq_of_eq hvw]
  | gt => exact ⟨nofun, nofun⟩

theorem rank_le_of_isLE (h : (compareTotal v w).isLE = true) : v.tag.rank ≤ w.tag.rank := by
  by_cases htag : v.tag = w.tag
  · rw [htag]
  · rw [compareTotal_of_tag_ne htag] at h
    exact Nat.isLE_compare.mp h

/-- Values that are not all of one kind are compared by their kinds. -/
theorem isTransitive_of_tag_ne (h : ¬ (v.tag = w.tag ∧ w.tag = u.tag)) :
    IsTransitive (compareTotal v w) (compareTotal w u) (compareTotal v u) := by
  by_cases hvw : v.tag = w.tag
  · have hwu : w.tag ≠ u.tag := fun hwu => h ⟨hvw, hwu⟩
    have hsame : compareTotal v u = compareTotal w u := by
      rw [compareTotal_of_tag_ne hwu, compareTotal_of_tag_ne (hvw ▸ hwu), hvw]
    refine ⟨fun _ hle => ?_, fun _ => hsame⟩
    rw [hsame]
    rw [compareTotal_of_tag_ne hwu] at hle ⊢
    exact Nat.compare_eq_lt.mpr
      (lt_of_le_of_ne (Nat.isLE_compare.mp hle) fun heq => hwu (Tag.rank_injective heq))
  · rw [compareTotal_of_tag_ne hvw]
    refine ⟨fun hlt hle => ?_, fun heq => ?_⟩
    · have hrank := lt_of_lt_of_le (Nat.compare_eq_lt.mp hlt) (rank_le_of_isLE hle)
      rw [compareTotal_of_tag_ne fun htag => hrank.ne (congrArg Tag.rank htag)]
      exact Nat.compare_eq_lt.mpr hrank
    · exact absurd (Tag.rank_injective (Nat.compare_eq_eq.mp heq)) hvw

mutual

/-- The order of values is transitive. -/
theorem isTransitive_compareTotal (v w u : Value) :
    IsTransitive (compareTotal v w) (compareTotal w u) (compareTotal v u) := by
  by_cases htag : v.tag = w.tag ∧ w.tag = u.tag
  · obtain ⟨hvw, hwu⟩ := htag
    cases v with
    | null =>
        cases w <;> cases hvw; cases u <;> cases hwu
        exact ⟨nofun, fun _ => rfl⟩
    | bool a =>
        cases w <;> cases hvw; cases u <;> cases hwu
        exact isTransitive_compare a _ _
    | num x =>
        cases w <;> cases hvw; cases u <;> cases hwu
        exact isTransitive_compare x.rank _ _
    | str s =>
        cases w <;> cases hvw; cases u <;> cases hwu
        exact isTransitive_compare s _ _
    | list vs =>
        cases w <;> cases hvw; cases u <;> cases hwu
        rw [compareTotal, compareTotal, compareTotal]
        exact isTransitive_compareLists vs _ _
    | doc | label | key =>
        rw [compareTotal_handles rfl hvw.symm, compareTotal_handles hvw.symm (hwu ▸ hvw.symm),
          compareTotal_handles rfl (hwu ▸ hvw.symm)]
        exact isTransitive_compare _ _ _
  · exact isTransitive_of_tag_ne htag

theorem isTransitive_compareLists (vs ws us : List Value) :
    IsTransitive (compareLists vs ws) (compareLists ws us) (compareLists vs us) := by
  cases vs with
  | nil =>
      cases ws with
      | nil => exact ⟨nofun, fun _ => rfl⟩
      | cons w ws =>
          cases us with
          | nil => exact ⟨nofun, nofun⟩
          | cons u us => exact ⟨fun _ _ => rfl, nofun⟩
  | cons v vs =>
      cases ws with
      | nil => exact ⟨nofun, nofun⟩
      | cons w ws =>
          cases us with
          | nil => exact ⟨nofun, fun _ => rfl⟩
          | cons u us =>
              exact (isTransitive_compareTotal v w u).then (isTransitive_compareLists vs ws us)

end

/-! ### The preorder -/

instance : Std.OrientedCmp compareTotal where
  eq_swap := compareTotal_swap _ _

instance : Std.TransCmp compareTotal where
  isLE_trans {v w u} hvw hwu := by
    have h := isTransitive_compareTotal v w u
    cases hcompare : compareTotal v w with
    | lt => rw [h.lt_of_lt hcompare hwu]; rfl
    | eq => rwa [h.eq_of_eq hcompare]
    | gt => rw [hcompare] at hvw; cases hvw

instance : Std.TransOrd Ranked where
  eq_swap := compareTotal_swap _ _
  isLE_trans hvw hwu := @Std.TransCmp.isLE_trans _ compareTotal _ _ _ _ hvw hwu

instance : Std.LawfulBEqOrd Ranked where
  compare_eq_iff_beq := beq_iff_eq.symm

theorem sameRank_iff : sameRank v w = true ↔ compareTotal v w = .eq :=
  beq_iff_eq

theorem le_iff_isLE : le v w = true ↔ (compareTotal v w).isLE = true := by
  rw [le]
  cases compareTotal v w <;> decide

theorem le_total (v w : Value) : (le v w || le w v) = true := by
  rw [le, le, compareTotal_swap v w]
  cases compareTotal v w <;> rfl

theorem le_trans (hvw : le v w = true) (hwu : le w u = true) : le v u = true := by
  rw [le_iff_isLE] at *
  exact Std.TransCmp.isLE_trans hvw hwu

theorem sameRank_of_le_of_le (hvw : le v w = true) (hwv : le w v = true) :
    sameRank v w = true := by
  rw [le_iff_isLE] at *
  exact sameRank_iff.mpr (Std.OrientedCmp.isLE_antisymm hvw hwv)

theorem sameRank_self (v : Value) : sameRank v v = true :=
  sameRank_iff.mpr Std.ReflCmp.compare_self

theorem sameRank_comm : sameRank v w = sameRank w v := by
  rw [sameRank, sameRank, compareTotal_swap v w]
  cases compareTotal v w <;> rfl

/-- Values of one place are of one place with the same others. -/
theorem sameRank_congr_left (h : sameRank v w = true) : sameRank v u = sameRank w u := by
  rw [sameRank, sameRank, (isTransitive_compareTotal v w u).eq_of_eq (sameRank_iff.mp h)]

theorem sameRank_congr_right (h : sameRank v w = true) : sameRank u v = sameRank u w := by
  rw [sameRank_comm (v := u), sameRank_comm (v := u), sameRank_congr_left h]

theorem le_of_le_of_sameRank (hvw : le v w = true) (h : sameRank u w = true) : le v u = true := by
  refine le_trans hvw (le_iff_isLE.mpr ?_)
  rw [sameRank_iff.mp (sameRank_comm.trans h)]
  rfl

/-! ### Values of one place -/

theorem tag_eq_of_compareTotal (h : compareTotal v w = .eq) : v.tag = w.tag := by
  by_contra htag
  rw [compareTotal_of_tag_ne htag, Nat.compare_eq_eq] at h
  exact htag (Tag.rank_injective h)

/-- Values of one place are the same, unless they are lists or handles. -/
theorem eq_of_compareTotal (h : compareTotal v w = .eq) (hlist : v.isList = false)
    (hhandle : v.tag ≠ .handle) : v = w := by
  have htag := tag_eq_of_compareTotal h
  cases v with
  | null => cases w <;> cases htag; rfl
  | bool a =>
      cases w <;> cases htag
      rw [Std.LawfulEqOrd.eq_of_compare (a := a) h]
  | num x =>
      cases w <;> cases htag
      rw [Number.rank_injective (Int.compare_eq_eq.mp h)]
  | str s =>
      cases w <;> cases htag
      rw [Std.LawfulEqOrd.eq_of_compare (a := s) h]
  | list vs => cases hlist
  | doc | label | key => exact absurd rfl hhandle

mutual

/-- Values of one place show the same text. -/
theorem text_eq_of_compareTotal {v w : Value} (h : compareTotal v w = .eq) : v.text = w.text := by
  have htag := tag_eq_of_compareTotal h
  cases v with
  | null | bool | num | str => rw [eq_of_compareTotal h rfl nofun]
  | list vs =>
      cases w <;> cases htag
      rw [compareTotal] at h
      rw [text, text, texts_eq_of_compareLists h]
  | doc | label | key =>
      rw [compareTotal_handles rfl htag.symm] at h
      have htext := Std.LawfulEqOrd.eq_of_compare h
      cases w <;> cases htag <;> simpa only [text, handleText] using htext

theorem texts_eq_of_compareLists {vs ws : List Value} (h : compareLists vs ws = .eq) :
    texts vs = texts ws := by
  cases vs with
  | nil => cases ws <;> first | rfl | cases h
  | cons v vs =>
      cases ws with
      | nil => cases h
      | cons w ws =>
          obtain ⟨hfirst, hrest⟩ := Ordering.then_eq_eq.mp h
          rw [texts, texts, text_eq_of_compareTotal hfirst, texts_eq_of_compareLists hrest]

end

end Value

/-! ### Sorting -/

namespace Stats

open Value (le sameRank)

variable {v u : Value} {vs ws : List Value}

theorem perm_sortValues (vs : List Value) : (sortValues vs).Perm vs :=
  List.mergeSort_perm vs le

theorem pairwise_sortValues (vs : List Value) :
    (sortValues vs).Pairwise fun v w => le v w = true :=
  @List.pairwise_mergeSort _ le (fun _ _ _ => Value.le_trans) Value.le_total vs

/-- The first of values in ascending order is not above any place that is taken. -/
theorem le_of_countP_pos (hvs : (v :: vs).Pairwise fun v w => le v w = true)
    (h : 0 < (v :: vs).countP (sameRank u)) : le v u = true := by
  obtain ⟨w, hw, hrank⟩ := List.countP_pos_iff.mp h
  refine Value.le_of_le_of_sameRank ?_ hrank
  rcases List.mem_cons.mp hw with rfl | hw
  · exact Value.le_iff_isLE.mpr Std.ReflCmp.isLE_rfl
  · exact List.rel_of_pairwise_cons hvs hw

theorem countP_sameRank_pos (hv : v ∈ vs) : 0 < vs.countP (sameRank v) :=
  List.countP_pos_iff.mpr ⟨v, hv, Value.sameRank_self v⟩

/-- Values in ascending order agree place by place if each place is taken as often. -/
theorem forall₂_sameRank_of_countP_eq (hvs : vs.Pairwise fun v w => le v w = true)
    (hws : ws.Pairwise fun v w => le v w = true)
    (hcount : ∀ u, vs.countP (sameRank u) = ws.countP (sameRank u)) :
    List.Forall₂ (fun v w => sameRank v w = true) vs ws := by
  induction vs generalizing ws with
  | nil =>
      cases ws with
      | nil => exact .nil
      | cons w ws =>
          have hpos := countP_sameRank_pos (List.mem_cons_self (a := w) (l := ws))
          rw [← hcount w] at hpos
          cases hpos
  | cons v vs ih =>
      have hv := countP_sameRank_pos (List.mem_cons_self (a := v) (l := vs))
      cases ws with
      | nil =>
          rw [hcount v] at hv
          cases hv
      | cons w ws =>
          have hw := countP_sameRank_pos (List.mem_cons_self (a := w) (l := ws))
          have hrank : sameRank v w = true :=
            Value.sameRank_of_le_of_le (le_of_countP_pos hvs (hcount w ▸ hw))
              (le_of_countP_pos hws (hcount v ▸ hv))
          refine .cons hrank (ih hvs.of_cons hws.of_cons fun u => ?_)
          have hu := hcount u
          rw [List.countP_cons, List.countP_cons, Value.sameRank_congr_right hrank] at hu
          exact Nat.add_right_cancel hu

/-- **Sorting does not depend on the order of the values,** but for which ones of one place come
first. -/
theorem forall₂_sameRank_sortValues (h : vs.Perm ws) :
    List.Forall₂ (fun v w => sameRank v w = true) (sortValues vs) (sortValues ws) := by
  refine forall₂_sameRank_of_countP_eq (pairwise_sortValues vs) (pairwise_sortValues ws) fun u => ?_
  exact (((perm_sortValues vs).trans h).trans (perm_sortValues ws).symm).countP_eq _

end Stats

/-! ### The laws -/

namespace Value

/-- **The comparison of values is a total preorder:** a value has the same place as itself, the
comparison the other way round is the reverse, and both `≤` and having the same place are transitive.
So values that stand for their places have an order that goes with their equality, which is an
equivalence; and sorting yields the values in ascending order, with the same places for values that come
in another order. -/
theorem compareTotal_isTotalPreorder (u v w : Value) :
    compareTotal v v = .eq ∧
    compareTotal w v = (compareTotal v w).swap ∧
    (compareTotal u v ≠ .gt → compareTotal v w ≠ .gt → compareTotal u w ≠ .gt) ∧
    (compareTotal u v = .eq → compareTotal v w = .eq → compareTotal u w = .eq) ∧
    Std.TransOrd Ranked ∧ Std.LawfulBEqOrd Ranked ∧ EquivBEq Ranked ∧
    ∀ vs ws : List Value, vs.Perm ws →
      (Stats.sortValues vs).Perm vs ∧
      (Stats.sortValues vs).Pairwise (fun v w => compareTotal v w ≠ .gt) ∧
      List.Forall₂ (fun v w => compareTotal v w = .eq)
        (Stats.sortValues vs) (Stats.sortValues ws) := by
  refine ⟨Std.ReflCmp.compare_self, compareTotal_swap v w, ?_, ?_, inferInstance, inferInstance,
    inferInstance, fun vs ws hperm => ⟨Stats.perm_sortValues vs, ?_, ?_⟩⟩
  · simp only [Ordering.ne_gt_iff_isLE]
    exact Std.TransCmp.isLE_trans
  · exact Std.TransCmp.eq_trans
  · exact (Stats.pairwise_sortValues vs).imp fun h => bne_iff_ne.mp h
  · exact (Stats.forall₂_sameRank_sortValues hperm).imp fun _ _ => sameRank_iff.mp

/-- It is no order of values themselves: a document and an answer that show one text have one place. -/
example : compareTotal (.doc (Document.ofText "why")) (.label ⟨"m", "why", [], none, []⟩) = .eq := by
  decide +kernel

end Value

end ErrorAnalysis
