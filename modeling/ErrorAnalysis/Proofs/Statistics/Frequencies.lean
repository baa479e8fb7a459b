import ErrorAnalysis.Proofs.Values.Order

/-!
# Frequency Tables

A frequency table lists values with their counts. It is made by cutting values into runs of one place
in the order; once they are sorted, each place has a single run. So the table lists each place once, and
as often as it is taken among the values, whatever order the entries of the table are put in afterwards.

## Main definitions

* `Stats.total`, `Stats.listed`: all counts of a table, and those of one place.
* `Stats.IsAscending`: no two entries of a table have one place, and they are in order.

## Main results

* `Stats.runs_induction`: how the runs of values come about, from the last value to the first.
* `Stats.listed_runs`, `Stats.total_runs`: **runs count every value.**
* `Stats.isAscending_runs`: the runs of values in ascending order ascend.
* `Stats.eq_of_perm_of_isAscending`: to sort the entries of a table undoes any other order.
-/

namespace ErrorAnalysis

namespace Stats

open Value (le sameRank compareTotal)

variable {v w u : Value} {vs ws : List Value} {n : ℕ} {table table' : List (Value × ℕ)}
  {e e' : Value × ℕ}

/-! ### Tables -/

/-- All counts of a table together. -/
def total (table : List (Value × ℕ)) : ℕ :=
  (table.map (·.2)).sum

/-- How often a table lists the place of a value. -/
def listed (table : List (Value × ℕ)) (v : Value) : ℕ :=
  total (table.filter fun e => sameRank v e.1)

/-- The values of a table ascend strictly. -/
def IsAscending (table : List (Value × ℕ)) : Prop :=
  table.Pairwise fun e e' => compareTotal e.1 e'.1 = .lt

theorem total_cons : total ((v, n) :: table) = n + total table :=
  List.sum_cons

theorem listed_cons :
    listed ((v, n) :: table) u = (if sameRank u v then n else 0) + listed table u := by
  rw [listed, listed, List.filter_cons]
  split
  · exact total_cons
  · exact (Nat.zero_add _).symm

/-- A place that a table lists is that of one of its entries. -/
theorem exists_of_listed_pos (h : 0 < listed table v) : ∃ e ∈ table, sameRank v e.1 = true := by
  by_contra hnone
  rw [listed, List.filter_eq_nil_iff.mpr fun e he hrank => hnone ⟨e, he, hrank⟩] at h
  cases h

theorem sameRank_of_lt (h : compareTotal v w = .lt) : sameRank v w = false := by
  rw [sameRank, h]
  rfl

/-- In a table of different places, an entry is known by its place. -/
theorem eq_of_sameRank (h : table.Pairwise fun e e' => sameRank e.1 e'.1 = false) (he : e ∈ table)
    (he' : e' ∈ table) (hrank : sameRank e.1 e'.1 = true) : e = e' := by
  have hsymm : Std.Symm fun e e' : Value × ℕ => sameRank e.1 e'.1 = false :=
    ⟨fun e e' hne => Value.sameRank_comm.trans hne⟩
  by_contra hne
  rw [h.forall he he' hne] at hrank
  cases hrank

/-- Tables with the same entries in ascending order are the same. -/
theorem eq_of_perm_of_isAscending (h : table.Pairwise fun e e' => le e.1 e'.1 = true)
    (h' : IsAscending table') (hperm : table.Perm table') : table = table' := by
  refine List.Perm.eq_of_pairwise (fun e e' he he' hle hle' => ?_) h
    (h'.imp fun hlt => Value.le_iff_isLE.mpr (Ordering.isLE_of_eq_lt hlt)) hperm
  exact eq_of_sameRank (h'.imp sameRank_of_lt) (hperm.subset he) he'
    (Value.sameRank_of_le_of_le hle hle')

/-! ### Runs -/

theorem exists_runs_cons (v : Value) (vs : List Value) : ∃ n rest, runs (v :: vs) = (v, n) :: rest := by
  rw [runs.eq_def]
  dsimp only
  split
  · split <;> exact ⟨_, _, rfl⟩
  · exact ⟨_, _, rfl⟩

theorem runs_cons_cons {rest : List (Value × ℕ)} (h : runs (w :: vs) = (w, n) :: rest) :
    runs (v :: w :: vs) =
      if sameRank v w then (v, n + 1) :: rest else (v, 1) :: runs (w :: vs) := by
  rw [runs.eq_def]
  dsimp only
  rw [h]

/-- How the runs of values come about: a value in front of one of its place makes the first run longer,
and in front of any other begins a new one. -/
theorem runs_induction {motive : List Value → List (Value × ℕ) → Prop} (nil : motive [] [])
    (begin : ∀ v vs, (∀ w ∈ vs.head?, sameRank v w = false) → motive vs (runs vs) →
      motive (v :: vs) ((v, 1) :: runs vs))
    (extend : ∀ v w vs n rest, sameRank v w = true → motive (w :: vs) ((w, n) :: rest) →
      motive (v :: w :: vs) ((v, n + 1) :: rest))
    (vs : List Value) : motive vs (runs vs) := by
  induction vs with
  | nil => exact nil
  | cons v vs ih =>
      cases vs with
      | nil => exact begin v [] nofun ih
      | cons w vs =>
          obtain ⟨n, rest, hruns⟩ := exists_runs_cons w vs
          rw [runs_cons_cons hruns]
          by_cases hrank : sameRank v w = true
          · rw [if_pos hrank]
            exact extend v w vs n rest hrank (hruns ▸ ih)
          · rw [if_neg hrank]
            refine begin v (w :: vs) (fun w' hw' => ?_) ih
            obtain rfl := Option.some.inj hw'
            exact Bool.eq_false_iff.mpr hrank

/-- **Runs count every value.** -/
theorem total_runs (vs : List Value) : total (runs vs) = vs.length := by
  refine @runs_induction (fun vs table => total table = vs.length) rfl (fun v vs _ ih => ?_)
    (fun v w vs n rest _ ih => ?_) vs
  · rw [total_cons, ih, List.length_cons, Nat.add_comm]
  · rw [total_cons] at ih ⊢
    rw [List.length_cons, ← ih]
    omega

/-- **Runs list a place as often as it is taken.** -/
theorem listed_runs (vs : List Value) (u : Value) :
    listed (runs vs) u = vs.countP (sameRank u) := by
  refine @runs_induction (fun vs table => listed table u = vs.countP (sameRank u)) rfl
    (fun v vs _ ih => ?_) (fun v w vs n rest hrank ih => ?_) vs
  · rw [listed_cons, ih, List.countP_cons, Nat.add_comm]
  · rw [listed_cons] at ih ⊢
    rw [List.countP_cons, ← ih, Value.sameRank_congr_right hrank]
    split <;> omega

/-- Runs are named by their first values. -/
theorem mem_of_mem_runs (he : e ∈ runs vs) : e.1 ∈ vs := by
  refine @runs_induction (fun vs table => ∀ e ∈ table, e.1 ∈ vs) nofun (fun v vs _ ih e he => ?_)
    (fun v w vs n rest _ ih e he => ?_) vs e he
  · rcases List.mem_cons.mp he with rfl | he
    · exact List.mem_cons_self
    · exact List.mem_cons_of_mem _ (ih e he)
  · rcases List.mem_cons.mp he with rfl | he
    · exact List.mem_cons_self
    · exact List.mem_cons_of_mem _ (ih e (List.mem_cons_of_mem _ he))

/-- A value that does not belong to the first place of the others is below all of them. -/
theorem lt_of_mem_of_head (h : (v :: vs).Pairwise fun v w => le v w = true)
    (hhead : ∀ w ∈ vs.head?, sameRank v w = false) (hu : u ∈ vs) : compareTotal v u = .lt := by
  obtain ⟨w, ws, rfl⟩ := List.exists_cons_of_ne_nil (List.ne_nil_of_mem hu)
  have hvw : compareTotal v w = .lt := by
    have hle := Value.le_iff_isLE.mp (List.rel_of_pairwise_cons h List.mem_cons_self)
    have hne := hhead w rfl
    rw [sameRank] at hne
    cases hcompare : compareTotal v w with
    | lt => rfl
    | eq => rw [hcompare] at hne; cases hne
    | gt => rw [hcompare] at hle; cases hle
  rcases List.mem_cons.mp hu with rfl | hu
  · exact hvw
  · exact Std.TransCmp.lt_of_lt_of_isLE hvw
      (Value.le_iff_isLE.mp (List.rel_of_pairwise_cons h.of_cons hu))

/-- **The runs of values in ascending order ascend strictly.** -/
theorem isAscending_runs (h : vs.Pairwise fun v w => le v w = true) : IsAscending (runs vs) := by
  refine @runs_induction (fun vs table => vs.Pairwise (fun v w => le v w = true) → IsAscending table)
    (fun _ => .nil) (fun v vs hhead ih h => ?_) (fun v w vs n rest hrank ih h => ?_) vs h
  · exact .cons (fun e he => lt_of_mem_of_head h hhead (mem_of_mem_runs he)) (ih h.of_cons)
  · obtain ⟨hhead, hrest⟩ := List.pairwise_cons.mp (ih h.of_cons)
    refine .cons (fun e he => ?_) hrest
    exact (Std.TransCmp.congr_left (Value.sameRank_iff.mp hrank)).trans (hhead e he)

end Stats

end ErrorAnalysis
