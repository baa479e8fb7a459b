import Mathlib.Tactic
import ErrorAnalysis.PatternCache
import ErrorAnalysis.InstanceKey
import ErrorAnalysis.SortedSet

/-!
# Maps and Sets in Key Order

What is found in a finite map after an entry was put into it or taken out, and what belongs to a
finite set after elements were added. Neither needs the order of the keys; that a map gives back each of
its entries does.

## Main results

* `Assoc.find?_insert_of_ne`, `Assoc.find?_erase_of_ne`: putting an entry or taking a key out changes
  what is found under this key only.
* `Assoc.perm_ofList`: **entries whose keys are all different are the entries of their map.**
* `Assoc.find?_eq_some_iff_mem`: **in a map whose keys ascend, the entries are what is found.**
* `SortedSet.mem_union`, `SortedSet.mem_inter`, `SortedSet.perm_union`: the elements of a union, and those
  that two sets share.
* `SortedSet.length_le_iff`: sizes are compared by what two sets do not share.
-/

namespace ErrorAnalysis

/-! ### Keys of instances -/

namespace InstanceKey

instance : Std.TransOrd InstanceKey :=
  inferInstanceAs (Std.TransCmp (compareLex (compareOn qid) (compareOn vid)))

instance : Std.LawfulEqOrd InstanceKey where
  eq_of_compare := by
    rintro ⟨q, v⟩ ⟨q', v'⟩ h
    obtain ⟨hq, hv⟩ := Ordering.then_eq_eq.mp h
    obtain rfl := Std.LawfulEqOrd.eq_of_compare hq
    obtain rfl := Std.LawfulEqOrd.eq_of_compare hv
    rfl

end InstanceKey

/-! ### Maps -/

namespace Assoc

variable {κ α : Type} [Ord κ] [Std.LawfulEqOrd κ] {m : Assoc κ α} {k k' : κ} {v : α}

theorem find?_cons_self : find? ((k, v) :: m) k = some v := by
  rw [find?, if_pos Std.ReflOrd.compare_self]

theorem find?_cons_of_ne (h : k' ≠ k) : find? ((k, v) :: m) k' = find? m k' := by
  rw [find?, if_neg fun heq => h (Std.LawfulEqOrd.eq_of_compare heq)]

theorem mem_of_find? (h : find? m k = some v) : (k, v) ∈ m := by
  obtain ⟨k', hk, hm⟩ := exists_mem_of_find?_eq_some h
  obtain rfl := Std.LawfulEqOrd.eq_of_compare hk
  exact hm

theorem find?_insert_self : find? (insert m k v) k = some v := by
  induction m with
  | nil => exact find?_cons_self
  | cons e m ih =>
      obtain ⟨k₀, v₀⟩ := e
      rw [insert]
      split
      · exact find?_cons_self
      · exact find?_cons_self
      · next hk =>
          have hne : k ≠ k₀ := by
            rintro rfl
            rw [Std.ReflOrd.compare_self] at hk
            cases hk
          rw [find?_cons_of_ne hne, ih]

/-- Putting an entry changes what is found under its key only. -/
theorem find?_insert_of_ne (h : k' ≠ k) : find? (insert m k v) k' = find? m k' := by
  induction m with
  | nil => exact find?_cons_of_ne h
  | cons e m ih =>
      obtain ⟨k₀, v₀⟩ := e
      rw [insert]
      split
      · exact find?_cons_of_ne h
      · next hk =>
          obtain rfl := Std.LawfulEqOrd.eq_of_compare hk
          rw [find?_cons_of_ne h, find?_cons_of_ne h]
      · rw [find?, find?, ih]

/-- Taking a key out changes what is found under this key only. -/
theorem find?_erase_of_ne (h : k' ≠ k) : find? (erase m k) k' = find? m k' := by
  induction m with
  | nil => rfl
  | cons e m ih =>
      obtain ⟨k₀, v₀⟩ := e
      rw [erase] at ih
      by_cases hk : compare k k₀ = .eq
      · obtain rfl := Std.LawfulEqOrd.eq_of_compare hk
        rw [erase, List.filter_cons_of_neg (by simp), ih, find?_cons_of_ne h]
      · rw [erase, List.filter_cons_of_pos (by simp [hk]), find?, find?, ih]

theorem contains_insert :
    contains (insert m k v) k' = true ↔ k' = k ∨ contains m k' = true := by
  by_cases h : k' = k
  · subst h
    simp [contains, find?_insert_self]
  · simp [contains, find?_insert_of_ne h, h]

/-- What is found after several entries were put into a map is one of them or was there before. -/
theorem mem_of_find?_foldl_insert {entries : List (κ × α)}
    (h : find? (entries.foldl (fun m e => insert m e.1 e.2) m) k = some v) :
    (k, v) ∈ entries ∨ find? m k = some v := by
  induction entries generalizing m with
  | nil => exact .inr h
  | cons e entries ih =>
      rcases ih h with hlater | hnow
      · exact .inl (List.mem_cons_of_mem _ hlater)
      · by_cases hk : k = e.1
        · subst hk
          rw [find?_insert_self] at hnow
          obtain rfl := Option.some.inj hnow
          exact .inl List.mem_cons_self
        · rw [find?_insert_of_ne hk] at hnow
          exact .inr hnow

theorem mem_of_find?_ofList {entries : List (κ × α)} (h : find? (ofList entries) k = some v) :
    (k, v) ∈ entries := by
  rcases mem_of_find?_foldl_insert h with hmem | hnone
  · exact hmem
  · cases hnone

section Lookup

variable [DecidableEq κ] {entries : List (κ × α)}

theorem find?_insert : find? (insert m k v) k' = if k' = k then some v else find? m k' := by
  split
  · next h => rw [h, find?_insert_self]
  · next h => rw [find?_insert_of_ne h]

/-- After several entries were put into a map, the last one of a key is found. -/
theorem find?_foldl_insert : find? (entries.foldl (fun m e => insert m e.1 e.2) m) k =
    (entries.reverse.lookup k).or (find? m k) := by
  induction entries generalizing m with
  | nil => rfl
  | cons e entries ih =>
      rw [List.foldl_cons, ih, find?_insert, List.reverse_cons, List.lookup_append, Option.or_assoc,
        List.lookup_cons]
      by_cases hk : k = e.1
      · simp [hk]
      · simp [hk, beq_eq_false_iff_ne.mpr hk]

/-- After entries were put in for the keys that had none, the first one of a key is found. -/
theorem find?_foldl_insert_absent :
    find? (entries.foldl (fun m e => if contains m e.1 then m else insert m e.1 e.2) m) k =
      (find? m k).or (entries.lookup k) := by
  induction entries generalizing m with
  | nil => rw [List.foldl_nil, List.lookup_nil, Option.or_none]
  | cons e entries ih =>
      rw [List.foldl_cons, ih, List.lookup_cons]
      by_cases hk : k = e.1
      · subst hk
        cases hfind : find? m e.1 with
        | none => simp [contains, hfind, find?_insert]
        | some v => simp [contains, hfind]
      · rw [beq_eq_false_iff_ne.mpr hk]
        split
        · rfl
        · rw [find?_insert_of_ne hk]

end Lookup

omit [Std.LawfulEqOrd κ] in
theorem length_le_length_insert : m.length ≤ (insert m k v).length := by
  induction m with
  | nil => exact Nat.zero_le _
  | cons e m ih =>
      rw [insert]
      split
      · exact Nat.le_succ _
      · exact le_rfl
      · exact Nat.succ_le_succ ih

omit [Std.LawfulEqOrd κ] in
theorem length_insert_le : (insert m k v).length ≤ m.length + 1 := by
  induction m with
  | nil => exact le_rfl
  | cons e m ih =>
      rw [insert]
      split
      · exact le_rfl
      · exact Nat.le_succ _
      · exact Nat.succ_le_succ ih

/-! ### Several entries -/

theorem perm_insert (h : ∀ e ∈ m, e.1 ≠ k) : (insert m k v).Perm ((k, v) :: m) := by
  induction m with
  | nil => exact List.Perm.refl _
  | cons e m ih =>
      obtain ⟨k₀, v₀⟩ := e
      obtain ⟨hhead, htail⟩ := List.forall_mem_cons.mp h
      rw [insert]
      split
      · exact List.Perm.refl _
      · next hk => exact absurd (Std.LawfulEqOrd.eq_of_compare hk).symm hhead
      · exact ((ih htail).cons _).trans (List.Perm.swap _ _ _)

theorem perm_foldl_insert {entries : List (κ × α)} (hnodup : (entries.map Prod.fst).Nodup)
    (hdisjoint : ∀ e ∈ m, e.1 ∉ entries.map Prod.fst) :
    (entries.foldl (fun m e => insert m e.1 e.2) m).Perm (entries ++ m) := by
  induction entries generalizing m with
  | nil => exact List.Perm.refl _
  | cons e entries ih =>
      obtain ⟨hhead, htail⟩ := List.nodup_cons.mp hnodup
      have hinsert : (insert m e.1 e.2).Perm (e :: m) := by
        refine perm_insert fun e' he' heq => hdisjoint e' he' ?_
        rw [heq]
        exact List.mem_cons_self
      have hrest := @ih (insert m e.1 e.2) htail fun e' he' => by
        rcases mem_insert he' with rfl | he'
        · exact hhead
        · exact fun hmem => hdisjoint e' he' (List.mem_cons_of_mem _ hmem)
      exact hrest.trans ((hinsert.append_left entries).trans List.perm_middle)

/-- **Entries whose keys are all different are the entries of their map.** -/
theorem perm_ofList {entries : List (κ × α)} (h : (entries.map Prod.fst).Nodup) :
    (ofList entries).Perm entries := by
  have hperm := perm_foldl_insert (m := []) h fun e he => by cases he
  rwa [List.append_nil] at hperm

/-! ### Ascending keys -/

/-- **In a map whose keys ascend, the entries are what is found.** -/
theorem find?_eq_some_iff_mem (h : Sorted m) : find? m k = some v ↔ (k, v) ∈ m := by
  refine ⟨mem_of_find?, fun hm => ?_⟩
  induction m with
  | nil => cases hm
  | cons e m ih =>
      obtain ⟨k₀, v₀⟩ := e
      obtain ⟨hhead, htail⟩ := List.pairwise_cons.mp h
      rcases List.mem_cons.mp hm with heq | hrest
      · obtain ⟨rfl, rfl⟩ := Prod.mk.inj heq
        exact find?_cons_self
      · have hne : k ≠ k₀ := by
          rintro rfl
          have hlt := hhead _ hrest
          rw [Std.ReflOrd.compare_self] at hlt
          cases hlt
        rw [find?_cons_of_ne hne]
        exact ih htail hrest

/-- A map that is cut in two has the keys in front that are less than all of those behind. -/
theorem find?_of_append {m' : Assoc κ α} (h : Sorted (m ++ m'))
    (hlt : ∀ e ∈ m', compare k e.1 = .lt) (hfind : find? (m ++ m') k = some v) :
    find? m k = some v := by
  have hfront := (List.pairwise_append.mp h).1
  refine (find?_eq_some_iff_mem hfront).mpr ?_
  rcases List.mem_append.mp (mem_of_find? hfind) with hmem | hmem
  · exact hmem
  · have hself := hlt _ hmem
    rw [Std.ReflOrd.compare_self] at hself
    cases hself

omit [Std.LawfulEqOrd κ] in
theorem find?_append_of_some {m' : Assoc κ α} (h : find? m k = some v) :
    find? (m ++ m') k = some v := by
  induction m with
  | nil => cases h
  | cons e m ih =>
      rw [List.cons_append, find?] at *
      split at h
      · next hk => rw [if_pos hk, h]
      · next hk => rw [if_neg hk, ih h]

variable [Std.TransOrd κ]

omit [Std.LawfulEqOrd κ] [Std.TransOrd κ] in
/-- A map that is cut in front of an entry ascends up to the entry. -/
theorem Sorted.upTo {m' : Assoc κ α} (h : Sorted (m ++ (k, v) :: m')) : Sorted (m ++ [(k, v)]) := by
  rw [← List.singleton_append, ← List.append_assoc] at h
  exact (List.pairwise_append.mp h).1

omit [Std.LawfulEqOrd κ] in
/-- No key from an entry on is less than that of the entry. -/
theorem Sorted.isLE_of_mem {m' : Assoc κ α} (h : Sorted (m ++ (k, v) :: m')) {e : κ × α}
    (he : e ∈ (k, v) :: m') : (compare k e.1).isLE = true := by
  have hfrom := (List.pairwise_append.mp h).2.1
  rcases List.mem_cons.mp he with rfl | he
  · rw [Std.ReflOrd.compare_self]
    rfl
  · rw [(List.pairwise_cons.mp hfrom).1 e he]
    rfl

omit [Std.LawfulEqOrd κ] in
/-- An entry whose key is the greatest is put at the end. -/
theorem insert_of_sorted_append (h : Sorted (m ++ [(k, v)])) : insert m k v = m ++ [(k, v)] := by
  induction m with
  | nil => rfl
  | cons e m ih =>
      obtain ⟨hhead, htail⟩ := List.pairwise_cons.mp h
      have hlt : compare e.1 k = .lt := hhead (k, v) (List.mem_append_right _ List.mem_cons_self)
      have hgt : compare k e.1 = .gt := Std.OrientedCmp.gt_iff_lt.mpr hlt
      rw [insert, List.cons_append, ih htail]
      simp only [hgt]

theorem Sorted.insert (h : Sorted m) : Sorted (insert m k v) := by
  induction m with
  | nil => exact List.pairwise_singleton _ _
  | cons e m ih =>
      obtain ⟨k₀, v₀⟩ := e
      obtain ⟨hhead, htail⟩ := List.pairwise_cons.mp h
      rw [Assoc.insert]
      split
      · next hk =>
          refine List.pairwise_cons.mpr ⟨fun e he => ?_, h⟩
          rcases List.mem_cons.mp he with rfl | he
          · exact hk
          · exact Std.TransCmp.lt_trans hk (hhead e he)
      · next hk =>
          obtain rfl := Std.LawfulEqOrd.eq_of_compare hk
          exact List.pairwise_cons.mpr ⟨hhead, htail⟩
      · next hk =>
          refine List.pairwise_cons.mpr ⟨fun e he => ?_, ih htail⟩
          rcases mem_insert he with rfl | he
          · exact Std.OrientedCmp.gt_iff_lt.mp hk
          · exact hhead e he

theorem Sorted.foldl_insert {entries : List (κ × α)} (h : Sorted m) :
    Sorted (entries.foldl (fun m e => Assoc.insert m e.1 e.2) m) := by
  induction entries generalizing m with
  | nil => exact h
  | cons e entries ih => exact ih h.insert

theorem Sorted.foldl_insert_absent {entries : List (κ × α)} (h : Sorted m) :
    Sorted (entries.foldl
      (fun m e => if contains m e.1 then m else Assoc.insert m e.1 e.2) m) := by
  induction entries generalizing m with
  | nil => exact h
  | cons e entries ih =>
      rw [List.foldl_cons]
      split
      · exact ih h
      · exact ih h.insert

theorem sorted_ofList {entries : List (κ × α)} : Sorted (ofList entries) :=
  Sorted.foldl_insert List.Pairwise.nil

/-- Two maps whose keys ascend are the same if they have the same entries. -/
theorem Sorted.eq_of_mem_iff {m' : Assoc κ α} (h : Sorted m) (h' : Sorted m')
    (hmem : ∀ e, e ∈ m ↔ e ∈ m') : m = m' := by
  have hirrefl : Std.Irrefl fun e e' : κ × α => compare e.1 e'.1 = .lt :=
    ⟨fun e he => nomatch Std.ReflOrd.compare_self.symm.trans he⟩
  have hantisymm : Std.Antisymm fun e e' : κ × α => compare e.1 e'.1 = .lt :=
    ⟨fun e e' hlt hgt => nomatch (Std.OrientedCmp.gt_iff_lt.mpr hgt).symm.trans hlt⟩
  exact List.Pairwise.eq_of_mem_iff h h' hmem

/-- It does not matter which of two entries is put into a map first. -/
theorem Sorted.insert_comm [DecidableEq κ] {v' : α} (h : Sorted m) (hne : k ≠ k') :
    Assoc.insert (Assoc.insert m k v) k' v' = Assoc.insert (Assoc.insert m k' v') k v := by
  refine h.insert.insert.eq_of_mem_iff h.insert.insert ?_
  rintro ⟨k₀, v₀⟩
  rw [← find?_eq_some_iff_mem h.insert.insert, ← find?_eq_some_iff_mem h.insert.insert,
    find?_insert, find?_insert, find?_insert, find?_insert]
  by_cases hk : k₀ = k
  · rw [if_pos hk, if_pos hk, if_neg (hk ▸ hne)]
  · rw [if_neg hk, if_neg hk]

/-- A map whose keys ascend is the map of its entries. -/
theorem ofList_of_sorted (h : Sorted m) : ofList m = m := by
  have hnodup : (m.map Prod.fst).Nodup := by
    refine List.pairwise_map.mpr (h.imp fun hlt heq => ?_)
    rw [heq, Std.ReflOrd.compare_self] at hlt
    cases hlt
  exact sorted_ofList.eq_of_mem_iff h fun e => (perm_ofList hnodup).mem_iff

/-- The map of entries whose keys are all different does not depend on their order. -/
theorem ofList_eq_of_perm {entries entries' : List (κ × α)}
    (h : (entries.map Prod.fst).Nodup) (hperm : entries'.Perm entries) :
    ofList entries' = ofList entries := by
  have h' : (entries'.map Prod.fst).Nodup := (hperm.map Prod.fst).nodup_iff.mpr h
  exact sorted_ofList.eq_of_mem_iff sorted_ofList fun e => by
    rw [(perm_ofList h').mem_iff, (perm_ofList h).mem_iff, hperm.mem_iff]

end Assoc

/-! ### Sets -/

namespace SortedSet

variable {κ : Type} [Ord κ] [Std.LawfulEqOrd κ] {s : SortedSet κ} {k k' : κ} {ks : List κ}

theorem mem_insert : k' ∈ insert s k ↔ k' = k ∨ k' ∈ s := by
  induction s with
  | nil => simp [insert]
  | cons k₀ s ih =>
      rw [insert]
      split
      · rw [List.mem_cons]
      · next hk =>
          obtain rfl := Std.LawfulEqOrd.eq_of_compare hk
          rw [List.mem_cons]
          tauto
      · rw [List.mem_cons, List.mem_cons, ih]
        tauto

omit [Std.LawfulEqOrd κ] in
theorem length_insert_le : (insert s k).length ≤ s.length + 1 := by
  induction s with
  | nil => exact le_rfl
  | cons k₀ s ih =>
      rw [insert]
      split
      · exact le_rfl
      · exact Nat.le_succ _
      · exact Nat.succ_le_succ ih

theorem Sorted.insert [Std.TransOrd κ] (h : Sorted s) : Sorted (insert s k) := by
  induction s with
  | nil => exact List.pairwise_singleton _ _
  | cons k₀ s ih =>
      obtain ⟨hhead, htail⟩ := List.pairwise_cons.mp h
      rw [SortedSet.insert]
      split
      · next hk =>
          refine List.pairwise_cons.mpr ⟨fun k' hk' => ?_, h⟩
          rcases List.mem_cons.mp hk' with rfl | hk'
          · exact hk
          · exact Std.TransCmp.lt_trans hk (hhead k' hk')
      · exact h
      · next hk =>
          refine List.pairwise_cons.mpr ⟨fun k' hk' => ?_, ih htail⟩
          rcases mem_insert.mp hk' with rfl | hk'
          · exact Std.OrientedCmp.gt_iff_lt.mp hk
          · exact hhead k' hk'

omit [Std.LawfulEqOrd κ] in
/-- A set has no element twice. -/
theorem Sorted.nodup [Std.TransOrd κ] (h : Sorted s) : s.Nodup :=
  List.Pairwise.imp (fun hlt heq => nomatch (heq ▸ hlt).symm.trans Std.ReflOrd.compare_self) h

/-- Two sets are the same if they have the same elements. -/
theorem Sorted.eq_of_mem_iff [Std.TransOrd κ] {t : SortedSet κ} (h : Sorted s) (h' : Sorted t)
    (hmem : ∀ k, k ∈ s ↔ k ∈ t) : s = t := by
  have hirrefl : Std.Irrefl fun k k' : κ => compare k k' = .lt :=
    ⟨fun k hk => nomatch Std.ReflOrd.compare_self.symm.trans hk⟩
  have hantisymm : Std.Antisymm fun k k' : κ => compare k k' = .lt :=
    ⟨fun k k' hlt hgt => nomatch (Std.OrientedCmp.gt_iff_lt.mpr hgt).symm.trans hlt⟩
  exact List.Pairwise.eq_of_mem_iff h h' hmem

theorem Sorted.insert_insert [Std.TransOrd κ] (h : Sorted s) :
    SortedSet.insert (SortedSet.insert s k) k = SortedSet.insert s k :=
  h.insert.insert.eq_of_mem_iff h.insert fun k' => by
    rw [mem_insert, mem_insert, or_self_left]

theorem sorted_union [Std.TransOrd κ] (h : Sorted s) : Sorted (union s ks) := by
  induction ks generalizing s with
  | nil => exact h
  | cons k ks ih => exact ih h.insert

omit [Std.LawfulEqOrd κ] in
theorem length_union_le : (union s ks).length ≤ s.length + ks.length := by
  induction ks generalizing s with
  | nil => exact le_rfl
  | cons k ks ih =>
      have hunion : union s (k :: ks) = union (insert s k) ks := rfl
      have hinsert : (insert s k).length ≤ s.length + 1 := length_insert_le
      have hrest := @ih (insert s k)
      rw [hunion, List.length_cons]
      omega

theorem mem_union : k ∈ union s ks ↔ k ∈ s ∨ k ∈ ks := by
  induction ks generalizing s with
  | nil => simp [union]
  | cons k₀ ks ih =>
      have hcons : union s (k₀ :: ks) = union (insert s k₀) ks := rfl
      rw [hcons, ih, mem_insert, List.mem_cons]
      tauto

/-- A union does not depend on its brackets. -/
theorem union_assoc [Std.TransOrd κ] {ks' : List κ} (h : Sorted s) :
    union (union s ks) ks' = union s (union ks ks') := by
  refine (sorted_union (sorted_union h)).eq_of_mem_iff (sorted_union h) fun k => ?_
  simp only [mem_union, or_assoc]

theorem mem_ofList : k ∈ ofList ks ↔ k ∈ ks := by
  rw [ofList, mem_union]
  exact or_iff_right List.not_mem_nil

theorem has_eq_true_iff : has s k = true ↔ k ∈ s := by
  simp only [has, List.any_eq_true, beq_iff_eq, Std.LawfulEqOrd.compare_eq_iff_eq, exists_eq_right']

theorem mem_inter {t : SortedSet κ} : k ∈ inter s t ↔ k ∈ s ∧ k ∈ t := by
  rw [inter, List.mem_filter, has_eq_true_iff]

/-- A set of which every element is the same one is empty or has that element. -/
theorem Sorted.eq_nil_or_eq_singleton [Std.TransOrd κ] (h : Sorted s) (hk : ∀ k' ∈ s, k' = k) :
    s = [] ∨ s = [k] := by
  cases s with
  | nil => exact .inl rfl
  | cons k₀ s =>
      obtain rfl := hk k₀ List.mem_cons_self
      refine .inr (h.eq_of_mem_iff (List.pairwise_singleton _ _) fun k' => ?_)
      exact ⟨fun hk' => List.mem_singleton.mpr (hk k' hk'), fun hk' => by
        rw [List.mem_singleton.mp hk']
        exact List.mem_cons_self⟩

/-- The set of a list does not depend on the order of the list. -/
theorem ofList_congr [Std.TransOrd κ] {ks' : List κ} (h : ∀ k, k ∈ ks ↔ k ∈ ks') :
    ofList ks = ofList ks' :=
  (sorted_union List.Pairwise.nil).eq_of_mem_iff (sorted_union List.Pairwise.nil) fun k => by
    exact mem_ofList.trans ((h k).trans mem_ofList.symm)

/-- The union of two sets without a common element has the elements of one and then of the other, but
for the order. -/
theorem perm_union [Std.TransOrd κ] {t : SortedSet κ} (hs : Sorted s) (ht : Sorted t)
    (h : ∀ k ∈ s, k ∉ t) : (union s t).Perm (s ++ t) := by
  have hnodup : (s ++ t).Nodup := List.nodup_append.mpr
    ⟨hs.nodup, ht.nodup, fun k hk k' hk' heq => h k hk (heq ▸ hk')⟩
  refine (List.perm_ext_iff_of_nodup (sorted_union hs).nodup hnodup).mpr fun k => ?_
  rw [mem_union, List.mem_append]

omit [Std.LawfulEqOrd κ] in
/-- Of two sets, one has no more elements than the other iff that holds of those that they do not
share. -/
theorem length_le_iff [Std.TransOrd κ] [DecidableEq κ] {t : SortedSet κ} (hs : Sorted s)
    (ht : Sorted t) :
    s.length ≤ t.length ↔ (s.filter (· ∉ t)).length ≤ (t.filter (· ∉ s)).length := by
  have hshared : (s.filter (· ∈ t)).Perm (t.filter (· ∈ s)) := by
    refine (List.perm_ext_iff_of_nodup (hs.nodup.filter _) (ht.nodup.filter _)).mpr fun k => ?_
    simp only [List.mem_filter, decide_eq_true_eq]
    exact and_comm
  have hsplit (s t : SortedSet κ) :
      s.length = (s.filter (· ∈ t)).length + (s.filter (· ∉ t)).length := by
    simpa using List.length_eq_length_filter_add (l := s) (· ∈ t)
  rw [hsplit s t, hsplit t s, hshared.length_eq, Nat.add_le_add_iff_left]

end SortedSet

end ErrorAnalysis
