import ErrorAnalysis.Proofs.Data.Maps
import ErrorAnalysis.Dataset.Json

/-!
# Datasets in Order

A dataset that was filled instance by instance has every item under its question and every variant
under its own key, and none of them twice.

## Main definitions

* `Item.OwnsVariants`: the variants of an item carry its question.
* `Item.IsFiled`, `Dataset.IsFiled`: everything is where its key says.

## Main results

* `Dataset.isFiled_ofInstances`: **datasets made from instances are in order.**
* `Dataset.isFiled_of_ofJson?`: so are those that are read.
* `Dataset.IsFiled.eq_of_qid_eq`: no question has two items.
* `Dataset.IsFiled.mem_instances_iff`: every instance is found under its key.
-/

namespace ErrorAnalysis

/-! ### Items -/

namespace Item

/-- The keys of the variants of an item. -/
def keys (item : Item) : List InstanceKey :=
  item.instances.map (·.key)

/-- Every variant carries the question of the item in its key. -/
def OwnsVariants (item : Item) : Prop :=
  ∀ k ∈ item.keys, k.qid = item.qid

/-- Every variant is filed under the number in its key, and its key is one of the question. -/
structure IsFiled (item : Item) : Prop where
  sorted : Assoc.Sorted item.variants
  keyed : ∀ e ∈ item.variants, e.2.key = ⟨item.qid, e.1⟩

variable {item : Item} {i : Instance}

theorem mem_instances_of_variant? {vid : ℕ} (h : item.variant? vid = some i) :
    i ∈ item.instances :=
  List.mem_map_of_mem (f := Prod.snd) (Assoc.mem_of_find? h)

theorem isFiled_empty (qid : String) : (empty qid).IsFiled where
  sorted := List.Pairwise.nil
  keyed := fun e he => by cases he

theorem IsFiled.insert (h : item.IsFiled) (hi : i.key.qid = item.qid) :
    (item.insert i).IsFiled where
  sorted := h.sorted.insert
  keyed := by
    intro e he
    rcases Assoc.mem_insert he with rfl | he
    · exact congrArg (InstanceKey.mk · i.key.vid) hi
    · exact h.keyed e he

theorem IsFiled.key_of_variant? (h : item.IsFiled) {vid : ℕ} (hi : item.variant? vid = some i) :
    i.key = ⟨item.qid, vid⟩ :=
  h.keyed _ (Assoc.mem_of_find? hi)

theorem IsFiled.ownsVariants (h : item.IsFiled) : item.OwnsVariants := by
  intro k hk
  obtain ⟨j, hj, rfl⟩ := List.mem_map.mp hk
  obtain ⟨e, he, rfl⟩ := List.mem_map.mp hj
  rw [h.keyed e he]

/-- A key of an item is that of the variant with its number. -/
theorem IsFiled.exists_variant? (h : item.IsFiled) {k : InstanceKey} (hk : k ∈ item.keys) :
    ∃ i, item.variant? k.vid = some i ∧ i.key = k := by
  obtain ⟨j, hj, rfl⟩ := List.mem_map.mp hk
  obtain ⟨e, he, rfl⟩ := List.mem_map.mp hj
  refine ⟨e.2, ?_, rfl⟩
  rw [h.keyed e he]
  exact (Assoc.find?_eq_some_iff_mem h.sorted).mpr he

end Item

/-! ### Datasets -/

namespace Dataset

/-- Every item is filed under its question, and is in order itself. -/
structure IsFiled (d : Dataset) : Prop where
  sorted : Assoc.Sorted d.items
  named : ∀ e ∈ d.items, e.2.qid = e.1
  filed : ∀ e ∈ d.items, e.2.IsFiled

variable {d : Dataset}

/-- The item of a question, or an empty one, is filed under that question. -/
theorem IsFiled.item_getD (h : d.IsFiled) (qid : String) :
    ((Assoc.find? d.items qid).getD (Item.empty qid)).qid = qid ∧
      ((Assoc.find? d.items qid).getD (Item.empty qid)).IsFiled := by
  cases hfind : Assoc.find? d.items qid with
  | none => exact ⟨rfl, Item.isFiled_empty qid⟩
  | some item =>
      have hmem := Assoc.mem_of_find? hfind
      exact ⟨h.named _ hmem, h.filed _ hmem⟩

theorem IsFiled.insert (h : d.IsFiled) (i : Instance) : (d.insert i).IsFiled := by
  obtain ⟨hqid, hitem⟩ := h.item_getD i.key.qid
  refine ⟨h.sorted.insert, fun e he => ?_, fun e he => ?_⟩
  · rcases Assoc.mem_insert he with rfl | he
    · exact hqid
    · exact h.named e he
  · rcases Assoc.mem_insert he with rfl | he
    · exact hitem.insert hqid.symm
    · exact h.filed e he

/-- **Datasets made from instances are in order.** -/
theorem isFiled_ofInstances (is : List Instance) : (ofInstances is).IsFiled := by
  have hempty : ({} : Dataset).IsFiled :=
    ⟨List.Pairwise.nil, fun e he => (by cases he), fun e he => (by cases he)⟩
  have key (d : Dataset) (hd : d.IsFiled) : (is.foldl Dataset.insert d).IsFiled := by
    induction is generalizing d with
    | nil => exact hd
    | cons i is ih => exact ih _ (hd.insert i)
  exact key {} hempty

/-- A dataset that is read is in order. -/
theorem isFiled_of_ofJson? {j : Json} (h : ofJson? j = some d) : d.IsFiled := by
  have hfrequencies (is : List Instance) (frequencies : Assoc String (Assoc String ℕ)) :
      ({ ofInstances is with frequencies } : Dataset).IsFiled :=
    ⟨(isFiled_ofInstances is).sorted, (isFiled_ofInstances is).named,
      (isFiled_ofInstances is).filed⟩
  rw [ofJson?] at h
  obtain ⟨fields, -, h⟩ := Option.bind_eq_some_iff.mp h
  split at h
  · obtain ⟨is, -, h⟩ := Option.bind_eq_some_iff.mp h
    obtain ⟨frequencies, -, h⟩ := Option.bind_eq_some_iff.mp h
    obtain rfl := Option.some.inj h
    exact hfrequencies is frequencies
  · cases h

theorem IsFiled.find?_of_mem (h : d.IsFiled) {item : Item} (hitem : item ∈ d.allItems) :
    d.item? item.qid = some item := by
  obtain ⟨e, he, rfl⟩ := List.mem_map.mp hitem
  rw [item?, h.named e he]
  exact (Assoc.find?_eq_some_iff_mem h.sorted).mpr he

/-- No question has two items. -/
theorem IsFiled.eq_of_qid_eq (h : d.IsFiled) {item item' : Item} (hitem : item ∈ d.allItems)
    (hitem' : item' ∈ d.allItems) (hqid : item.qid = item'.qid) : item = item' := by
  have hfind := h.find?_of_mem hitem
  rw [hqid, h.find?_of_mem hitem'] at hfind
  exact (Option.some.inj hfind).symm

theorem IsFiled.item_of_mem (h : d.IsFiled) {item : Item} (hitem : item ∈ d.allItems) :
    item.IsFiled := by
  obtain ⟨e, he, rfl⟩ := List.mem_map.mp hitem
  exact h.filed e he

/-! ### Instances -/

/-- The item of an instance that is found, and that it has the key. -/
theorem IsFiled.exists_item_of_instance? (h : d.IsFiled) {k : InstanceKey} {i : Instance}
    (hi : d.instance? k = some i) : ∃ item ∈ d.allItems, i ∈ item.instances ∧ i.key = k := by
  obtain ⟨item, hitem, hi⟩ := Option.bind_eq_some_iff.mp hi
  have hmem := Assoc.mem_of_find? hitem
  have hkey := (h.filed _ hmem).key_of_variant? hi
  rw [h.named _ hmem] at hkey
  exact ⟨item, List.mem_map_of_mem (f := Prod.snd) hmem, Item.mem_instances_of_variant? hi, hkey⟩

/-- The instances of a dataset are those that are found under their keys. -/
theorem IsFiled.mem_instances_iff (h : d.IsFiled) {i : Instance} :
    i ∈ d.instances ↔ d.instance? i.key = some i := by
  rw [instances, List.mem_flatMap]
  constructor
  · rintro ⟨item, hitem, hi⟩
    obtain ⟨e, he, rfl⟩ := List.mem_map.mp hi
    rw [instance?, (h.item_of_mem hitem).keyed e he, h.find?_of_mem hitem]
    exact (Assoc.find?_eq_some_iff_mem (h.item_of_mem hitem).sorted).mpr he
  · intro hi
    obtain ⟨item, hitem, hi, -⟩ := h.exists_item_of_instance? hi
    exact ⟨item, hitem, hi⟩

/-- The keys that a condition selects are those under which an instance is found that it holds of. -/
theorem IsFiled.mem_keysWhere (h : d.IsFiled) {p : Instance → Bool} {k : InstanceKey} :
    k ∈ d.keysWhere p ↔ ∃ i, d.instance? k = some i ∧ p i = true := by
  rw [keysWhere, SortedSet.mem_ofList, List.mem_map]
  constructor
  · rintro ⟨i, hi, rfl⟩
    obtain ⟨hi, hp⟩ := List.mem_filter.mp hi
    exact ⟨i, h.mem_instances_iff.mp hi, hp⟩
  · rintro ⟨i, hi, hp⟩
    obtain ⟨-, -, -, rfl⟩ := h.exists_item_of_instance? hi
    exact ⟨i, List.mem_filter.mpr ⟨h.mem_instances_iff.mpr hi, hp⟩, rfl⟩

end Dataset

end ErrorAnalysis
