import ErrorAnalysis.Proofs.Data.Filing

/-!
# Datasets as Maps of Their Instances

A dataset is filled by inserting one instance after the other, each under its question and there under its
number, in place of the one with its key. Although these are two maps, one inside the other, a dataset is one
map from keys to instances: what is found under a key is the instance with this key that was inserted last, no
item is there without an instance, and a dataset is determined by what is found in it. So it does not matter in
which order instances with different keys come, and everything that a dataset is asked for can be told from the
instances that were inserted.

## Main definitions

* `Dataset.IsMapOf`: a dataset holds the instances that were inserted, and holds nothing else.
* `Dataset.listed?`: the instances that a dataset in JSON lists.

## Main results

* `Dataset.instance?_insert`, `Dataset.instance?_ofInstances`: **the instance that was inserted last is found.**
* `Item.IsFiled.byEdit?_eq_some_iff`: the variant of an edit is the one with the least number.
* `Dataset.IsFiled.items_eq`: **what is found in a dataset determines it.**
* `Dataset.isMapOf_inserted`: **a dataset is a map of the instances that were inserted.**
-/

namespace ErrorAnalysis

/-! ### Items -/

namespace Item

variable {item : Item} {i : Instance} {vid : ℕ} {rid : String}

theorem variant?_insert :
    (item.insert i).variant? vid = if vid = i.key.vid then some i else item.variant? vid :=
  Assoc.find?_insert

theorem variants_insert_ne_nil : (item.insert i).variants ≠ [] := by
  intro hempty
  have hfind : (item.insert i).variant? i.key.vid = some i := variant?_insert.trans (if_pos rfl)
  rw [variant?, hempty] at hfind
  cases hfind

/-- What is first found in a list whose ranks ascend has the lowest rank of all that could be found. -/
theorem find?_eq_some_iff_least {α : Type} {rank : α → ℕ} {p : α → Bool} {xs : List α}
    (h : xs.Pairwise fun x y => rank x < rank y) {x : α} :
    xs.find? p = some x ↔ x ∈ xs ∧ p x = true ∧ ∀ y ∈ xs, p y = true → rank x ≤ rank y := by
  induction xs with
  | nil => simp
  | cons z xs ih =>
      obtain ⟨hz, hxs⟩ := List.pairwise_cons.mp h
      by_cases hp : p z = true
      · rw [List.find?_cons_of_pos hp, Option.some.injEq]
        constructor
        · rintro rfl
          refine ⟨List.mem_cons_self, hp, fun y hy _ => ?_⟩
          rcases List.mem_cons.mp hy with rfl | hy
          · exact le_rfl
          · exact (hz y hy).le
        · rintro ⟨hx, -, hleast⟩
          rcases List.mem_cons.mp hx with rfl | hx
          · rfl
          · have hlt := hz x hx
            have hle := hleast z List.mem_cons_self hp
            omega
      · rw [List.find?_cons_of_neg hp, ih hxs]
        constructor
        · rintro ⟨hx, hpx, hleast⟩
          refine ⟨List.mem_cons_of_mem z hx, hpx, fun y hy hpy => ?_⟩
          rcases List.mem_cons.mp hy with rfl | hy
          · exact absurd hpy hp
          · exact hleast y hy hpy
        · rintro ⟨hx, hpx, hleast⟩
          rcases List.mem_cons.mp hx with rfl | hx
          · exact absurd hpx hp
          · exact ⟨hx, hpx, fun y hy => hleast y (List.mem_cons_of_mem z hy)⟩

/-- **The variant of an edit is the one with the least number** among those that the edit made. -/
theorem IsFiled.byEdit?_eq_some_iff (h : item.IsFiled) (hrid : rid ≠ Instance.noEdit) :
    item.byEdit? rid = some i ↔ item.variant? i.key.vid = some i ∧ i.rid = rid ∧
      ∀ vid j, item.variant? vid = some j → j.rid = rid → i.key.vid ≤ vid := by
  have hranks : item.variants.Pairwise fun e e' => e.1 < e'.1 :=
    h.sorted.imp fun hlt => Nat.compare_eq_lt.mp hlt
  have hfind (e : ℕ × Instance) : List.find? (fun e => e.2.rid == rid) item.variants = some e ↔
      item.variant? e.1 = some e.2 ∧ e.2.rid = rid ∧
        ∀ vid j, item.variant? vid = some j → j.rid = rid → e.1 ≤ vid := by
    rw [find?_eq_some_iff_least hranks, variant?, Assoc.find?_eq_some_iff_mem h.sorted, beq_iff_eq]
    refine and_congr_right' (and_congr_right' ⟨fun hleast vid j hj hrid => ?_, fun hleast e he hrid => ?_⟩)
    · exact hleast (vid, j) (Assoc.mem_of_find? hj) (beq_iff_eq.mpr hrid)
    · exact hleast e.1 e.2 ((Assoc.find?_eq_some_iff_mem h.sorted).mpr he) (beq_iff_eq.mp hrid)
  rw [byEdit?, if_neg hrid, Assoc.values, List.find?_map, Option.map_eq_some_iff]
  constructor
  · rintro ⟨e, he, rfl⟩
    have hfound := (hfind e).mp he
    rwa [h.key_of_variant? hfound.1]
  · intro hi
    exact ⟨(i.key.vid, i), (hfind _).mpr hi, rfl⟩

end Item

/-! ### Datasets -/

namespace Dataset

variable {d d' : Dataset} {i : Instance} {k : InstanceKey}

/-- **The instance that was inserted is found under its key,** and nothing else has changed. -/
theorem instance?_insert : (d.insert i).instance? k = if k = i.key then some i else d.instance? k := by
  rw [instance?, instance?, item?, insert, Assoc.find?_insert]
  by_cases hqid : k.qid = i.key.qid
  · rw [if_pos hqid, Option.bind_some, Item.variant?_insert]
    by_cases hvid : k.vid = i.key.vid
    · have hk : k = i.key := by
        obtain ⟨qid, vid⟩ := k
        exact congrArg₂ InstanceKey.mk hqid hvid
      rw [if_pos hvid, if_pos hk]
    · rw [if_neg hvid, if_neg fun hk => hvid (congrArg InstanceKey.vid hk), item?, hqid]
      cases Assoc.find? d.items i.key.qid <;> rfl
  · rw [if_neg hqid, if_neg fun hk => hqid (congrArg InstanceKey.qid hk), item?]

theorem ofInstances_append (is : List Instance) (i : Instance) :
    ofInstances (is ++ [i]) = (ofInstances is).insert i :=
  List.foldl_append

/-- **Of several instances with one key the one that was inserted last is found.** -/
theorem instance?_ofInstances (is : List Instance) (k : InstanceKey) :
    (ofInstances is).instance? k = (is.filter fun i => i.key = k).getLast? := by
  induction is using List.reverseRecOn with
  | nil => rfl
  | append_singleton is i ih =>
      rw [ofInstances_append, instance?_insert, List.filter_append, ih]
      by_cases hk : k = i.key
      · simp [hk]
      · simp [hk, Ne.symm hk]

/-! ### Items are not empty -/

/-- No item is there without an instance. -/
def HasNoEmptyItem (d : Dataset) : Prop :=
  ∀ e ∈ d.items, e.2.variants ≠ []

theorem hasNoEmptyItem_insert (h : d.HasNoEmptyItem) (i : Instance) :
    (d.insert i).HasNoEmptyItem := by
  intro e he
  rcases Assoc.mem_insert he with rfl | he
  · exact Item.variants_insert_ne_nil
  · exact h e he

theorem hasNoEmptyItem_ofInstances (is : List Instance) : (ofInstances is).HasNoEmptyItem := by
  induction is using List.reverseRecOn with
  | nil => exact fun e he => nomatch he
  | append_singleton is i ih =>
      rw [ofInstances_append]
      exact hasNoEmptyItem_insert ih i

/-- An item has an instance, which is found in the dataset. -/
theorem IsFiled.exists_instance? (h : d.IsFiled) (hd : d.HasNoEmptyItem) {qid : String} {item : Item}
    (hitem : d.item? qid = some item) : ∃ vid i, d.instance? ⟨qid, vid⟩ = some i := by
  have hmem := Assoc.mem_of_find? hitem
  obtain ⟨e, he⟩ := List.exists_mem_of_ne_nil _ (hd _ hmem)
  refine ⟨e.1, e.2, ?_⟩
  rw [instance?, hitem, Option.bind_some]
  exact (Assoc.find?_eq_some_iff_mem (h.filed _ hmem).sorted).mpr he

/-- An item is found with the same variants in every dataset in which the same is found. -/
theorem IsFiled.item?_of_instance?_eq (h : d.IsFiled) (hd : d.HasNoEmptyItem) (h' : d'.IsFiled)
    (hsame : ∀ k, d'.instance? k = d.instance? k) {qid : String} {item : Item}
    (hitem : d.item? qid = some item) : d'.item? qid = some item := by
  obtain ⟨vid, i, hi⟩ := h.exists_instance? hd hitem
  rw [← hsame] at hi
  obtain ⟨item', hitem', -⟩ := Option.bind_eq_some_iff.mp hi
  have hmem := Assoc.mem_of_find? hitem
  have hmem' := Assoc.mem_of_find? hitem'
  have hvariants : item'.variants = item.variants := by
    refine (h'.filed _ hmem').sorted.eq_of_mem_iff (h.filed _ hmem).sorted fun e => ?_
    have hfind := hsame ⟨qid, e.1⟩
    rw [instance?, instance?, hitem, hitem', Option.bind_some, Option.bind_some] at hfind
    rw [← Assoc.find?_eq_some_iff_mem (h'.filed _ hmem').sorted,
      ← Assoc.find?_eq_some_iff_mem (h.filed _ hmem).sorted]
    exact iff_of_eq (congrArg (· = some e.2) hfind)
  have hqid : item'.qid = item.qid := (h'.named _ hmem').trans (h.named _ hmem).symm
  rw [hitem']
  obtain ⟨q, vs⟩ := item
  obtain ⟨q', vs'⟩ := item'
  obtain rfl := hqid
  obtain rfl := hvariants
  rfl

/-- **What is found in a dataset determines its items.** -/
theorem IsFiled.items_eq (h : d.IsFiled) (hd : d.HasNoEmptyItem) (h' : d'.IsFiled)
    (hd' : d'.HasNoEmptyItem) (hsame : ∀ k, d'.instance? k = d.instance? k) : d'.items = d.items := by
  refine h'.sorted.eq_of_mem_iff h.sorted fun e => ?_
  rw [← Assoc.find?_eq_some_iff_mem h'.sorted, ← Assoc.find?_eq_some_iff_mem h.sorted]
  exact ⟨h'.item?_of_instance?_eq hd' h fun k => (hsame k).symm, h.item?_of_instance?_eq hd h' hsame⟩

/-! ### What was inserted -/

/-- The instance is the variant with the least number among those of a question that an edit made. -/
def IsFirstByEdit (d : Dataset) (qid rid : String) (i : Instance) : Prop :=
  i.key.qid = qid ∧ d.instance? i.key = some i ∧ i.rid = rid ∧
    ∀ j, d.instance? j.key = some j → j.key.qid = qid → j.rid = rid → i.key.vid ≤ j.key.vid

/-- A dataset holds the instances that were inserted, of several with one key the last, and nothing else. -/
structure IsMapOf (d : Dataset) (is : List Instance) : Prop where
  /-- There are items for the questions of the instances. -/
  items : ∀ qid, (∃ item, d.item? qid = some item) ↔ ∃ i ∈ is, i.key.qid = qid
  /-- An item is filed under its question. -/
  question : ∀ qid item, d.item? qid = some item → item.qid = qid
  /-- A variant is filed under its number, and its key is made of both. -/
  key : ∀ qid item vid i, d.item? qid = some item → item.variant? vid = some i → i.key = ⟨qid, vid⟩
  last : ∀ k, d.instance? k = (is.filter fun i => i.key = k).getLast?
  mem_uneditedKeys : ∀ k, k ∈ d.uneditedKeys ↔ k.vid = 0 ∧ ∃ i ∈ is, i.key = k
  mem_editedKeys : ∀ k, k ∈ d.editedKeys ↔ k.vid ≠ 0 ∧ ∃ i ∈ is, i.key = k
  /-- No edit made the unedited variant, whatever it says of itself. -/
  noEdit : ∀ qid item, d.item? qid = some item →
    item.byEdit? Instance.noEdit = d.instance? (InstanceKey.unedited qid)
  edit : ∀ qid item rid i, d.item? qid = some item → rid ≠ Instance.noEdit →
    (item.byEdit? rid = some i ↔ d.IsFirstByEdit qid rid i)

/-- Two ways to insert the same instances, with those of each key in the same order. -/
def SameByKey (is js : List Instance) : Prop :=
  ∀ k, (js.filter fun i => i.key = k) = is.filter fun i => i.key = k

/-- Neighbours with different keys can change places. -/
theorem sameByKey_swap {j : Instance} (h : i.key ≠ j.key) (front back : List Instance) :
    SameByKey (front ++ i :: j :: back) (front ++ j :: i :: back) := by
  intro k
  rw [List.filter_append, List.filter_append, List.filter_cons, List.filter_cons, List.filter_cons,
    List.filter_cons]
  by_cases hi : i.key = k
  · have hj : j.key ≠ k := fun hj => h (hi.trans hj.symm)
    simp [hi, hj]
  · simp [hi]

/-- The instances that a dataset in JSON lists. -/
def listed? (j : Json) : Option (List Instance) := do
  match ← j.record? ["instances", "frequencies"] with
  | [instances, _] => Json.required? (Json.array? Instance.ofJson?) instances
  | _ => none

/-- A dataset that is read has the instances that are listed inserted one after the other. -/
theorem exists_listed_of_ofJson? {j : Json} (h : ofJson? j = some d) :
    ∃ is, listed? j = some is ∧ d = { ofInstances is with frequencies := d.frequencies } := by
  rw [ofJson?] at h
  obtain ⟨fields, hfields, h⟩ := Option.bind_eq_some_iff.mp h
  rw [listed?, hfields]
  split at h
  · next instances frequencies =>
      obtain ⟨is, his, h⟩ := Option.bind_eq_some_iff.mp h
      obtain ⟨table, -, h⟩ := Option.bind_eq_some_iff.mp h
      obtain rfl := Option.some.inj h
      exact ⟨is, his, rfl⟩
  · cases h

section Inserted

variable {is : List Instance}

/-- An instance is found under a key if one with this key was inserted. -/
theorem exists_instance?_ofInstances_iff :
    (∃ i, (ofInstances is).instance? k = some i) ↔ ∃ i ∈ is, i.key = k := by
  rw [instance?_ofInstances, ← Option.isSome_iff_exists, List.getLast?_isSome]
  constructor
  · intro hne
    obtain ⟨i, hi⟩ := List.exists_mem_of_ne_nil _ hne
    obtain ⟨hmem, hkey⟩ := List.mem_filter.mp hi
    exact ⟨i, hmem, of_decide_eq_true hkey⟩
  · rintro ⟨i, hmem, hkey⟩
    exact List.ne_nil_of_mem (List.mem_filter.mpr ⟨hmem, decide_eq_true hkey⟩)

/-- The keys that a condition on keys selects are those of the instances that it holds of. -/
theorem mem_keysWhere_ofInstances {p : Instance → Bool} {q : InstanceKey → Prop}
    (hp : ∀ i, p i = true ↔ q i.key) :
    k ∈ (ofInstances is).keysWhere p ↔ q k ∧ ∃ i ∈ is, i.key = k := by
  have hfiled := isFiled_ofInstances is
  rw [hfiled.mem_keysWhere, ← exists_instance?_ofInstances_iff]
  constructor
  · rintro ⟨i, hi, hpi⟩
    obtain ⟨-, -, -, rfl⟩ := hfiled.exists_item_of_instance? hi
    exact ⟨(hp i).mp hpi, i, hi⟩
  · rintro ⟨hq, i, hi⟩
    obtain ⟨-, -, -, rfl⟩ := hfiled.exists_item_of_instance? hi
    exact ⟨i, hi, (hp i).mpr hq⟩

theorem isMapOf_ofInstances (is : List Instance) : (ofInstances is).IsMapOf is where
  items qid := by
    have hfiled := isFiled_ofInstances is
    constructor
    · rintro ⟨item, hitem⟩
      obtain ⟨vid, hfound⟩ := hfiled.exists_instance? (hasNoEmptyItem_ofInstances is) hitem
      obtain ⟨i, hmem, hkey⟩ := exists_instance?_ofInstances_iff.mp hfound
      exact ⟨i, hmem, congrArg InstanceKey.qid hkey⟩
    · rintro ⟨i, hmem, rfl⟩
      obtain ⟨j, hj⟩ := exists_instance?_ofInstances_iff.mpr ⟨i, hmem, rfl⟩
      obtain ⟨item, hitem, -⟩ := Option.bind_eq_some_iff.mp hj
      exact ⟨item, hitem⟩
  question qid item hitem := (isFiled_ofInstances is).named _ (Assoc.mem_of_find? hitem)
  key qid item vid i hitem hi := by
    have hmem := Assoc.mem_of_find? hitem
    have hkey := ((isFiled_ofInstances is).filed _ hmem).key_of_variant? hi
    rwa [(isFiled_ofInstances is).named _ hmem] at hkey
  last := instance?_ofInstances is
  mem_uneditedKeys k := by
    refine mem_keysWhere_ofInstances (q := fun k => k.vid = 0) fun i => ?_
    exact beq_iff_eq
  mem_editedKeys k := by
    refine mem_keysWhere_ofInstances (q := fun k => k.vid ≠ 0) fun i => ?_
    rw [Bool.not_eq_true']
    exact beq_eq_false_iff_ne
  noEdit qid item hitem := by
    rw [Item.byEdit?, if_pos rfl, instance?, InstanceKey.unedited, hitem, Option.bind_some,
      Item.unedited?]
  edit qid item rid i hitem hrid := by
    have hmem := Assoc.mem_of_find? hitem
    have hnamed := (isFiled_ofInstances is).named _ hmem
    have hfind (vid : ℕ) : item.variant? vid = (ofInstances is).instance? ⟨qid, vid⟩ := by
      rw [instance?, hitem, Option.bind_some]
    have hkey {vid : ℕ} {j : Instance} (hj : item.variant? vid = some j) : j.key = ⟨qid, vid⟩ := by
      rw [((isFiled_ofInstances is).filed _ hmem).key_of_variant? hj, hnamed]
    rw [((isFiled_ofInstances is).filed _ hmem).byEdit?_eq_some_iff hrid, IsFirstByEdit]
    constructor
    · rintro ⟨hi, hmade, hleast⟩
      refine ⟨congrArg InstanceKey.qid (hkey hi), ?_, hmade, ?_⟩
      · rw [hkey hi, ← hfind]
        exact hi
      · rintro j hj rfl hjmade
        refine hleast j.key.vid j ?_ hjmade
        rw [hfind]
        exact hj
    · rintro ⟨rfl, hi, hmade, hleast⟩
      refine ⟨(hfind _).trans hi, hmade, fun vid j hj hjmade => ?_⟩
      have hjkey := hkey hj
      have hfound : (ofInstances is).instance? j.key = some j := by rw [hjkey, ← hfind, hj]
      have hle := hleast j hfound (hjkey ▸ rfl) hjmade
      rwa [hjkey] at hle

end Inserted

/-- What two ways to insert the same instances make is the same. -/
theorem ofInstances_eq_of_sameByKey {is js : List Instance} (h : SameByKey is js) :
    ofInstances js = ofInstances is := by
  have hfrequencies (is : List Instance) : (ofInstances is).frequencies = [] := by
    induction is using List.reverseRecOn with
    | nil => rfl
    | append_singleton is i ih => rw [ofInstances_append]; exact ih
  have hitems : (ofInstances js).items = (ofInstances is).items := by
    refine (isFiled_ofInstances is).items_eq (hasNoEmptyItem_ofInstances is) (isFiled_ofInstances js)
      (hasNoEmptyItem_ofInstances js) fun k => ?_
    rw [instance?_ofInstances, instance?_ofInstances, h]
  have heq (d : Dataset) : d = ⟨d.items, d.frequencies⟩ := rfl
  rw [heq (ofInstances js), heq (ofInstances is), hitems, hfrequencies, hfrequencies]

/-- **A dataset is a map of the instances that were inserted.** It holds the last one of each key and nothing
else; it is the same if the instances are inserted in another order, as long as those with one key stay in
theirs; and one that is read from a text is made by inserting the instances that are listed there. -/
theorem isMapOf_inserted (is : List Instance) (frequencies : Assoc String (Assoc String ℕ)) :
    ({ ofInstances is with frequencies } : Dataset).IsMapOf is ∧
      (∀ js, SameByKey is js →
        ({ ofInstances js with frequencies } : Dataset) = { ofInstances is with frequencies }) ∧
      ∀ text d, ofText? text = some d → ∃ j listed, Json.parse? text = some j ∧
        listed? j = some listed ∧ d = { ofInstances listed with frequencies := d.frequencies } := by
  refine ⟨?_, fun js hsame => ?_, fun text d hd => ?_⟩
  · -- Nothing that the map is about looks at the frequencies.
    obtain ⟨items, question, key, last, huned, hed, noEdit, edit⟩ := isMapOf_ofInstances is
    exact ⟨items, question, key, last, huned, hed, noEdit, edit⟩
  · rw [ofInstances_eq_of_sameByKey hsame]
  · obtain ⟨j, hj, hd⟩ := Option.bind_eq_some_iff.mp hd
    obtain ⟨listed, hlisted, heq⟩ := exists_listed_of_ofJson? hd
    exact ⟨j, listed, hj, hlisted, heq⟩

/-- A variant that is inserted again takes the place of the one before, and the other question may as well
come first. -/
theorem isMapOf_inserted_again :
    let first : Instance := ⟨⟨"q1", 1⟩, "swap", [("n", .num 2)]⟩
    let again : Instance := ⟨⟨"q1", 1⟩, "swap", [("n", .num 3)]⟩
    let other : Instance := ⟨⟨"q2", 0⟩, Instance.noEdit, []⟩
    SameByKey [first, again, other] [first, other, again] ∧
      ofInstances [first, other, again] = ofInstances [first, again, other] ∧
      (ofInstances [first, other, again]).instance? ⟨"q1", 1⟩ = some again := by
  intro first again other
  have hne : again.key ≠ other.key := by decide
  have hsame : SameByKey [first, again, other] [first, other, again] := sameByKey_swap hne [first] []
  obtain ⟨hmap, horder, -⟩ := isMapOf_inserted [first, again, other] []
  refine ⟨hsame, horder _ hsame, ?_⟩
  have hlast := hmap.last ⟨"q1", 1⟩
  rw [← horder _ hsame] at hlast
  exact hlast

end Dataset

end ErrorAnalysis
