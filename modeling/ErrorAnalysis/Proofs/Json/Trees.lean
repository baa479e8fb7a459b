import Mathlib.Tactic
import ErrorAnalysis.Json.Reader

/-!
# Trees of JSON

Induction over JSON values, and how deep arrays and objects are nested in one. A reader that goes so
many levels deep and no further finds a value cut off at this depth: in place of the arrays and objects
below stands a part that denotes nothing.

## Main definitions

* `Json.nesting`: how deep arrays and objects are nested.
* `Json.cut`: a value cut off at a depth.

## Main results

* `Json.induction`: induction over values.
* `Json.cut_eq_self`, `Json.nesting_le_of_isReadable_cut`: **a value that is cut off at a depth is
  whole if it is not nested deeper, and not readable otherwise.**
-/

namespace ErrorAnalysis

namespace Json

/-! ### Induction -/

section Induction

variable {motive : Json → Prop}
  (null : motive .null)
  (bool : ∀ b, motive (.bool b))
  (int : ∀ i, motive (.int i))
  (float : ∀ x, motive (.float x))
  (unreadable : motive .unreadable)
  (str : ∀ s, motive (.str s))
  (arr : ∀ items, (∀ j ∈ items, motive j) → motive (.arr items))
  (obj : ∀ fields, (∀ f ∈ fields, motive f.2) → motive (.obj fields))

include null bool int float unreadable str arr obj

/-- **Induction over values.** -/
@[elab_as_elim]
theorem induction (j : Json) : motive j := by
  refine @Json.rec motive (fun items => ∀ j ∈ items, motive j) (fun fields => ∀ f ∈ fields, motive f.2)
    (fun f => motive f.2) null bool int float unreadable str arr obj ?_ ?_ ?_ ?_ ?_ j
  · simp
  · exact fun j items hj hitems => List.forall_mem_cons.mpr ⟨hj, hitems⟩
  · simp
  · exact fun f fields hf hfields => List.forall_mem_cons.mpr ⟨hf, hfields⟩
  · exact fun _ _ h => h

end Induction

/-! ### Item by item -/

section Items

variable {α β : Type} {write : α → β} {read : β → Option α} {xs : List α} {ys : List β}

/-- What is read back item by item is read back as a whole. -/
theorem mapM_map_eq_some (h : ∀ x ∈ xs, read (write x) = some x) :
    (xs.map write).mapM read = some xs := by
  induction xs with
  | nil => rfl
  | cons x xs ih =>
      obtain ⟨hx, hxs⟩ := List.forall_mem_cons.mp h
      rw [List.map_cons, List.mapM_cons, hx, ih hxs]
      rfl

theorem exists_of_mapM_eq_some (h : ys.mapM read = some xs) : ∀ y ∈ ys, ∃ x, read y = some x := by
  induction ys generalizing xs with
  | nil => simp
  | cons y ys ih =>
      rw [List.mapM_cons] at h
      obtain ⟨x, hx, h⟩ := Option.bind_eq_some_iff.mp h
      obtain ⟨xs, hxs, -⟩ := Option.bind_eq_some_iff.mp h
      exact List.forall_mem_cons.mpr ⟨⟨x, hx⟩, ih hxs⟩

end Items

variable {depth : ℕ} {j : Json} {items : List Json} {fields : List (String × Json)}

/-! ### What denotes something -/

theorem isReadable_arr : (Json.arr items).isReadable = true ↔ ∀ j ∈ items, j.isReadable = true := by
  rw [isReadable]
  induction items with
  | nil => simp [areItemsReadable]
  | cons j items ih => rw [areItemsReadable, Bool.and_eq_true, ih, List.forall_mem_cons]

theorem isReadable_obj :
    (Json.obj fields).isReadable = true ↔ ∀ f ∈ fields, f.2.isReadable = true := by
  rw [isReadable]
  induction fields with
  | nil => simp [areFieldsReadable]
  | cons f fields ih => rw [areFieldsReadable, Bool.and_eq_true, ih, List.forall_mem_cons]

/-! ### Nesting -/

mutual

/-- How deep arrays and objects are nested in a value. -/
def nesting : Json → ℕ
  | .arr items => itemsNesting items + 1
  | .obj fields => fieldsNesting fields + 1
  | _ => 0

/-- How deep arrays and objects are nested in the items of an array. -/
def itemsNesting : List Json → ℕ
  | [] => 0
  | j :: items => max (nesting j) (itemsNesting items)

/-- How deep arrays and objects are nested in the fields of an object. -/
def fieldsNesting : List (String × Json) → ℕ
  | [] => 0
  | (_, j) :: fields => max (nesting j) (fieldsNesting fields)

end

theorem nesting_arr_le : (Json.arr items).nesting ≤ depth + 1 ↔ ∀ j ∈ items, j.nesting ≤ depth := by
  rw [nesting, Nat.add_le_add_iff_right]
  induction items with
  | nil => simp [itemsNesting]
  | cons j items ih => rw [itemsNesting, Nat.max_le, ih, List.forall_mem_cons]

theorem nesting_obj_le :
    (Json.obj fields).nesting ≤ depth + 1 ↔ ∀ f ∈ fields, f.2.nesting ≤ depth := by
  rw [nesting, Nat.add_le_add_iff_right]
  induction fields with
  | nil => simp [fieldsNesting]
  | cons f fields ih => rw [fieldsNesting, Nat.max_le, ih, List.forall_mem_cons]

mutual

/-- A value cut off at a depth: arrays and objects below it denote nothing. -/
def cut (depth : ℕ) : Json → Json
  | .arr items => atDepth depth (.arr (cutItems (depth - 1) items))
  | .obj fields => atDepth depth (.obj (cutFields (depth - 1) fields))
  | j => j

/-- The items of an array cut off at a depth. -/
def cutItems (depth : ℕ) : List Json → List Json
  | [] => []
  | j :: items => cut depth j :: cutItems depth items

/-- The fields of an object cut off at a depth. -/
def cutFields (depth : ℕ) : List (String × Json) → List (String × Json)
  | [] => []
  | (name, j) :: fields => (name, cut depth j) :: cutFields depth fields

end

theorem cut_arr : cut depth (.arr items) = atDepth depth (.arr (items.map (cut (depth - 1)))) := by
  have hmap : cutItems (depth - 1) items = items.map (cut (depth - 1)) := by
    induction items with
    | nil => rfl
    | cons j items ih => rw [cutItems, ih, List.map_cons]
  rw [cut, hmap]

theorem cut_obj :
    cut depth (.obj fields) = atDepth depth (.obj (fields.map (Prod.map id (cut (depth - 1))))) := by
  have hmap : cutFields (depth - 1) fields = fields.map (Prod.map id (cut (depth - 1))) := by
    induction fields with
    | nil => rfl
    | cons f fields ih => rw [cutFields, ih, List.map_cons, Prod.map, id]
  rw [cut, hmap]

/-- **A value that is not nested too deep is left whole.** -/
theorem cut_eq_self (h : j.nesting ≤ depth) : cut depth j = j := by
  induction j using induction generalizing depth with
  | arr items ih =>
      obtain ⟨depth, rfl⟩ := Nat.exists_eq_add_of_le' (Nat.one_le_of_lt (Nat.lt_of_succ_le h))
      have hitems : items.map (cut depth) = items.map id :=
        List.map_congr_left fun j hj => ih j hj (nesting_arr_le.mp h j hj)
      rw [cut_arr, Nat.add_sub_cancel, hitems, List.map_id]
      rfl
  | obj fields ih =>
      obtain ⟨depth, rfl⟩ := Nat.exists_eq_add_of_le' (Nat.one_le_of_lt (Nat.lt_of_succ_le h))
      have hfields : fields.map (Prod.map id (cut depth)) = fields.map id :=
        List.map_congr_left fun f hf => Prod.ext rfl (ih f hf (nesting_obj_le.mp h f hf))
      rw [cut_obj, Nat.add_sub_cancel, hfields, List.map_id]
      rfl
  | _ => rfl

/-- **A value that is nested too deep is cut off to one that denotes nothing.** -/
theorem nesting_le_of_isReadable_cut (h : (cut depth j).isReadable = true) : j.nesting ≤ depth := by
  induction j using induction generalizing depth with
  | arr items ih =>
      rw [cut_arr] at h
      cases depth with
      | zero => cases h
      | succ depth =>
          have hitems := isReadable_arr.mp h
          exact nesting_arr_le.mpr fun j hj => ih j hj (hitems _ (List.mem_map_of_mem hj))
  | obj fields ih =>
      rw [cut_obj] at h
      cases depth with
      | zero => cases h
      | succ depth =>
          have hfields := isReadable_obj.mp h
          exact nesting_obj_le.mpr fun f hf => ih f hf (hfields _ (List.mem_map_of_mem hf))
  | _ => exact Nat.zero_le _

end Json

end ErrorAnalysis
