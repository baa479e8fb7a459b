import ErrorAnalysis.Proofs.Data.Maps
import ErrorAnalysis.Proofs.Evaluation.Congruence

/-!
# References among Attributes

A tree reaches the attributes that it refers to, and those that their trees reach. If none of them
reaches itself, the number of attributes bounds how many are expanded inside of each other: from
there on more depth does not change a value. Nor does a change of attributes that are not reached.

## Main definitions

* `Registry.Refers`, `Registry.Reaches`, `Registry.ReachesGroup`: references of attributes and of trees.
* `Registry.IsAcyclic`: no attribute that a tree reaches refers to itself.
* `Registry.Visits`: the nodes of a tree and of the attributes that it reaches.

## Main results

* `Registry.evaluateAt_congr`: **evaluation depends on the blocks that are reached, and on the depth
  only up to the number of attributes.**
* `Registry.evaluateAt_saveAttribute`: a new attribute changes nothing where it is not reached.
* `Registry.evaluateAt_congr_on`: **with the same blocks, evaluation on an item depends on the
  identifiers and calls that it visits.**
-/

namespace ErrorAnalysis

namespace Registry

/-! ### References -/

/-- The tree of an attribute refers to another attribute. -/
def Refers (r : Registry) (name other : String) : Prop :=
  ∃ a, Assoc.find? r.attributes name = some a ∧ (.attr, other) ∈ a.query.root.blockRefs

/-- A tree refers to an attribute, by itself or through other attributes. -/
def Reaches (r : Registry) (x : Expr) (name : String) : Prop :=
  ∃ first, (.attr, first) ∈ x.blockRefs ∧ Relation.ReflTransGen r.Refers first name

/-- A tree refers to a group, by itself or through attributes. -/
def ReachesGroup (r : Registry) (x : Expr) (name : String) : Prop :=
  (.group, name) ∈ x.blockRefs ∨
    ∃ other a, r.Reaches x other ∧ Assoc.find? r.attributes other = some a ∧
      (.group, name) ∈ a.query.root.blockRefs

/-- No attribute that a tree reaches refers to itself, by itself or through other attributes. -/
def IsAcyclic (r : Registry) (x : Expr) : Prop :=
  ∀ name, r.Reaches x name → ¬ Relation.TransGen r.Refers name name

variable {r r' : Registry} {x : Expr} {name other : String} {a : Attribute}

theorem reaches_of_mem (h : (.attr, name) ∈ x.blockRefs) : r.Reaches x name :=
  ⟨name, h, .refl⟩

theorem refers_of_reaches (hfind : Assoc.find? r.attributes name = some a)
    (h : r.Reaches a.query.root other) : Relation.TransGen r.Refers name other := by
  obtain ⟨first, hfirst, hsteps⟩ := h
  exact Relation.TransGen.head' ⟨a, hfind, hfirst⟩ hsteps

/-- What the tree of an attribute reaches is reached by all trees that refer to the attribute. -/
theorem Reaches.trans (hfind : Assoc.find? r.attributes name = some a)
    (hname : r.Reaches x name) (h : r.Reaches a.query.root other) : r.Reaches x other := by
  obtain ⟨first, hfirst, hsteps⟩ := hname
  exact ⟨first, hfirst, hsteps.trans (refers_of_reaches hfind h).to_reflTransGen⟩

theorem ReachesGroup.attribute (hname : r.Reaches x name)
    (hfind : Assoc.find? r.attributes name = some a) {group : String}
    (h : r.ReachesGroup a.query.root group) : r.ReachesGroup x group := by
  rcases h with hmem | ⟨other, b, hother, hb, hmem⟩
  · exact .inr ⟨name, a, hname, hfind, hmem⟩
  · exact .inr ⟨other, b, hname.trans hfind hother, hb, hmem⟩

theorem IsAcyclic.attribute (h : r.IsAcyclic x) (hname : r.Reaches x name)
    (hfind : Assoc.find? r.attributes name = some a) : r.IsAcyclic a.query.root :=
  fun other hother => h other (hname.trans hfind hother)

/-- An attribute is not reached from its own tree. -/
theorem IsAcyclic.not_reaches (h : r.IsAcyclic x) (hname : r.Reaches x name)
    (hfind : Assoc.find? r.attributes name = some a) : ¬ r.Reaches a.query.root name :=
  fun hself => h name hname (refers_of_reaches hfind hself)

/-! ### Depth -/

/-- How attributes are expanded at a depth. -/
def expansion (r : Registry) : ℕ → Expansion Traced
  | 0 => fun name _ _ => throw (.circular name)
  | depth + 1 => fun _ => r.evaluateAt depth

theorem evaluateAt_eq (depth : ℕ) : r.evaluateAt depth = r.evaluateWith (r.expansion depth) := by
  cases depth <;> rfl

/-- **Evaluation depends on the blocks that are reached, and on the depth only up to the number of
attributes.** Expanding one of the names takes it off the list, since its tree does not reach it. -/
theorem evaluateAt_congr (h : r.Alike r') (names : List String) {n m : ℕ}
    (hgroups : ∀ name, r.ReachesGroup x name →
      Assoc.find? r'.groups name = Assoc.find? r.groups name)
    (hsame : ∀ name, r.Reaches x name →
      Assoc.find? r'.attributes name = Assoc.find? r.attributes name)
    (hacyclic : r.IsAcyclic x)
    (hnames : ∀ name a, r.Reaches x name → Assoc.find? r.attributes name = some a → name ∈ names)
    (hn : names.length ≤ n) (hm : names.length ≤ m) (s : Scope) :
    r'.evaluateAt m x s = r.evaluateAt n x s := by
  induction n using Nat.strong_induction_on generalizing m x names s with
  | _ n ih =>
      rw [evaluateAt_eq, evaluateAt_eq]
      refine evaluateWith_congr h (fun b hb s => ?_) s
      obtain ⟨kind, name⟩ := b
      refine block_congr ?_ ?_ ?_
      · rintro rfl
        exact hsame name (reaches_of_mem hb)
      · rintro rfl
        exact hgroups name (.inl hb)
      · rintro a i rfl hfind
        have hreach : r.Reaches x name := reaches_of_mem hb
        have hmem := hnames name a hreach hfind
        have hlength := List.length_erase_of_mem hmem
        have hpos := List.length_pos_of_mem hmem
        obtain ⟨n, rfl⟩ : ∃ k, n = k + 1 := ⟨n - 1, by omega⟩
        obtain ⟨m, rfl⟩ : ∃ k, m = k + 1 := ⟨m - 1, by omega⟩
        refine ih n (Nat.lt_succ_self n) (names.erase name) ?_ ?_
          (hacyclic.attribute hreach hfind) ?_ (by omega) (by omega) { s with edit := i.rid }
        · exact fun group hgroup => hgroups group (hgroup.attribute hreach hfind)
        · exact fun other hother => hsame other (hreach.trans hfind hother)
        · intro other b hother hb
          have hne : other ≠ name := by
            rintro rfl
            exact hacyclic.not_reaches hreach hfind hother
          exact (List.mem_erase_of_ne hne).mpr (hnames other b (hreach.trans hfind hother) hb)

/-- Where the depth is at least the number of attributes, evaluation is as with all depth there is,
also after a change of blocks that are not reached. -/
theorem evaluateAt_eq_evaluate (h : r.Alike r') {m : ℕ}
    (hgroups : ∀ name, r.ReachesGroup x name →
      Assoc.find? r'.groups name = Assoc.find? r.groups name)
    (hsame : ∀ name, r.Reaches x name →
      Assoc.find? r'.attributes name = Assoc.find? r.attributes name)
    (hacyclic : r.IsAcyclic x) (hm : r.attributes.length ≤ m) (s : Scope) :
    r'.evaluateAt m x s = r.evaluate x s := by
  have hlength : (Assoc.keys r.attributes).length = r.attributes.length := List.length_map _
  refine evaluateAt_congr h (Assoc.keys r.attributes) hgroups hsame hacyclic ?_ ?_ ?_ s
  · intro name a _ hfind
    exact List.mem_map_of_mem (f := Prod.fst) (Assoc.mem_of_find? hfind)
  · rw [hlength, maxDepth]
    omega
  · omega

/-- A new attribute does not change the values of the trees that do not reach it. -/
theorem evaluateAt_saveAttribute (hacyclic : r.IsAcyclic x) (hself : ¬ r.Reaches x a.name)
    (asked : List String) {m : ℕ} (hm : r.attributes.length ≤ m) (s : Scope) :
    ((r.remember asked).saveAttribute a).evaluateAt m x s = r.evaluate x s := by
  have halike : r.Alike ((r.remember asked).saveAttribute a) := ⟨rfl, rfl⟩
  refine evaluateAt_eq_evaluate halike (fun _ _ => rfl) ?_ hacyclic hm s
  intro name hreach
  have hne : name ≠ a.name := by
    rintro rfl
    exact hself hreach
  exact Assoc.find?_insert_of_ne hne

/-- A tree without blocks has the same value in all registries that are alike. -/
theorem evaluate_congr_of_no_blocks (h : r.Alike r') (hrefs : x.blockRefs = []) (s : Scope) :
    r'.evaluate x s = r.evaluate x s := by
  rw [evaluate, evaluate, evaluateAt_eq, evaluateAt_eq]
  refine evaluateWith_congr h (fun b hb => ?_) s
  rw [hrefs] at hb
  cases hb

/-! ### Nodes -/

/-- A node is one of the tree, or one of the tree of an attribute that is reached. -/
def Visits (r : Registry) (x y : Expr) : Prop :=
  x.HasNode y ∨ ∃ name a, r.Reaches x name ∧ Assoc.find? r.attributes name = some a ∧
    a.query.root.HasNode y

theorem Visits.attribute {y : Expr} (hname : r.Reaches x name)
    (hfind : Assoc.find? r.attributes name = some a) (h : r.Visits a.query.root y) :
    r.Visits x y := by
  rcases h with hnode | ⟨other, b, hother, hb, hnode⟩
  · exact .inr ⟨name, a, hname, hfind, hnode⟩
  · exact .inr ⟨other, b, hname.trans hfind hother, hb, hnode⟩

/-- **With the same functions and blocks, a tree has the same value on an item if the identifiers and
calls that it visits do the same.** The depth goes down by one with each attribute. -/
theorem evaluateAt_congr_on {item : Item} (hfunctions : r'.functions = r.functions)
    (hattributes : r'.attributes = r.attributes) (hgroups : r'.groups = r.groups)
    (hnode : ∀ y, r.Visits x y → ∀ depth, AgreeAt r r' (r.expansion depth) item y) (depth : ℕ)
    {s : Scope} (hs : s.item = item) : r'.evaluateAt depth x s = r.evaluateAt depth x s := by
  induction depth generalizing x s with
  | zero =>
      rw [evaluateAt_eq, evaluateAt_eq]
      refine evaluateWith_congr_on hfunctions (fun b _ s _ => ?_)
        (fun y hy => hnode y (.inl hy) 0) hs
      exact block_congr (fun _ => by rw [hattributes]) (fun _ => by rw [hgroups])
        fun _ _ _ _ => rfl
  | succ depth ih =>
      rw [evaluateAt_eq, evaluateAt_eq]
      refine evaluateWith_congr_on hfunctions (fun b hb s hs => ?_)
        (fun y hy => hnode y (.inl hy) (depth + 1)) hs
      obtain ⟨kind, name⟩ := b
      refine block_congr (fun _ => by rw [hattributes]) (fun _ => by rw [hgroups]) ?_
      rintro a i rfl hfind
      exact ih (fun y hy => hnode y (hy.attribute (reaches_of_mem hb) hfind)) hs

/-! ### Saved attributes -/

theorem find?_saveAttribute_self :
    Assoc.find? (r.saveAttribute a).attributes a.name = some a :=
  Assoc.find?_insert_self

theorem length_le_length_saveAttribute :
    r.attributes.length ≤ (r.saveAttribute a).attributes.length :=
  Assoc.length_le_length_insert

/-! ### An attribute without values -/

/-- The attribute for the count, with nothing recorded. -/
def countAttribute : Attribute where
  name := "count"
  description := ""
  query := ⟨"n", .ident "n", {}⟩
  values := []
  dtype := .categorical
  testSize := 0

/-- A registry with the attribute for the count. -/
def countRegistry : Registry :=
  (ofConfig {}).saveAttribute countAttribute

theorem not_refers_countAttribute (name : String) : ¬ countRegistry.Refers "count" name := by
  rintro ⟨a, hfind, hmem⟩
  obtain rfl := Option.some.inj hfind
  cases hmem

/-- A tree that refers to the count alone reaches nothing else. -/
theorem eq_count_of_reaches {x : Expr} {name : String} (hx : x.blockRefs = [(.attr, "count")])
    (h : countRegistry.Reaches x name) : name = "count" := by
  obtain ⟨first, hfirst, hsteps⟩ := h
  rw [hx] at hfirst
  obtain ⟨-, rfl⟩ := Prod.mk.inj (List.mem_singleton.mp hfirst)
  rcases hsteps.cases_head with rfl | ⟨next, hnext, -⟩
  · rfl
  · exact absurd hnext (not_refers_countAttribute next)

end Registry

end ErrorAnalysis
