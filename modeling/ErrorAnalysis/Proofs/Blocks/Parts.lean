import ErrorAnalysis.Proofs.Blocks.Reuse

/-!
# Parts of a Registry

A registry is a part of another one if all of its blocks are blocks of that one too, and the rest is the
same. If all blocks that its attributes refer to belong to the part as well, then the trees that refer
to blocks of the part have the same value in both. So the queries, the attributes and the groups that
are made in the part are those that would be made in the whole.

A registry is a part of each one that it grows to as blocks are saved under new names. A registry that
is being rebuilt is a part of the one that it is rebuilt from.

## Main definitions

* `Registry.Resolves`: all blocks that a tree refers to are registered.
* `Registry.IsPartOf`: all blocks of a registry are blocks of another one.
* `Registry.IsClosed`: all blocks that attributes refer to are registered.

## Main results

* `Registry.IsPartOf.evaluate_eq`: **a tree that refers to a part has the same value in the whole.**
* `Registry.IsPartOf.computeAttribute_eq`, `Registry.IsPartOf.computeGroup_eq`: so are blocks for it.
-/

namespace ErrorAnalysis

namespace Registry

/-! ### Registered references -/

/-- All blocks that a tree refers to are registered. -/
structure Resolves (r : Registry) (x : Expr) : Prop where
  attributes : ∀ name, (.attr, name) ∈ x.blockRefs → ∃ a, Assoc.find? r.attributes name = some a
  groups : ∀ name, (.group, name) ∈ x.blockRefs → ∃ g, Assoc.find? r.groups name = some g

/-- All blocks that the attributes of a registry refer to are registered, and no attribute refers to
itself, by itself or through others. -/
structure IsClosed (r : Registry) : Prop where
  resolves : ∀ name a, Assoc.find? r.attributes name = some a → r.Resolves a.query.root
  acyclic : ∀ name, ¬ Relation.TransGen r.Refers name name

/-- All blocks of a registry are blocks of another one, which is like it otherwise. -/
structure IsPartOf (t r : Registry) : Prop where
  alike : t.Alike r
  config : r.config = t.config
  attributes : ∀ name a, Assoc.find? t.attributes name = some a →
    Assoc.find? r.attributes name = some a
  groups : ∀ name g, Assoc.find? t.groups name = some g → Assoc.find? r.groups name = some g
  length_le : t.attributes.length ≤ r.attributes.length

variable {t r r' : Registry} {x : Expr} {q : Query.Compiled} {source : Definition} {size : ℕ}
  {items : List Item} {name : String} {cmd : String}

/-- Whether a block is registered. -/
def registers (r : Registry) : BlockKind × String → Bool
  | (.attr, name) => (Assoc.find? r.attributes name).isSome
  | (.group, name) => (Assoc.find? r.groups name).isSome

theorem resolves_of_registers (h : ∀ b ∈ x.blockRefs, r.registers b = true) : r.Resolves x where
  attributes name hname := Option.isSome_iff_exists.mp (h (.attr, name) hname)
  groups name hname := Option.isSome_iff_exists.mp (h (.group, name) hname)

theorem IsPartOf.refl (r : Registry) : r.IsPartOf r :=
  ⟨.refl r, rfl, fun _ _ h => h, fun _ _ h => h, le_rfl⟩

theorem IsPartOf.trans (h : t.IsPartOf r) (h' : r.IsPartOf r') : t.IsPartOf r' where
  alike := h.alike.trans h'.alike
  config := h'.config.trans h.config
  attributes name a ha := h'.attributes name a (h.attributes name a ha)
  groups name g hg := h'.groups name g (h.groups name g hg)
  length_le := h.length_le.trans h'.length_le

/-- What is registered in a part is registered in the whole. -/
theorem Resolves.of_part (h : t.IsPartOf r) (hx : t.Resolves x) : r.Resolves x where
  attributes name hname := (hx.attributes name hname).imp fun a ha => h.attributes name a ha
  groups name hname := (hx.groups name hname).imp fun g hg => h.groups name g hg

/-- All attributes that a tree reaches are registered. -/
theorem Resolves.exists_of_reaches (hx : r.Resolves x) (hclosed : r.IsClosed)
    (h : r.Reaches x name) : ∃ a, Assoc.find? r.attributes name = some a := by
  obtain ⟨first, hfirst, hsteps⟩ := h
  induction hsteps with
  | refl => exact hx.attributes first hfirst
  | tail _ hstep _ =>
      obtain ⟨a, hfind, hmem⟩ := hstep
      exact (hclosed.resolves _ a hfind).attributes _ hmem

/-- All groups that a tree reaches are registered. -/
theorem Resolves.exists_of_reachesGroup (hx : r.Resolves x) (hclosed : r.IsClosed)
    (h : r.ReachesGroup x name) : ∃ g, Assoc.find? r.groups name = some g := by
  rcases h with hmem | ⟨other, a, -, hfind, hmem⟩
  · exact hx.groups name hmem
  · exact (hclosed.resolves other a hfind).groups name hmem

/-! ### The same values -/

section Part

variable (h : t.IsPartOf r)

include h

/-- The blocks of a tree are the same in a part and in the whole. -/
theorem IsPartOf.keeps (hx : t.Resolves x) : t.Keeps r x where
  functions := h.alike.functions
  attributes name hname := by
    obtain ⟨a, ha⟩ := hx.attributes name hname
    rw [ha, h.attributes name a ha]
  groups name hname := by
    obtain ⟨g, hg⟩ := hx.groups name hname
    rw [hg, h.groups name g hg]

/-- A command for blocks of a part denotes the same query in the part and in the whole. -/
theorem IsPartOf.compile_eq (hx : t.Resolves q.root) :
    r.compile cmd = .ok q ↔ t.compile cmd = .ok q := by
  have hdeps := (h.keeps hx).dependencies
  constructor <;> intro hcompile
  · obtain ⟨hparse, rfl, hq⟩ := compile_eq_ok hcompile
    rw [compile_of_parse hparse, ← hdeps, ← hq]
  · obtain ⟨hparse, rfl, hq⟩ := compile_eq_ok hcompile
    rw [compile_of_parse hparse, hdeps, ← hq]

theorem IsPartOf.groupQuery_eq (hx : t.Resolves q.root) :
    r.groupQuery cmd = .ok q ↔ t.groupQuery cmd = .ok q := by
  rw [groupQuery, groupQuery]
  split
  · exact Iff.rfl
  · exact h.compile_eq hx

variable (hclosed : t.IsClosed) (hx : t.Resolves x)

include hclosed hx

/-- **A tree for blocks of a part has the same value in the part and in the whole.** -/
theorem IsPartOf.evaluate_eq (s : Scope) : r.evaluate x s = t.evaluate x s := by
  refine evaluateAt_eq_evaluate h.alike (fun name hname => ?_) (fun name hname => ?_)
    (fun name _ => hclosed.acyclic name) ?_ s
  · obtain ⟨g, hg⟩ := hx.exists_of_reachesGroup hclosed hname
    rw [hg, h.groups name g hg]
  · obtain ⟨a, ha⟩ := hx.exists_of_reaches hclosed hname
    rw [ha, h.attributes name a ha]
  · have hlength := h.length_le
    rw [maxDepth]
    omega

theorem IsPartOf.evaluateOver_eq (kind : BlockKind) (policy : FailurePolicy) :
    r.evaluateOver x kind policy items = t.evaluateOver x kind policy items :=
  evaluateFrom_congr fun _ _ => h.evaluate_eq hclosed hx _

end Part

variable (h : t.IsPartOf r) (hclosed : t.IsClosed) (hx : t.Resolves q.root)

include h hclosed hx

/-- An attribute for blocks of a part has the same values in the part and in the whole. -/
theorem IsPartOf.computeAttribute_eq :
    r.computeAttribute source q size items = t.computeAttribute source q size items := by
  rw [computeAttribute, computeAttribute, h.config, h.evaluateOver_eq hclosed hx]

/-- A group for blocks of a part has the same members in the part and in the whole. -/
theorem IsPartOf.computeGroup_eq :
    r.computeGroup source q size items = t.computeGroup source q size items := by
  rw [computeGroup, computeGroup, membersFor, membersFor, h.config, h.evaluateOver_eq hclosed hx]

omit h hclosed hx

/-! ### Parts that are closed -/

/-- A part is closed if its attributes refer to blocks of the part only. -/
theorem IsPartOf.isClosed (h : t.IsPartOf r) (hclosed : r.IsClosed)
    (hresolves : ∀ name a, Assoc.find? t.attributes name = some a → t.Resolves a.query.root) :
    t.IsClosed where
  resolves := hresolves
  acyclic name hcycle := by
    have hrefers (first other : String) (hstep : t.Refers first other) : r.Refers first other := by
      obtain ⟨a, hfind, hmem⟩ := hstep
      exact ⟨a, h.attributes first a hfind, hmem⟩
    exact hclosed.acyclic name (Relation.TransGen.mono hrefers _ _ hcycle)

section Save

variable {a : Attribute} {g : Group} {asked : List String}

/-- A registry is a part of what it is with a new attribute. -/
theorem isPartOf_saveAttribute (hfresh : Assoc.find? r.attributes a.name = none) :
    r.IsPartOf ((r.remember asked).saveAttribute a) where
  alike := ⟨rfl, rfl⟩
  config := rfl
  attributes name b hb := by
    have hne : name ≠ a.name := by
      rintro rfl
      cases hfresh.symm.trans hb
    exact (Assoc.find?_insert_of_ne hne).trans hb
  groups _ _ hg := hg
  length_le := Assoc.length_le_length_insert

/-- A registry is a part of what it is with a new group. -/
theorem isPartOf_saveGroup (hfresh : Assoc.find? r.groups g.name = none) :
    r.IsPartOf ((r.remember asked).saveGroup g) where
  alike := ⟨rfl, rfl⟩
  config := rfl
  attributes _ _ ha := ha
  groups name g' hg' := by
    have hne : name ≠ g.name := by
      rintro rfl
      cases hfresh.symm.trans hg'
    exact (Assoc.find?_insert_of_ne hne).trans hg'
  length_le := le_rfl

/-- Nothing refers to a new attribute, and what other attributes refer to stays. -/
theorem refers_saveAttribute (hclosed : r.IsClosed)
    (hfresh : Assoc.find? r.attributes a.name = none) (ha : r.Resolves a.query.root)
    {other : String} (h : ((r.remember asked).saveAttribute a).Refers name other) :
    other ≠ a.name ∧ (name ≠ a.name → r.Refers name other) := by
  obtain ⟨b, hfind, hmem⟩ := h
  have hregistered (hb : r.Resolves b.query.root) : other ≠ a.name := by
    rintro rfl
    obtain ⟨c, hc⟩ := hb.attributes _ hmem
    cases hfresh.symm.trans hc
  by_cases hname : name = a.name
  · subst hname
    obtain rfl := Option.some.inj (find?_saveAttribute_self.symm.trans hfind)
    exact ⟨hregistered ha, fun hne => absurd rfl hne⟩
  · have hold : Assoc.find? r.attributes name = some b :=
      (Assoc.find?_insert_of_ne hname).symm.trans hfind
    exact ⟨hregistered (hclosed.resolves name b hold), fun _ => ⟨b, hold, hmem⟩⟩

/-- A registry stays closed with a new attribute for blocks that it has. A cycle would lead through
names that something refers to, and so past the new one. -/
theorem IsClosed.saveAttribute (hclosed : r.IsClosed)
    (hfresh : Assoc.find? r.attributes a.name = none) (ha : r.Resolves a.query.root) :
    ((r.remember asked).saveAttribute a).IsClosed where
  resolves name b hfind := by
    have hpart : r.IsPartOf ((r.remember asked).saveAttribute a) := isPartOf_saveAttribute hfresh
    by_cases hname : name = a.name
    · subst hname
      obtain rfl := Option.some.inj (find?_saveAttribute_self.symm.trans hfind)
      exact ha.of_part hpart
    · have hold : Assoc.find? r.attributes name = some b :=
        (Assoc.find?_insert_of_ne hname).symm.trans hfind
      exact (hclosed.resolves name b hold).of_part hpart
  acyclic name hcycle := by
    have hsteps {first last : String} (hfirst : first ≠ a.name)
        (h : Relation.TransGen ((r.remember asked).saveAttribute a).Refers first last) :
        last ≠ a.name ∧ Relation.TransGen r.Refers first last := by
      induction h with
      | single hstep =>
          obtain ⟨hlast, hold⟩ := refers_saveAttribute hclosed hfresh ha hstep
          exact ⟨hlast, .single (hold hfirst)⟩
      | tail _ hstep ih =>
          obtain ⟨hlast, hold⟩ := refers_saveAttribute hclosed hfresh ha hstep
          exact ⟨hlast, ih.2.tail (hold ih.1)⟩
    have hname : name ≠ a.name := by
      obtain ⟨before, -, hlast⟩ := Relation.TransGen.tail'_iff.mp hcycle
      exact (refers_saveAttribute hclosed hfresh ha hlast).1
    exact hclosed.acyclic name (hsteps hname hcycle).2

/-- A registry stays closed with a new group. -/
theorem IsClosed.saveGroup (hclosed : r.IsClosed)
    (hfresh : Assoc.find? r.groups g.name = none) :
    ((r.remember asked).saveGroup g).IsClosed where
  resolves name a hfind := (hclosed.resolves name a hfind).of_part (isPartOf_saveGroup hfresh)
  acyclic := hclosed.acyclic

end Save

end Registry

end ErrorAnalysis
