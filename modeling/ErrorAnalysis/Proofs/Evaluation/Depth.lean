import Mathlib.Order.Monotone.Basic
import ErrorAnalysis.Proofs.Evaluation.Variants

/-!
# Depth of Evaluation

Attributes that were not computed for an instance are expanded inside of each other, to a certain depth.
An evaluation that gets along with some depth is the same with more of it. With `Registry.maxDepth` of
it, every evaluation gets along that does so at all, also among attributes that refer to each other in
a cycle: an evaluation stays at an edited variant once it is there, and as long as it stays at one
variant, each further level of depth is of use only if one more attribute can be expanded because of
it.

## Main definitions

* `Eval.finishes`: no attribute was left unexpanded.
* `Scope.Moves`: where evaluation goes from a scope.
* `Registry.SettlesAt`: more depth than that is of no use in a class of scopes.

## Main results

* `Registry.evaluateWith_eq_of_finishes`: **an evaluation that finishes depends on the expansions that
  do.**
* `Registry.evaluateAt_eq_of_finishes`: so more depth does not change it.
* `Registry.settlesAt_or`: each variant takes as many levels of depth as there are attributes.
* `Registry.evaluate_eq_of_finishes`: **an evaluation that finishes at any depth finishes.**
-/

namespace ErrorAnalysis

/-! ### Evaluations that finish -/

namespace Eval

variable {α β : Type}

/-- Whether no attribute was left unexpanded for want of depth. -/
def finishes (x : Eval Traced α) : Bool :=
  match x.result with
  | .error (.circular _) => false
  | _ => true

/-- Two computations are the same if the first parts are, in case that the first one finishes, and what
comes after is. -/
theorem bind_eq_of_finishes {x x' : Eval Traced α} {f f' : α → Eval Traced β} (h : (x >>= f).finishes = true)
    (hx : x.finishes = true → x' = x)
    (hf : ∀ a, x.result = .ok a → (f a).finishes = true → f' a = f a) : x' >>= f' = x >>= f := by
  have hfirst : x.finishes = true := by
    rw [finishes, result_bind] at h
    rw [finishes]
    cases hresult : x.result with
    | ok a => rfl
    | error e =>
        rw [hresult] at h
        cases e with
        | circular name => exact h
        | _ => rfl
  rw [hx hfirst]
  refine bind_congr fun a ha => hf a ha ?_
  rw [finishes, result_bind, ha] at h
  exact h

end Eval

/-! ### Moves -/

namespace Scope

/-- Where evaluation goes from a scope: to that of a call, or to that in which an attribute is
expanded. -/
inductive Moves (a : Ambient) (s : Scope) : Scope → Prop
  | call (f : Function) (edit? : Option String) : Moves a s (s.forCall a f edit?)
  | expand {i : Instance} (h : s.instance? = some i) : Moves a s { s with edit := i.rid }

variable {a : Ambient} {s t : Scope}

theorem Moves.item (h : s.Moves a t) : t.item = s.item := by
  cases h with
  | call f edit? => exact forCall_item s a f edit?
  | expand _ => rfl

/-- Evaluation stays at an edited variant. -/
theorem Moves.eq_of_edited (h : s.Moves a t) (hs : s.isUnedited = false) : t = s := by
  cases h with
  | call f edit? => exact forCall_of_edited hs a f edit?
  | expand hi => rw [edit_of_instance? hs hi]

/-- From the unedited variant, evaluation goes to edited ones at most. -/
theorem Moves.eq_or_edited (h : s.Moves a t) (hs : s.isUnedited = true) :
    t = s ∨ t.isUnedited = false := by
  cases ht : t.isUnedited with
  | false => exact .inr rfl
  | true =>
      have hedit : t.edit = s.edit := (eq_of_beq ht).trans (eq_of_beq hs).symm
      have hitem := h.item
      cases t
      cases s
      obtain rfl : _ = _ := hedit
      obtain rfl : _ = _ := hitem
      exact .inl rfl

end Scope

namespace Registry

variable {r : Registry} {expand expand' : Expansion Traced} {P Q : Scope → Prop} {x : Expr} {s : Scope}
  {n m : ℕ}

/-- A class of scopes is not left by evaluation. -/
def StaysIn (r : Registry) (P : Scope → Prop) : Prop :=
  ∀ s t, P s → s.Moves r.ambient t → P t

/-! ### Trees -/

section Trees

variable (hstays : r.StaysIn P)
  (hexpand : ∀ name a t, P t → Assoc.find? r.attributes name = some a →
    (expand name a.query.root t).finishes = true →
      expand' name a.query.root t = expand name a.query.root t)

include hstays hexpand

theorem block_eq_of_finishes (hs : P s) {kind : BlockKind} {name : String}
    (h : (r.block expand kind name s).finishes = true) :
    r.block expand' kind name s = r.block expand kind name s := by
  cases kind with
  | group => rfl
  | attr =>
      rw [block] at h
      rw [block, block]
      cases hfind : Assoc.find? r.attributes name with
      | none => rfl
      | some a =>
          cases hi : s.instance? with
          | none => rfl
          | some i =>
              cases hvalue : Assoc.find? a.values i.key with
              | some v => simp only [hvalue]
              | none =>
                  simp only [hfind, hi, hvalue] at h ⊢
                  exact Eval.bind_eq_of_finishes h
                    (hexpand name a _ (hstays _ _ hs (.expand hi)) hfind) fun _ _ _ => rfl

omit hstays hexpand in
theorem evaluateAll_eq_of_finishes {xs : List Expr}
    (hxs : ∀ x ∈ xs, (r.evaluateWith expand x s).finishes = true →
      r.evaluateWith expand' x s = r.evaluateWith expand x s)
    (h : (r.evaluateAll expand xs s).finishes = true) :
    r.evaluateAll expand' xs s = r.evaluateAll expand xs s := by
  induction xs with
  | nil => rfl
  | cons x xs ih =>
      obtain ⟨hx, hxs⟩ := List.forall_mem_cons.mp hxs
      rw [evaluateAll] at h
      rw [evaluateAll, evaluateAll]
      refine Eval.bind_eq_of_finishes h hx fun v _ h => ?_
      exact Eval.bind_eq_of_finishes h (ih hxs) fun _ _ _ => rfl

omit hstays hexpand in
theorem evaluateArg_eq_of_finishes {a : Arg}
    (ha : (r.evaluateWith expand a.value s).finishes = true →
      r.evaluateWith expand' a.value s = r.evaluateWith expand a.value s)
    (h : (r.evaluateArg expand a s).finishes = true) :
    r.evaluateArg expand' a s = r.evaluateArg expand a s := by
  cases a with
  | positional x =>
      rw [evaluateArg] at h
      rw [evaluateArg, evaluateArg]
      exact Eval.bind_eq_of_finishes h ha fun _ _ _ => rfl
  | named name x =>
      rw [evaluateArg] at h
      rw [evaluateArg, evaluateArg]
      cases hliteral : literalArgument? name x with
      | some text => rfl
      | none =>
          simp only [hliteral] at h ⊢
          exact Eval.bind_eq_of_finishes h ha fun _ _ _ => rfl

omit hstays hexpand in
theorem evaluateArgs_eq_of_finishes {args : List Arg}
    (hargs : ∀ a ∈ args, (r.evaluateWith expand a.value s).finishes = true →
      r.evaluateWith expand' a.value s = r.evaluateWith expand a.value s)
    (h : (r.evaluateArgs expand args s).finishes = true) :
    r.evaluateArgs expand' args s = r.evaluateArgs expand args s := by
  induction args with
  | nil => rfl
  | cons a args ih =>
      obtain ⟨ha, hargs⟩ := List.forall_mem_cons.mp hargs
      rw [evaluateArgs] at h
      rw [evaluateArgs, evaluateArgs]
      refine Eval.bind_eq_of_finishes h (evaluateArg_eq_of_finishes ha) fun g _ h => ?_
      exact Eval.bind_eq_of_finishes h (ih hargs) fun _ _ _ => rfl

/-- **An evaluation that finishes depends on the expansions that do.** -/
theorem evaluateWith_eq_of_finishes (hs : P s) (h : (r.evaluateWith expand x s).finishes = true) :
    r.evaluateWith expand' x s = r.evaluateWith expand x s := by
  induction x using Expr.induction generalizing s with
  | noOp => rfl
  | literal l => rfl
  | ident name => rfl
  | block kind name => exact block_eq_of_finishes hstays hexpand hs h
  | list items ih =>
      rw [evaluateWith] at h
      rw [evaluateWith, evaluateWith]
      exact Eval.bind_eq_of_finishes h (evaluateAll_eq_of_finishes fun x hx => ih x hx hs)
        fun _ _ _ => rfl
  | unary op x ih =>
      rw [evaluateWith] at h
      rw [evaluateWith, evaluateWith]
      exact Eval.bind_eq_of_finishes h (ih hs) fun _ _ _ => rfl
  | binary op x y ihx ihy =>
      rw [evaluateWith] at h
      rw [evaluateWith, evaluateWith]
      refine Eval.bind_eq_of_finishes h (ihx hs) fun v _ h => ?_
      split
      · rfl
      · next hdecides =>
          rw [if_neg hdecides] at h
          exact Eval.bind_eq_of_finishes h (ihy hs) fun _ _ _ => rfl
  | call function args edit? ih =>
      rw [evaluateWith] at h
      rw [evaluateWith, evaluateWith]
      refine Eval.bind_eq_of_finishes h (fun _ => rfl) fun f _ h => ?_
      dsimp only at h ⊢
      cases hi : (s.forCall r.ambient f edit?).instance? with
      | none => rfl
      | some i =>
          simp only [hi] at h
          have hthere := hstays _ _ hs (.call f edit?)
          exact Eval.bind_eq_of_finishes h
            (evaluateArgs_eq_of_finishes fun a ha => ih a ha hthere) fun _ _ _ => rfl

end Trees

/-! ### More depth -/

theorem expansion_succ (name : String) :
    r.expansion (n + 1) name x s = r.evaluateWith (r.expansion n) x s := by
  rw [← evaluateAt_eq]
  rfl

/-- An expansion that finishes is the same with more depth. -/
theorem expansion_eq_of_finishes {name : String} (hle : n ≤ m)
    (h : (r.expansion n name x s).finishes = true) :
    r.expansion m name x s = r.expansion n name x s := by
  induction n generalizing m name x s with
  | zero => cases h
  | succ n ih =>
      obtain ⟨m, rfl⟩ : ∃ k, m = k + 1 := ⟨m - 1, by omega⟩
      rw [expansion_succ] at h
      rw [expansion_succ, expansion_succ]
      exact evaluateWith_eq_of_finishes (P := fun _ => True) (fun _ _ _ _ => trivial)
        (fun _ _ _ _ _ => ih (by omega)) trivial h

theorem finishes_expansion_mono {name : String} (hle : n ≤ m)
    (h : (r.expansion n name x s).finishes = true) : (r.expansion m name x s).finishes = true := by
  rw [expansion_eq_of_finishes hle h, h]

/-- **An evaluation that finishes is the same with more depth.** -/
theorem evaluateAt_eq_of_finishes (hle : n ≤ m) (h : (r.evaluateAt n x s).finishes = true) :
    r.evaluateAt m x s = r.evaluateAt n x s := by
  have hexpand : (r.expansion (n + 1) "" x s).finishes = true := h
  have hsame : r.expansion (m + 1) "" x s = r.expansion (n + 1) "" x s :=
    expansion_eq_of_finishes (Nat.succ_le_succ hle) hexpand
  exact hsame

/-! ### Depth that is of use -/

/-- In a class of scopes, each attribute whose expansion finishes at any depth finishes at a certain
one. -/
def SettlesAt (r : Registry) (depth : ℕ) (P : Scope → Prop) : Prop :=
  ∀ n name a s, P s → Assoc.find? r.attributes name = some a →
    (r.expansion n name a.query.root s).finishes = true →
      (r.expansion depth name a.query.root s).finishes = true

theorem SettlesAt.mono (h : r.SettlesAt n P) (hle : n ≤ m) : r.SettlesAt m P :=
  fun k name a s hs hfind hk => finishes_expansion_mono hle (h k name a s hs hfind hk)

/-- The attributes whose expansion in a scope finishes at a depth. -/
def expanded (r : Registry) (s : Scope) (depth : ℕ) : Finset String :=
  (Assoc.keys r.attributes).toFinset.filter fun name =>
    (Assoc.find? r.attributes name).any fun a =>
      (r.expansion depth name a.query.root s).finishes

theorem mem_expanded {name : String} :
    name ∈ r.expanded s n ↔ ∃ a, Assoc.find? r.attributes name = some a ∧
      (r.expansion n name a.query.root s).finishes = true := by
  rw [expanded, Finset.mem_filter, List.mem_toFinset, Option.any_eq_true]
  refine ⟨fun h => h.2, fun ⟨a, hfind, ha⟩ => ⟨?_, a, hfind, ha⟩⟩
  exact List.mem_map_of_mem (f := Prod.fst) (Assoc.mem_of_find? hfind)

theorem expanded_subset (hle : n ≤ m) : r.expanded s n ⊆ r.expanded s m := by
  intro name h
  obtain ⟨a, hfind, ha⟩ := mem_expanded.mp h
  exact mem_expanded.mpr ⟨a, hfind, finishes_expansion_mono hle ha⟩

theorem card_expanded_le : (r.expanded s n).card ≤ r.attributes.length := by
  refine (Finset.card_filter_le _ _).trans ((List.toFinset_card_le _).trans ?_)
  exact (List.length_map _).le

/-- If a level of depth is of no use in a scope, none of those that follow is, unless evaluation goes
elsewhere. -/
theorem expanded_succ_eq (hstays : r.StaysIn fun t => t = s ∨ Q t) {depth : ℕ}
    (hsettles : r.SettlesAt depth Q) (hle : depth ≤ n)
    (h : r.expanded s n = r.expanded s (n + 1)) :
    r.expanded s (n + 1) = r.expanded s (n + 2) := by
  refine (expanded_subset (Nat.le_succ _)).antisymm fun name hname => ?_
  obtain ⟨a, hfind, ha⟩ := mem_expanded.mp hname
  rw [expansion_succ] at ha
  have hsame : r.evaluateWith (r.expansion n) a.query.root s =
      r.evaluateWith (r.expansion (n + 1)) a.query.root s := by
    refine evaluateWith_eq_of_finishes hstays (fun other b t ht hb hfinishes => ?_) (.inl rfl) ha
    have hnow : (r.expansion n other b.query.root t).finishes = true := by
      rcases ht with rfl | ht
      · obtain ⟨c, hc, hfinishes⟩ : ∃ c, _ := mem_expanded.mp (h ▸ mem_expanded.mpr ⟨b, hb, hfinishes⟩)
        rw [hb] at hc
        rwa [Option.some.inj hc]
      · exact finishes_expansion_mono hle (hsettles _ other b t ht hb hfinishes)
    exact (expansion_eq_of_finishes (Nat.le_succ n) hnow).symm
  refine mem_expanded.mpr ⟨a, hfind, ?_⟩
  rw [expansion_succ, hsame, ha]

/-- **Each variant takes as many levels of depth as there are attributes,** after those that the
variants take to which evaluation goes from there. -/
theorem settlesAt_or (hstays : r.StaysIn fun t => t = s ∨ Q t) {depth : ℕ}
    (hsettles : r.SettlesAt depth Q) :
    r.SettlesAt (depth + r.attributes.length) fun t => t = s ∨ Q t := by
  -- The numbers of attributes that are expanded at each depth ascend until they stay as they are.
  have hstable (n : ℕ) (hn : r.attributes.length ≤ n) :
      r.expanded s (depth + n) = r.expanded s (depth + r.attributes.length) := by
    have hcard : (r.expanded s (depth + n)).card =
        (r.expanded s (depth + r.attributes.length)).card := by
      refine Nat.stabilises_of_monotone (f := fun n => (r.expanded s (depth + n)).card)
        (fun n m hle => Finset.card_le_card (expanded_subset (Nat.add_le_add_left hle _)))
        (fun _ => card_expanded_le) (fun n heq => ?_) hn
      have hset : r.expanded s (depth + n) = r.expanded s (depth + n + 1) :=
        Finset.eq_of_subset_of_card_le (expanded_subset (Nat.le_succ _)) heq.ge
      exact congrArg Finset.card (expanded_succ_eq hstays hsettles (Nat.le_add_right _ _) hset)
    exact (Finset.eq_of_subset_of_card_le (expanded_subset (Nat.add_le_add_left hn _)) hcard.le).symm
  intro n name a t ht hfind ha
  rcases ht with rfl | ht
  · have hmem : name ∈ r.expanded t (depth + (r.attributes.length + n)) :=
      expanded_subset (by omega) (mem_expanded.mpr ⟨a, hfind, ha⟩)
    rw [hstable _ (Nat.le_add_right _ _)] at hmem
    obtain ⟨b, hb, hfinishes⟩ := mem_expanded.mp hmem
    rw [hfind] at hb
    rwa [Option.some.inj hb]
  · exact finishes_expansion_mono (Nat.le_add_right _ _) (hsettles n name a t ht hfind ha)

/-- Edited variants take as many levels of depth as there are attributes. -/
theorem settlesAt_edited : r.SettlesAt r.attributes.length fun s => s.isUnedited = false := by
  intro n name a s hs
  have hstays : r.StaysIn fun t => t = s ∨ False := by
    rintro _ t (rfl | hnone) hmove
    · exact .inl (hmove.eq_of_edited hs)
    · cases hnone
  have hsettles : r.SettlesAt (0 + r.attributes.length) fun t => t = s ∨ False :=
    settlesAt_or hstays fun _ _ _ _ hnone => nomatch hnone
  rw [Nat.zero_add] at hsettles
  exact hsettles n name a s (.inl rfl)

/-- The unedited variant takes as many again. -/
theorem settlesAt_maxDepth : r.SettlesAt r.maxDepth fun _ => True := by
  intro n name a s _
  have hmax : r.maxDepth = r.attributes.length + r.attributes.length := Nat.two_mul _
  cases hs : s.isUnedited with
  | false => exact (settlesAt_edited.mono (hmax ▸ Nat.le_add_right _ _)) n name a s hs
  | true =>
      have hstays : r.StaysIn fun t => t = s ∨ t.isUnedited = false := by
        rintro u t (rfl | hu) hmove
        · exact hmove.eq_or_edited hs
        · exact .inr (hmove.eq_of_edited hu ▸ hu)
      rw [hmax]
      exact settlesAt_or hstays settlesAt_edited n name a s (.inl rfl)

/-- **An evaluation that finishes at any depth finishes,** with the same value and the same sources, or
with the same error. -/
theorem evaluate_eq_of_finishes (h : (r.evaluateAt n x s).finishes = true) :
    r.evaluate x s = r.evaluateAt n x s := by
  rw [evaluate]
  rcases Nat.le_total n r.maxDepth with hle | hle
  · exact evaluateAt_eq_of_finishes hle h
  · rw [evaluateAt_eq] at h ⊢
    rw [evaluateAt_eq]
    refine evaluateWith_eq_of_finishes (P := fun _ => True) (fun _ _ _ _ => trivial)
      (fun name a t ht hfind hfinishes => ?_) trivial h
    exact (expansion_eq_of_finishes hle (settlesAt_maxDepth n name a t ht hfind hfinishes)).symm

end Registry

end ErrorAnalysis
