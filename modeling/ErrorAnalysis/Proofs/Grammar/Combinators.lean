import Mathlib.Data.List.Basic
import ErrorAnalysis.Parser

/-!
# What Parsers Read

Two views of a parser, by which grammars are compared with the languages that they are to read. A
parser is **sound** for a relation if all that it reads stands in the relation to its value; what it
has read is the part of the input between the two positions. It **selects** items if it reads the
single items on which a function is defined, and fails on all others; backtracking and greedy
repetition can be followed only where failure is known as well as success.

## Main results

* `choice_cons_eq_ok`: an alternative is heard iff all before it fail.
* `Sound.many`, `Sound.separatedBy`: repetition reads a sequence of what its body reads.
* `sound_fix`: a relation that a rule preserves is sound for its recursion.
* `Selects.choice_cons`: a choice between selections selects.
-/

namespace ErrorAnalysis

namespace Parser

variable {τ α β γ : Type}

/-! ### Success and failure -/

/-- The parser reads nothing from this position on. -/
def Fails (p : Parser τ α) (input : Array τ) (pos : ℕ) : Prop :=
  ∃ e, p input pos = .error e

theorem fails_of_forall_ne {p : Parser τ α} {input : Array τ} {pos : ℕ}
    (h : ∀ r, p input pos ≠ .ok r) : Fails p input pos := by
  cases hp : p input pos with
  | error e => exact ⟨e, hp⟩
  | ok r => exact absurd hp (h r)

theorem Fails.ne_ok {p : Parser τ α} {input : Array τ} {pos : ℕ} (h : Fails p input pos)
    (r : α × ℕ) : p input pos ≠ .ok r := by
  obtain ⟨e, he⟩ := h
  simp [he]

variable {p : Parser τ α} {q : Parser τ β} {input : Array τ} {pos next : ℕ}

@[simp] theorem map_eq_ok {f : α → β} {b : β} :
    map f p input pos = .ok (b, next) ↔ ∃ a, p input pos = .ok (a, next) ∧ f a = b := by
  cases h : p input pos with
  | error e => simp [map, h, Except.map]
  | ok r => cases r; simp [map, h, Except.map, and_comm]

@[simp] theorem pair_eq_ok {a : α} {b : β} :
    pair p q input pos = .ok ((a, b), next) ↔
      ∃ mid, p input pos = .ok (a, mid) ∧ q input mid = .ok (b, next) := by
  cases h : p input pos with
  | error e => simp [pair, h, Except.bind]
  | ok r =>
      obtain ⟨a', mid⟩ := r
      cases hq : q input mid with
      | error e => simp +contextual [pair, h, hq, Except.bind, Except.map]
      | ok r' =>
          obtain ⟨b', next'⟩ := r'
          constructor
          · intro heq
            simp only [pair, h, hq, Except.bind, Except.map, Except.ok.injEq, Prod.mk.injEq] at heq
            obtain ⟨⟨rfl, rfl⟩, rfl⟩ := heq
            exact ⟨mid, rfl, hq⟩
          · rintro ⟨mid', hmid, hnext⟩
            simp only [Except.ok.injEq, Prod.mk.injEq] at hmid
            obtain ⟨rfl, rfl⟩ := hmid
            rw [hq] at hnext
            simp only [Except.ok.injEq, Prod.mk.injEq] at hnext
            obtain ⟨rfl, rfl⟩ := hnext
            simp [pair, h, hq, Except.bind, Except.map]

@[simp] theorem named_eq_ok {rule : String} {r : α × ℕ} :
    named rule p input pos = .ok r ↔ p input pos = .ok r := by
  cases h : p input pos <;> simp [named, h, Except.mapError]

@[simp] theorem between_eq_ok {left : Parser τ β} {right : Parser τ γ} {a : α} :
    between left p right input pos = .ok (a, next) ↔
      ∃ b start c stop, left input pos = .ok (b, start) ∧ p input start = .ok (a, stop) ∧
        right input stop = .ok (c, next) := by
  simp only [between, triple, map_eq_ok, Prod.exists, pair_eq_ok]
  constructor
  · rintro ⟨b, a', c, ⟨start, hb, stop, ha, hc⟩, rfl⟩
    exact ⟨b, start, c, stop, hb, ha, hc⟩
  · rintro ⟨b, start, c, stop, hb, ha, hc⟩
    exact ⟨b, a, c, ⟨start, hb, stop, ha, hc⟩, rfl⟩

theorem optional_of_ok {a : α} (h : p input pos = .ok (a, next)) :
    optional p input pos = .ok (some a, next) := by
  simp [optional, h]

theorem optional_of_fails (h : Fails p input pos) : optional p input pos = .ok (none, pos) := by
  obtain ⟨e, he⟩ := h
  simp [optional, he]

/-! ### Choice -/

/-- Which error a choice reports does not bear on what it reads. -/
theorem choiceFrom_eq_ok {ps : List (Parser τ α)} {furthest : Option ParseError} {r : α × ℕ} :
    choiceFrom furthest ps input pos = .ok r ↔ choice ps input pos = .ok r := by
  have hnil (f : Option ParseError) : choiceFrom f ([] : List (Parser τ α)) input pos ≠ .ok r := by
    simp only [choiceFrom]
    split
    · split <;> simp [fail]
    · simp [fail]
  have key (f g : Option ParseError) (h : choiceFrom f ps input pos = .ok r) :
      choiceFrom g ps input pos = .ok r := by
    induction ps generalizing f g with
    | nil => exact absurd h (hnil f)
    | cons p ps ih =>
        simp only [choiceFrom] at h ⊢
        cases hp : p input pos with
        | ok r' => simpa [hp] using h
        | error e =>
            simp only [hp] at h ⊢
            exact ih _ _ h
  exact ⟨key _ _, key _ _⟩

@[simp] theorem choice_nil_eq_ok {r : α × ℕ} :
    choice ([] : List (Parser τ α)) input pos = .ok r ↔ False := by
  simp [choice, choiceFrom, fail]

/-- An alternative is heard iff all before it fail. -/
theorem choice_cons_eq_ok {ps : List (Parser τ α)} {r : α × ℕ} :
    choice (p :: ps) input pos = .ok r ↔
      p input pos = .ok r ∨ Fails p input pos ∧ choice ps input pos = .ok r := by
  rw [choice, choiceFrom]
  cases hp : p input pos with
  | ok r' => simp [Fails, hp]
  | error e => simp [Fails, hp, choiceFrom_eq_ok]

theorem choice_of_ok {ps : List (Parser τ α)} {r : α × ℕ} (h : p input pos = .ok r) :
    choice (p :: ps) input pos = .ok r :=
  choice_cons_eq_ok.mpr (.inl h)

theorem choice_of_fails {ps : List (Parser τ α)} {r : α × ℕ} (hp : Fails p input pos)
    (h : choice ps input pos = .ok r) : choice (p :: ps) input pos = .ok r :=
  choice_cons_eq_ok.mpr (.inr ⟨hp, h⟩)

theorem choice_append_of_ok {ps qs : List (Parser τ α)} {r : α × ℕ}
    (h : choice ps input pos = .ok r) : choice (ps ++ qs) input pos = .ok r := by
  induction ps with
  | nil => exact absurd h (by simp)
  | cons p ps ih =>
      rcases choice_cons_eq_ok.mp h with hp | ⟨hp, hps⟩
      · exact choice_of_ok hp
      · exact choice_of_fails hp (ih hps)

theorem choice_append_of_fails {ps qs : List (Parser τ α)} {r : α × ℕ}
    (hps : Fails (choice ps) input pos) (h : choice qs input pos = .ok r) :
    choice (ps ++ qs) input pos = .ok r := by
  induction ps with
  | nil => exact h
  | cons p ps ih =>
      have hp : Fails p input pos :=
        fails_of_forall_ne fun r hr => hps.ne_ok r (choice_of_ok hr)
      have htail : Fails (choice ps) input pos :=
        fails_of_forall_ne fun r hr => hps.ne_ok r (choice_of_fails hp hr)
      exact choice_of_fails hp (ih htail)

/-- What a choice reads, one of the alternatives reads. -/
theorem exists_of_choice {ps : List (Parser τ α)} {r : α × ℕ} (h : choice ps input pos = .ok r) :
    ∃ p ∈ ps, p input pos = .ok r := by
  induction ps with
  | nil => exact absurd h (by simp)
  | cons p ps ih =>
      rcases choice_cons_eq_ok.mp h with hp | ⟨-, hps⟩
      · exact ⟨p, List.mem_cons_self, hp⟩
      · obtain ⟨q, hq, hr⟩ := ih hps
        exact ⟨q, List.mem_cons_of_mem _ hq, hr⟩

/-! ### Failure of compound parsers -/

theorem Fails.map {f : α → β} (h : Fails p input pos) : Fails (map f p) input pos := by
  refine fails_of_forall_ne ?_
  rintro ⟨b, next⟩ hb
  obtain ⟨a, ha, -⟩ := map_eq_ok.mp hb
  exact h.ne_ok _ ha

theorem Fails.pair (h : Fails p input pos) : Fails (pair p q) input pos := by
  refine fails_of_forall_ne ?_
  rintro ⟨⟨a, b⟩, next⟩ hab
  obtain ⟨mid, ha, -⟩ := pair_eq_ok.mp hab
  exact h.ne_ok _ ha

theorem Fails.pair_right {a : α} (hp : p input pos = .ok (a, next)) (h : Fails q input next) :
    Fails (Parser.pair p q) input pos := by
  refine fails_of_forall_ne ?_
  rintro ⟨⟨a', b⟩, last⟩ hab
  obtain ⟨mid, ha, hb⟩ := pair_eq_ok.mp hab
  rw [hp] at ha
  obtain ⟨-, rfl⟩ := Prod.mk.inj (Except.ok.inj ha)
  exact h.ne_ok _ hb

theorem Fails.choice_cons {ps : List (Parser τ α)} (hp : Fails p input pos)
    (hps : Fails (choice ps) input pos) : Fails (choice (p :: ps)) input pos := by
  refine fails_of_forall_ne fun r hr => ?_
  rcases choice_cons_eq_ok.mp hr with hr | ⟨-, hr⟩
  · exact hp.ne_ok r hr
  · exact hps.ne_ok r hr

theorem Fails.named {rule : String} (h : Fails p input pos) : Fails (named rule p) input pos :=
  fails_of_forall_ne fun r hr => h.ne_ok r (named_eq_ok.mp hr)

theorem Fails.between {right : Parser τ γ} (h : Fails q input pos) :
    Fails (between q p right) input pos := by
  refine fails_of_forall_ne ?_
  rintro ⟨a, next⟩ ha
  obtain ⟨b, start, -, -, hb, -⟩ := between_eq_ok.mp ha
  exact h.ne_ok _ hb

/-! ### Soundness -/

/-- All that the parser reads stands in the relation to its value. -/
def Sound (p : Parser τ α) (R : List τ → α → Prop) : Prop :=
  ∀ ⦃input pos a next⦄, p input pos = .ok (a, next) →
    ∃ ts, input.toList.drop pos = ts ++ input.toList.drop next ∧ next = pos + ts.length ∧ R ts a

variable {R : List τ → α → Prop} {S : List τ → β → Prop}

theorem Sound.mono {R' : List τ → α → Prop} (h : Sound p R) (hR : ∀ ⦃ts a⦄, R ts a → R' ts a) :
    Sound p R' := by
  intro input pos a next hp
  obtain ⟨ts, hdrop, hnext, hts⟩ := h hp
  exact ⟨ts, hdrop, hnext, hR hts⟩

/-- A sound parser fails where nothing stands that it could read. -/
theorem Sound.fails (h : Sound p R)
    (hR : ∀ ts a post, R ts a → input.toList.drop pos ≠ ts ++ post) : Fails p input pos := by
  refine fails_of_forall_ne ?_
  rintro ⟨a, next⟩ hp
  obtain ⟨ts, hdrop, -, hts⟩ := h hp
  exact hR ts a _ hts hdrop

theorem Sound.map {f : α → β} (h : Sound p R) :
    Sound (map f p) fun ts b => ∃ a, R ts a ∧ f a = b := by
  intro input pos b next hp
  obtain ⟨a, ha, rfl⟩ := map_eq_ok.mp hp
  obtain ⟨ts, hdrop, hnext, hts⟩ := h ha
  exact ⟨ts, hdrop, hnext, a, hts, rfl⟩

theorem Sound.named {rule : String} (h : Sound p R) : Sound (named rule p) R :=
  fun _ _ _ _ hp => h (named_eq_ok.mp hp)

theorem Sound.pair (hp : Sound p R) (hq : Sound q S) :
    Sound (pair p q) fun ts ab => ∃ xs ys, ts = xs ++ ys ∧ R xs ab.1 ∧ S ys ab.2 := by
  rintro input pos ⟨a, b⟩ next h
  obtain ⟨mid, ha, hb⟩ := pair_eq_ok.mp h
  obtain ⟨xs, hxs, rfl, hR⟩ := hp ha
  obtain ⟨ys, hys, rfl, hS⟩ := hq hb
  refine ⟨xs ++ ys, ?_, ?_, xs, ys, rfl, hR, hS⟩
  · rw [hxs, hys, List.append_assoc]
  · rw [List.length_append, Nat.add_assoc]

theorem Sound.between {left : Parser τ β} {right : Parser τ γ} {T : List τ → γ → Prop}
    (hleft : Sound left S) (hp : Sound p R) (hright : Sound right T) :
    Sound (between left p right) fun ts a =>
      ∃ xs ys zs b c, ts = xs ++ (ys ++ zs) ∧ S xs b ∧ R ys a ∧ T zs c := by
  refine ((hleft.pair (hp.pair hright)).map).mono ?_
  rintro ts _ ⟨⟨b, a, c⟩, ⟨xs, _, rfl, hS, ys, zs, rfl, hR, hT⟩, rfl⟩
  exact ⟨xs, ys, zs, b, c, rfl, hS, hR, hT⟩

theorem Sound.optional (h : Sound p R) :
    Sound (optional p) fun ts a? =>
      (ts = [] ∧ a? = none) ∨ ∃ a, R ts a ∧ a? = some a := by
  intro input pos a? next hp
  simp only [Parser.optional] at hp
  split at hp
  · next a last ha =>
    obtain ⟨rfl, rfl⟩ := Prod.mk.inj (Except.ok.inj hp)
    obtain ⟨ts, hdrop, hnext, hts⟩ := h ha
    exact ⟨ts, hdrop, hnext, .inr ⟨a, hts, rfl⟩⟩
  · obtain ⟨rfl, rfl⟩ := Prod.mk.inj (Except.ok.inj hp)
    exact ⟨[], rfl, rfl, .inl ⟨rfl, rfl⟩⟩

theorem sound_choice {ps : List (Parser τ α)} (h : ∀ p ∈ ps, Sound p R) : Sound (choice ps) R := by
  intro input pos a next hc
  obtain ⟨p, hp, ha⟩ := exists_of_choice hc
  exact h p hp ha

theorem sound_fixFuel {rule : Parser τ α → Parser τ α}
    (h : ∀ p, Sound p R → Sound (rule p) R) (fuel : ℕ) : Sound (fixFuel rule fuel) R := by
  induction fuel with
  | zero =>
      intro input pos a next hp
      exact absurd hp (by simp [fixFuel, fail])
  | succ fuel ih => exact h _ ih

/-- **Recursion.** What a rule preserves is sound for the rule that uses itself. -/
theorem sound_fix {rule : Parser τ α → Parser τ α} (h : ∀ p, Sound p R → Sound (rule p) R) :
    Sound (fix rule) R :=
  fun _ _ _ _ hp => sound_fixFuel h _ hp

section Fix

variable {rule : Parser τ α → Parser τ α}

/-- A rule that uses itself only where something has been consumed does not depend on how often it still
might, as long as that is more often than there are items. -/
theorem fixFuel_eq (hsound : ∀ p, Sound p R → Sound (rule p) R)
    (hrule : ∀ p p' pos, Sound p R → Sound p' R → pos ≤ input.size →
      (∀ q, pos < q → q ≤ input.size → p input q = p' input q) → rule p input pos = rule p' input pos)
    {fuel fuel' pos : ℕ} (hpos : pos ≤ input.size) (hfuel : input.size - pos < fuel)
    (hfuel' : input.size - pos < fuel') :
    fixFuel rule fuel input pos = fixFuel rule fuel' input pos := by
  induction fuel generalizing fuel' pos with
  | zero => exact absurd hfuel (Nat.not_lt_zero _)
  | succ fuel ih =>
      obtain ⟨fuel', rfl⟩ := Nat.exists_eq_succ_of_ne_zero (Nat.ne_zero_of_lt hfuel')
      refine hrule _ _ pos (sound_fixFuel hsound fuel) (sound_fixFuel hsound fuel') hpos fun q hlt hq => ?_
      exact ih hq (by omega) (by omega)

/-- **Recursion is a solution of its rule**, if the rule uses itself only where something has been
consumed. -/
theorem fix_eq (hsound : ∀ p, Sound p R → Sound (rule p) R)
    (hrule : ∀ p p' pos, Sound p R → Sound p' R → pos ≤ input.size →
      (∀ q, pos < q → q ≤ input.size → p input q = p' input q) → rule p input pos = rule p' input pos)
    (hpos : pos ≤ input.size) : fix rule input pos = rule (fix rule) input pos := by
  refine hrule _ _ pos (sound_fixFuel hsound _) (sound_fix hsound) hpos fun q hlt hq => ?_
  exact fixFuel_eq hsound hrule hq (by omega) (by omega)

end Fix

/-! ### Repetition -/

/-- **Repetition** reads a sequence of what its body reads. -/
theorem Sound.many (h : Sound p R) :
    Sound (many p) fun ts as => ∃ items : List (List τ × α),
      ts = items.flatMap Prod.fst ∧ as = items.map Prod.snd ∧ ∀ i ∈ items, R i.1 i.2 := by
  intro input pos as next hp
  obtain ⟨rfl, rfl⟩ := Prod.mk.inj (Except.ok.inj hp)
  clear hp
  fun_induction manyFrom p input pos with
  | case1 pos e he => exact ⟨[], rfl, rfl, [], rfl, rfl, by simp⟩
  | case2 pos a next ha hprogress as last hrec ih =>
      obtain ⟨xs, hxs, rfl, hR⟩ := h ha
      obtain ⟨ys, hys, hlast, items, rfl, hmap, hitems⟩ := ih
      rw [hrec] at hys hlast hmap
      refine ⟨xs ++ items.flatMap Prod.fst, ?_, ?_, (xs, a) :: items, rfl, ?_, ?_⟩
      · rw [hxs, hys, List.append_assoc]
      · rw [hlast, List.length_append, Nat.add_assoc]
      · rw [List.map_cons, ← hmap]
      · rintro i (_ | ⟨_, hi⟩)
        · exact hR
        · exact hitems i hi
  | case3 pos a next ha hstuck => exact ⟨[], rfl, rfl, [], rfl, rfl, by simp⟩

/-- Sequences with an item between them. -/
def separated (s : τ) : List (List τ) → List τ
  | [] => []
  | xs :: rest => xs ++ rest.flatMap (s :: ·)

theorem length_le_separated {s : τ} {pieces : List (List τ)} {xs : List τ} (h : xs ∈ pieces) :
    xs.length ≤ (separated s pieces).length := by
  cases pieces with
  | nil => exact absurd h (by simp)
  | cons ys rest =>
      rw [separated, List.length_append]
      rcases List.mem_cons.mp h with rfl | h
      · omega
      · have := (List.sublist_flatten_of_mem (List.mem_map_of_mem (f := (s :: ·)) h)).length_le
        rw [List.length_cons, ← List.flatMap_def] at this
        omega

variable {s : τ} {sep : Parser τ β}

theorem sound_manyAfter (hsep : Sound sep fun ts _ => ts = [s]) (h : Sound p R) {as : List α}
    (hp : manyAfter sep p input pos = .ok (as, next)) :
    ∃ items : List (List τ × α),
      input.toList.drop pos = (items.map Prod.fst).flatMap (s :: ·) ++ input.toList.drop next ∧
      next = pos + ((items.map Prod.fst).flatMap (s :: ·)).length ∧
      as = items.map Prod.snd ∧ ∀ i ∈ items, R i.1 i.2 := by
  fun_induction manyAfter sep p input pos generalizing as next with
  | case1 pos e he =>
      obtain ⟨rfl, rfl⟩ := Prod.mk.inj (Except.ok.inj hp)
      exact ⟨[], rfl, rfl, rfl, by simp⟩
  | case2 => exact absurd hp (by simp)
  | case3 pos b start hb a mid ha hprogress ih =>
      cases hrec : manyAfter sep p input mid with
      | error e => exact absurd hp (by simp [hrec, Except.map])
      | ok r =>
          obtain ⟨as', last⟩ := r
          rw [hrec] at hp
          obtain ⟨rfl, rfl⟩ := Prod.mk.inj (Except.ok.inj hp)
          obtain ⟨_, hs, rfl, rfl⟩ := hsep hb
          obtain ⟨xs, hxs, rfl, hR⟩ := h ha
          obtain ⟨items, hdrop, hlast, rfl, hitems⟩ := ih hrec
          refine ⟨(xs, a) :: items, ?_, ?_, rfl, ?_⟩
          · rw [hs, hxs, hdrop]
            simp
          · simp only [hlast, List.map_cons, List.flatMap_cons, List.length_append,
              List.length_cons, List.length_nil]
            omega
          · rintro i (_ | ⟨_, hi⟩)
            · exact hR
            · exact hitems i hi
  | case4 pos b start hb a mid ha hstuck =>
      obtain ⟨rfl, rfl⟩ := Prod.mk.inj (Except.ok.inj hp)
      exact ⟨[], rfl, rfl, rfl, by simp⟩

/-- **Separated items** are a sequence of what the item reads, with separators between. -/
theorem Sound.separatedBy (hsep : Sound sep fun ts _ => ts = [s]) (h : Sound p R) :
    Sound (separatedBy sep p) fun ts as => ∃ items : List (List τ × α),
      ts = separated s (items.map Prod.fst) ∧ as = items.map Prod.snd ∧
        ∀ i ∈ items, R i.1 i.2 := by
  intro input pos as next hp
  simp only [Parser.separatedBy] at hp
  split at hp
  · obtain ⟨rfl, rfl⟩ := Prod.mk.inj (Except.ok.inj hp)
    exact ⟨[], rfl, rfl, [], rfl, rfl, by simp⟩
  · next a mid ha =>
    cases hrec : manyAfter sep p input mid with
    | error e => exact absurd hp (by simp [hrec, Except.map])
    | ok r =>
        obtain ⟨as', last⟩ := r
        rw [hrec] at hp
        obtain ⟨rfl, rfl⟩ := Prod.mk.inj (Except.ok.inj hp)
        obtain ⟨xs, hxs, rfl, hR⟩ := h ha
        obtain ⟨items, hdrop, hlast, rfl, hitems⟩ := sound_manyAfter hsep h hrec
        refine ⟨_, ?_, ?_, (xs, a) :: items, rfl, rfl, ?_⟩
        · rw [hxs, hdrop, List.map_cons, separated, List.append_assoc]
        · rw [hlast, List.map_cons, separated, List.length_append, Nat.add_assoc]
        · rintro i (_ | ⟨_, hi⟩)
          · exact hR
          · exact hitems i hi

/-! ### Selection -/

/-- The parser reads the single items on which `f` is defined, and fails on all others. -/
structure Selects (p : Parser τ α) (f : τ → Option α) : Prop where
  reads : ∀ ⦃input pos x post a⦄, input.toList.drop pos = x :: post → f x = some a →
    p input pos = .ok (a, pos + 1)
  fails : ∀ ⦃input pos⦄, (∀ x ∈ (input.toList.drop pos).head?, f x = none) → Fails p input pos

theorem getElem?_eq_head?_drop (input : Array τ) (pos : ℕ) :
    input[pos]? = (input.toList.drop pos).head? := by
  rw [List.head?_drop, Array.getElem?_toList]

theorem selects_satisfy (f : τ → Option α) : Selects (satisfy f) f where
  reads := by
    intro input pos x post a hdrop hf
    simp [satisfy, getElem?_eq_head?_drop, hdrop, hf]
  fails := by
    intro input pos h
    refine fails_of_forall_ne fun r hr => ?_
    simp only [satisfy, getElem?_eq_head?_drop] at hr
    split at hr
    · exact absurd hr (by simp [fail])
    · next x hx =>
      rw [h x hx] at hr
      exact absurd hr (by simp [fail])

theorem selects_equal [DecidableEq τ] (shown : τ → String) (x : τ) :
    Selects (equal shown x) fun y => if y = x then some y else none where
  reads := by
    intro input pos y post a hdrop hf
    obtain ⟨rfl, rfl⟩ : y = x ∧ y = a := by simpa using hf
    simp [equal, getElem?_eq_head?_drop, hdrop]
  fails := by
    intro input pos h
    refine fails_of_forall_ne fun r hr => ?_
    simp only [equal, getElem?_eq_head?_drop] at hr
    split at hr
    · exact absurd hr (by simp [fail])
    · next y hy =>
      have hne : y ≠ x := by simpa using h y hy
      exact absurd hr (by simp [fail, hne])

variable {f : τ → Option α} {g : τ → Option α}

theorem Selects.congr (h : Selects p f) (hfg : ∀ x, f x = g x) : Selects p g :=
  (funext hfg : f = g) ▸ h

theorem Selects.map (h : Selects p f) (k : α → β) : Selects (map k p) fun x => (f x).map k where
  reads := by
    intro input pos x post b hdrop hf
    obtain ⟨a, ha, rfl⟩ := Option.map_eq_some_iff.mp hf
    exact map_eq_ok.mpr ⟨a, h.reads hdrop ha, rfl⟩
  fails := fun _ _ hnone => (h.fails fun x hx => Option.map_eq_none_iff.mp (hnone x hx)).map

theorem Selects.named (h : Selects p f) (rule : String) : Selects (named rule p) f where
  reads := fun _ _ _ _ _ hdrop hf => named_eq_ok.mpr (h.reads hdrop hf)
  fails := fun _ _ hnone => (h.fails hnone).named

theorem selects_choice_nil : Selects (choice ([] : List (Parser τ α))) fun _ => none where
  reads := by simp
  fails := fun _ _ _ => fails_of_forall_ne (by simp)

/-- **A choice between selections** selects what any of them does. -/
theorem Selects.choice_cons {ps : List (Parser τ α)} (hp : Selects p f)
    (hps : Selects (choice ps) g) : Selects (choice (p :: ps)) fun x => (f x).or (g x) where
  reads := by
    intro input pos x post a hdrop hfg
    cases hf : f x with
    | some a' =>
        obtain rfl : a' = a := by simpa [hf] using hfg
        exact choice_of_ok (hp.reads hdrop hf)
    | none =>
        have hfails : Fails p input pos := hp.fails (by simp [hdrop, hf])
        exact choice_of_fails hfails (hps.reads hdrop (by simpa [hf] using hfg))
  fails := by
    intro input pos hnone
    have hp' : Fails p input pos := hp.fails fun x hx => (Option.or_eq_none_iff.mp (hnone x hx)).1
    have hps' : Fails (choice ps) input pos :=
      hps.fails fun x hx => (Option.or_eq_none_iff.mp (hnone x hx)).2
    exact hp'.choice_cons hps'

/-- A selection reads single items. -/
theorem Selects.sound (h : Selects p f) : Sound p fun ts a => ∃ x, ts = [x] ∧ f x = some a := by
  intro input pos a next hp
  cases hdrop : input.toList.drop pos with
  | nil => exact absurd hp ((h.fails (by simp [hdrop])).ne_ok _)
  | cons x post =>
      cases hf : f x with
      | none => exact absurd hp ((h.fails (by simp [hdrop, hf])).ne_ok _)
      | some a' =>
          rw [h.reads hdrop hf] at hp
          obtain ⟨rfl, rfl⟩ := Prod.mk.inj (Except.ok.inj hp)
          refine ⟨[x], ?_, rfl, x, rfl, hf⟩
          rw [← List.drop_drop, hdrop]
          rfl

/-! ### Greed

Repetition that takes as much as it can reads a given sequence of items if each item can be read in
front of what may follow it, and nothing more can be read behind the last. -/

/-- Each of the items is read in front of whatever `F` lets follow. -/
def ReadsItems (p : Parser τ α) (F : List τ → Prop) (input : Array τ) (items : List (List τ × α)) :
    Prop :=
  ∀ i ∈ items, i.1 ≠ [] ∧ ∀ ⦃pos post⦄, input.toList.drop pos = i.1 ++ post → F post →
    p input pos = .ok (i.2, pos + i.1.length)

/-- What has been read lies within the input. -/
theorem progress_of_drop {xs post : List τ} (hne : xs ≠ []) (h : input.toList.drop pos = xs ++ post) :
    pos < pos + xs.length ∧ pos + xs.length ≤ input.size := by
  have hpos : 0 < xs.length := List.length_pos_iff.mpr hne
  have hlen := congrArg List.length h
  rw [List.length_drop, List.length_append, Array.length_toList] at hlen
  omega

theorem drop_add_length {xs post : List τ} (h : input.toList.drop pos = xs ++ post) :
    input.toList.drop (pos + xs.length) = post := by
  rw [← List.drop_drop, h, List.drop_left]

theorem drop_succ {x : τ} {post : List τ} (h : input.toList.drop pos = x :: post) :
    input.toList.drop (pos + 1) = post :=
  drop_add_length (show _ = [x] ++ post from h)

theorem many_of_readsItems {F : List τ → Prop} {items : List (List τ × α)} {post : List τ}
    (hitems : ReadsItems p F input items) (hF : ∀ i ∈ items, ∀ ys, F (i.1 ++ ys)) (hpost : F post)
    (hend : ∀ ⦃pos⦄, input.toList.drop pos = post → Fails p input pos)
    (hdrop : input.toList.drop pos = items.flatMap Prod.fst ++ post) :
    many p input pos = .ok (items.map Prod.snd, pos + (items.flatMap Prod.fst).length) := by
  rw [many]
  congr 1
  induction items generalizing pos with
  | nil =>
      obtain ⟨e, he⟩ := hend hdrop
      rw [manyFrom, he]
      rfl
  | cons i items ih =>
      obtain ⟨hne, hread⟩ := hitems i List.mem_cons_self
      rw [List.flatMap_cons, List.append_assoc] at hdrop
      have hfollow : F (items.flatMap Prod.fst ++ post) := by
        cases items with
        | nil => exact hpost
        | cons j items =>
            rw [List.flatMap_cons, List.append_assoc]
            exact hF j (by simp) _
      have hrest := ih (fun j hj => hitems j (List.mem_cons_of_mem _ hj))
        (fun j hj => hF j (List.mem_cons_of_mem _ hj)) (drop_add_length hdrop)
      rw [manyFrom, hread hdrop hfollow]
      simp only [progress_of_drop hne hdrop, and_self, dif_pos, hrest, List.map_cons,
        List.flatMap_cons, List.length_append, Nat.add_assoc]

theorem manyAfter_of_readsItems {F : List τ → Prop} {items : List (List τ × α)} {post : List τ}
    (hitems : ReadsItems p F input items) (hF : ∀ ys, F (s :: ys)) (hpost : F post)
    (hsep : ∀ ⦃pos ys⦄, input.toList.drop pos = s :: ys → ∃ b, sep input pos = .ok (b, pos + 1))
    (hend : ∀ ⦃pos⦄, input.toList.drop pos = post → Fails sep input pos)
    (hdrop : input.toList.drop pos = (items.map Prod.fst).flatMap (s :: ·) ++ post) :
    manyAfter sep p input pos
      = .ok (items.map Prod.snd, pos + ((items.map Prod.fst).flatMap (s :: ·)).length) := by
  induction items generalizing pos with
  | nil =>
      obtain ⟨e, he⟩ := hend hdrop
      rw [manyAfter, he]
      rfl
  | cons i items ih =>
      obtain ⟨hne, hread⟩ := hitems i List.mem_cons_self
      simp only [List.map_cons, List.flatMap_cons, List.cons_append, List.append_assoc] at hdrop
      have hstart : input.toList.drop (pos + 1)
          = i.1 ++ ((items.map Prod.fst).flatMap (s :: ·) ++ post) :=
        drop_succ hdrop
      have hfollow : F ((items.map Prod.fst).flatMap (s :: ·) ++ post) := by
        cases items with
        | nil => exact hpost
        | cons j items => exact hF _
      obtain ⟨b, hb⟩ := hsep hdrop
      have hprogress := progress_of_drop hne hstart
      have hguard : pos < pos + 1 + i.1.length ∧ pos + 1 + i.1.length ≤ input.size :=
        ⟨by omega, hprogress.2⟩
      have hrest := ih (fun j hj => hitems j (List.mem_cons_of_mem _ hj)) (drop_add_length hstart)
      rw [manyAfter, hb]
      simp only [hread hstart hfollow, hguard, and_self, dif_pos, hrest, Except.map, List.map_cons,
        List.flatMap_cons, List.length_append, List.length_cons]
      congr 2
      omega

/-- **Greedy separated items.** All items are read up to a place where no separator stands. -/
theorem separatedBy_of_readsItems {F : List τ → Prop} {items : List (List τ × α)} {post : List τ}
    (hitems : ReadsItems p F input items) (hF : ∀ ys, F (s :: ys)) (hpost : F post)
    (hsep : ∀ ⦃pos ys⦄, input.toList.drop pos = s :: ys → ∃ b, sep input pos = .ok (b, pos + 1))
    (hend : ∀ ⦃pos⦄, input.toList.drop pos = post → Fails sep input pos)
    (hempty : ∀ ⦃pos⦄, input.toList.drop pos = post → Fails p input pos)
    (hdrop : input.toList.drop pos = separated s (items.map Prod.fst) ++ post) :
    separatedBy sep p input pos
      = .ok (items.map Prod.snd, pos + (separated s (items.map Prod.fst)).length) := by
  cases items with
  | nil =>
      obtain ⟨e, he⟩ := hempty hdrop
      simp [separatedBy, he, separated]
  | cons i items =>
      obtain ⟨hne, hread⟩ := hitems i List.mem_cons_self
      rw [List.map_cons, separated, List.append_assoc] at hdrop
      have hfollow : F ((items.map Prod.fst).flatMap (s :: ·) ++ post) := by
        cases items with
        | nil => exact hpost
        | cons j items => exact hF _
      have hrest := manyAfter_of_readsItems (fun j hj => hitems j (List.mem_cons_of_mem _ hj)) hF hpost
        hsep hend (drop_add_length hdrop)
      simp only [separatedBy, hread hdrop hfollow, hrest, Except.map, List.map_cons, separated,
        List.length_append, Nat.add_assoc]

end Parser

end ErrorAnalysis
