import Mathlib.Order.Filter.AtTopBot.Basic
import Mathlib.Order.Filter.Finite
import ErrorAnalysis.Proofs.Grammar.Combinators

/-!
# Parsers as Data

A parser is a function, and a function tells neither of what it is made nor whether running it comes to an
end. Here the combinators are the constructors of a type, and the rules of a grammar are names that its
forms refer to. A form is run in steps that may run out: each entry into a rule takes one, and so does each
round of a repetition, which goes on for as long as its body succeeds. Nothing watches over progress. The
parser that a form denotes is built from the combinators, whose repetitions give up where nothing is
consumed.

What a form consumes, and which rules it may enter before it has consumed anything, is read off the form.
If each repetition consumes in each round, and no rule leads back to itself before something is consumed,
then every run ends, with what the parser yields.

## Main definitions

* `Form`: parsers over items of a type, with rules by name.
* `Form.toParser`, `Form.run`: the parser of a form, and running it in a number of steps.
* `Form.Consumes`, `Form.Starts`, `Form.EachLoop`: what is read off a form.

## Main results

* `Form.advances`: a form that consumes moves on when it succeeds.
* `Form.IsHereditary.holds`: what holds of forms where they are entered, from what holds of rules.
* `Form.toParser_congr`: a form depends on its rules only where it can enter them.
* `Form.settles_rule`: **every run of a grammar without loops that stand still ends.**
* `Form.run_many_eq_none`: a repetition that stands still never ends.
-/

namespace ErrorAnalysis

/-- Parsers of `α` over items of `τ`. A rule of `ρ α` is one that yields an `α`. -/
inductive Form (τ : Type) (ρ : Type → Type) : Type → Type 1
  | equal (shown : τ → String) (x : τ) : Form τ ρ τ
  | satisfy {α : Type} (f : τ → Option α) : Form τ ρ α
  | choice {α : Type} {n : ℕ} (ps : Fin n → Form τ ρ α) : Form τ ρ α
  | map {α β : Type} (f : α → β) (p : Form τ ρ α) : Form τ ρ β
  | pair {α β : Type} (p : Form τ ρ α) (q : Form τ ρ β) : Form τ ρ (α × β)
  | optional {α : Type} (p : Form τ ρ α) : Form τ ρ (Option α)
  | named {α : Type} (rule : String) (p : Form τ ρ α) : Form τ ρ α
  | many {α : Type} (p : Form τ ρ α) : Form τ ρ (List α)
  | separatedBy {α β : Type} (separator : Form τ ρ β) (item : Form τ ρ α) : Form τ ρ (List α)
  | rule {α : Type} (r : ρ α) : Form τ ρ α

namespace Form

open ErrorAnalysis.Parser (fail)

variable {τ : Type} {ρ : Type → Type} {α β : Type}

/-! ### Meaning -/

/-- The parser of a form, given one for each rule. -/
def toParser [DecidableEq τ] (σ : ∀ {α}, ρ α → Parser τ α) : {α : Type} → Form τ ρ α → Parser τ α
  | _, equal shown x => Parser.equal shown x
  | _, satisfy f => Parser.satisfy f
  | _, choice ps => Parser.choice (List.ofFn fun i => (ps i).toParser σ)
  | _, map f p => Parser.map f (p.toParser σ)
  | _, pair p q => Parser.pair (p.toParser σ) (q.toParser σ)
  | _, optional p => Parser.optional (p.toParser σ)
  | _, named name p => Parser.named name (p.toParser σ)
  | _, many p => Parser.many (p.toParser σ)
  | _, separatedBy separator item => Parser.separatedBy (separator.toParser σ) (item.toParser σ)
  | _, rule r => σ r

/-! The other combinators are made of these. -/

/-- A form without its value. -/
def ignore (p : Form τ ρ α) : Form τ ρ Unit :=
  map (fun _ => ()) p

/-- Three forms in a row. -/
def triple {γ : Type} (p : Form τ ρ α) (q : Form τ ρ β) (r : Form τ ρ γ) : Form τ ρ (α × β × γ) :=
  pair p (pair q r)

/-- A form between two others, of which only the inner value is kept. -/
def between {γ : Type} (left : Form τ ρ α) (p : Form τ ρ β) (right : Form τ ρ γ) : Form τ ρ β :=
  map (fun (_, b, _) => b) (triple left p right)

section Derived

variable [DecidableEq τ] (σ : ∀ {α}, ρ α → Parser τ α) {γ : Type} (p : Form τ ρ α) (q : Form τ ρ β)
  (r : Form τ ρ γ)

theorem toParser_ignore : p.ignore.toParser σ = Parser.ignore (p.toParser σ) := rfl

theorem toParser_triple :
    (triple p q r).toParser σ = Parser.triple (p.toParser σ) (q.toParser σ) (r.toParser σ) := rfl

theorem toParser_between :
    (between p q r).toParser σ = Parser.between (p.toParser σ) (q.toParser σ) (r.toParser σ) := rfl

end Derived

/-! ### Running -/

section Running

variable (p : ℕ → Option (Parsed α)) (s : ℕ → Option (Parsed β))

/-- The first outcome that is a success, if those in front of it have ended. -/
def firstOf (pos : ℕ) (furthest : Option ParseError) :
    List (Option (Parsed α)) → Option (Parsed α)
  | [] =>
    match furthest with
    | some e => some (if pos < e.position then .error e else fail .noAlternative pos)
    | none => some (fail .noAlternative pos)
  | none :: _ => none
  | some (.ok r) :: _ => some (.ok r)
  | some (.error e) :: outcomes =>
    let further := match furthest with
      | none => e
      | some f => if f.position < e.position then e else f
    firstOf pos (some further) outcomes

/-- Rounds of a repetition, as long as its body succeeds. -/
def repeated : ℕ → ℕ → Option (List α × ℕ)
  | 0, _ => none
  | rounds + 1, pos =>
    match p pos with
    | none => none
    | some (.error _) => some ([], pos)
    | some (.ok (a, next)) => (repeated rounds next).map fun (as, last) => (a :: as, last)

/-- Rounds of a separator and an item, as long as the separator succeeds. -/
def repeatedAfter : ℕ → ℕ → Option (Parsed (List α))
  | 0, _ => none
  | rounds + 1, pos =>
    match s pos with
    | none => none
    | some (.error _) => some (.ok ([], pos))
    | some (.ok (_, start)) =>
      match p start with
      | none => none
      | some (.error e) => some (.error e)
      | some (.ok (a, next)) =>
        (repeatedAfter rounds next).map (·.map fun (as, last) => (a :: as, last))

end Running

/-- Running a form from a position on, with what entering a rule leads to and a bound on the rounds of each
repetition. -/
def step [DecidableEq τ] (input : Array τ) (rounds : ℕ)
    (enter : ∀ {α}, ρ α → ℕ → Option (Parsed α)) :
    {α : Type} → Form τ ρ α → ℕ → Option (Parsed α)
  | _, equal shown x, pos => some (Parser.equal shown x input pos)
  | _, satisfy f, pos => some (Parser.satisfy f input pos)
  | _, choice ps, pos => firstOf pos none (List.ofFn fun i => (ps i).step input rounds enter pos)
  | _, map f p, pos =>
    (p.step input rounds enter pos).map (·.map fun (a, next) => (f a, next))
  | _, pair p q, pos =>
    (p.step input rounds enter pos).bind fun
      | .error e => some (.error e)
      | .ok (a, mid) => (q.step input rounds enter mid).map (·.map fun (b, next) => ((a, b), next))
  | _, optional p, pos =>
    (p.step input rounds enter pos).map fun
      | .ok (a, next) => .ok (some a, next)
      | .error _ => .ok (none, pos)
  | _, named name p, pos => (p.step input rounds enter pos).map (·.mapError (·.within name))
  | _, many p, pos => (repeated (p.step input rounds enter) rounds pos).map .ok
  | _, separatedBy separator item, pos =>
    (item.step input rounds enter pos).bind fun
      | .error _ => some (.ok ([], pos))
      | .ok (a, next) =>
        (repeatedAfter (item.step input rounds enter) (separator.step input rounds enter) rounds
          next).map (·.map fun (as, last) => (a :: as, last))
  | _, rule r, pos => enter r pos

/-- Running a form of a grammar in a number of steps; `none` if they do not suffice. -/
def run [DecidableEq τ] (rules : ∀ {α}, ρ α → Form τ ρ α) (input : Array τ) :
    ℕ → {α : Type} → Form τ ρ α → ℕ → Option (Parsed α)
  | 0, _, _, _ => none
  | steps + 1, _, form, pos => form.step input steps (fun r => run rules input steps (rules r)) pos

/-! ### What is read off a form -/

section Reading

variable (κ : ∀ {α}, ρ α → Prop)

/-- Whether a form cannot succeed without consuming an item, if the rules that `κ` holds of cannot. -/
def Consumes : {α : Type} → Form τ ρ α → Prop
  | _, equal _ _ => True
  | _, satisfy _ => True
  | _, choice ps => ∀ i, (ps i).Consumes
  | _, map _ p => p.Consumes
  | _, pair p q => p.Consumes ∨ q.Consumes
  | _, optional _ => False
  | _, named _ p => p.Consumes
  | _, many _ => False
  | _, separatedBy _ _ => False
  | _, rule r => κ r

/-- What holds of all rules that a form may enter before it has consumed an item. -/
def Starts (P : ∀ {α}, ρ α → Prop) : {α : Type} → Form τ ρ α → Prop
  | _, equal _ _ => True
  | _, satisfy _ => True
  | _, choice ps => ∀ i, (ps i).Starts P
  | _, map _ p => p.Starts P
  | _, pair p q => p.Starts P ∧ (p.Consumes κ ∨ q.Starts P)
  | _, optional p => p.Starts P
  | _, named _ p => p.Starts P
  | _, many p => p.Starts P
  | _, separatedBy separator item => item.Starts P ∧ (item.Consumes κ ∨ separator.Starts P)
  | _, rule r => P r

variable {κ}

theorem Starts.of_forall {P : ∀ {α}, ρ α → Prop} (hP : ∀ {α} (r : ρ α), P r) (p : Form τ ρ α) :
    p.Starts κ P := by
  induction p with
  | equal => trivial
  | satisfy => trivial
  | choice ps ih => exact fun i => ih i
  | map f p ih => exact ih
  | pair p q ihp ihq => exact ⟨ihp, .inr ihq⟩
  | optional p ih => exact ih
  | named name p ih => exact ih
  | many p ih => exact ih
  | separatedBy separator item ihs ihi => exact ⟨ihi, .inr ihs⟩
  | rule r => exact hP r

theorem Starts.mono {P Q : ∀ {α}, ρ α → Prop} {p : Form τ ρ α} (h : p.Starts κ P)
    (hPQ : ∀ {α} (r : ρ α), P r → Q r) : p.Starts κ Q := by
  induction p with
  | equal => trivial
  | satisfy => trivial
  | choice ps ih => exact fun i => ih i (h i)
  | map f p ih => exact ih h
  | pair p q ihp ihq => exact ⟨ihp h.1, h.2.imp_right ihq⟩
  | optional p ih => exact ih h
  | named name p ih => exact ih h
  | many p ih => exact ih h
  | separatedBy separator item ihs ihi => exact ⟨ihi h.1, h.2.imp_right ihs⟩
  | rule r => exact hPQ r h

end Reading

/-- What holds of the bodies of all repetitions in a form, and of the separators and items of all lists. -/
def EachLoop (P : ∀ {α}, Form τ ρ α → Prop) (Q : ∀ {α β}, Form τ ρ α → Form τ ρ β → Prop) :
    {α : Type} → Form τ ρ α → Prop
  | _, equal _ _ => True
  | _, satisfy _ => True
  | _, choice ps => ∀ i, (ps i).EachLoop P Q
  | _, map _ p => p.EachLoop P Q
  | _, pair p q => p.EachLoop P Q ∧ q.EachLoop P Q
  | _, optional p => p.EachLoop P Q
  | _, named _ p => p.EachLoop P Q
  | _, many p => P p ∧ p.EachLoop P Q
  | _, separatedBy separator item => Q separator item ∧ separator.EachLoop P Q ∧ item.EachLoop P Q
  | _, rule _ => True

theorem EachLoop.mono {P P' : ∀ {α}, Form τ ρ α → Prop} {Q Q' : ∀ {α β}, Form τ ρ α → Form τ ρ β → Prop}
    {p : Form τ ρ α} (h : p.EachLoop P Q) (hP : ∀ {α} (p : Form τ ρ α), P p → P' p)
    (hQ : ∀ {α β} (s : Form τ ρ α) (p : Form τ ρ β), Q s p → Q' s p) : p.EachLoop P' Q' := by
  induction p with
  | equal => trivial
  | satisfy => trivial
  | choice ps ih => exact fun i => ih i (h i)
  | map f p ih => exact ih h
  | pair p q ihp ihq => exact ⟨ihp h.1, ihq h.2⟩
  | optional p ih => exact ih h
  | named name p ih => exact ih h
  | many p ih => exact ⟨hP p h.1, ih h.2⟩
  | separatedBy s p ihs ihp => exact ⟨hQ s p h.1, ihs h.2.1, ihp h.2.2⟩
  | rule r => trivial

end Form

/-! ### Moving on -/

namespace Parser

variable {τ α β : Type} {p : Parser τ α} {s : Parser τ β} {strict : Prop} {input : Array τ}
  {pos next : ℕ}

/-- Where the parser succeeds, it has not gone back and not beyond the end, and if `strict` holds it has
consumed something. -/
def Advances (p : Parser τ α) (strict : Prop) : Prop :=
  ∀ ⦃input pos a next⦄, pos ≤ input.size → p input pos = .ok (a, next) →
    pos ≤ next ∧ next ≤ input.size ∧ (strict → pos < next)

theorem Advances.mono {strict' : Prop} (h : p.Advances strict) (hs : strict' → strict) :
    p.Advances strict' :=
  fun _ _ _ _ hpos hp => (h hpos hp).imp_right fun hnext => hnext.imp_right fun hlt => hlt ∘ hs

/-- What a relation holds of is not empty, if the parser is sound for it. -/
theorem Sound.advances {R : List τ → α → Prop} (h : Sound p R) (hR : ∀ ⦃ts a⦄, R ts a → ts ≠ []) :
    p.Advances strict := by
  intro input pos a next _ hp
  obtain ⟨ts, hdrop, rfl, hts⟩ := h hp
  obtain ⟨hlt, hle⟩ := progress_of_drop (hR hts) hdrop
  exact ⟨hlt.le, hle, fun _ => hlt⟩

/-- A parser of single items. -/
theorem Selects.advances {f : τ → Option α} (h : Selects p f) : p.Advances strict := by
  refine h.sound.advances ?_
  rintro ts a ⟨x, rfl, -⟩
  exact List.cons_ne_nil x []

theorem le_manyFrom (hpos : pos ≤ input.size) :
    pos ≤ (manyFrom p input pos).2 ∧ (manyFrom p input pos).2 ≤ input.size := by
  fun_induction manyFrom p input pos with
  | case1 => exact ⟨le_rfl, hpos⟩
  | case2 pos a next ha hprogress as last hrec ih =>
      rw [hrec] at ih
      have := ih hprogress.2
      exact ⟨by omega, this.2⟩
  | case3 => exact ⟨le_rfl, hpos⟩

theorem le_of_manyAfter {as : List α} (hpos : pos ≤ input.size)
    (h : manyAfter s p input pos = .ok (as, next)) : pos ≤ next ∧ next ≤ input.size := by
  fun_induction manyAfter s p input pos generalizing as next with
  | case1 =>
      obtain ⟨-, rfl⟩ := Prod.mk.inj (Except.ok.inj h)
      exact ⟨le_rfl, hpos⟩
  | case2 => exact absurd h (by simp)
  | case3 pos b start hb a mid ha hprogress ih =>
      cases hrec : manyAfter s p input mid with
      | error e => exact absurd h (by simp [hrec, Except.map])
      | ok r =>
          rw [hrec] at h
          obtain ⟨-, rfl⟩ := Prod.mk.inj (Except.ok.inj h)
          have := ih hprogress.2 hrec
          exact ⟨by omega, this.2⟩
  | case4 =>
      obtain ⟨-, rfl⟩ := Prod.mk.inj (Except.ok.inj h)
      exact ⟨le_rfl, hpos⟩

end Parser

namespace Form

variable {τ : Type} {ρ : Type → Type} [DecidableEq τ] {κ : ∀ {α}, ρ α → Prop}
  {σ : ∀ {α}, ρ α → Parser τ α} {α β : Type}

/-- **A form that consumes moves on** when it succeeds, and no form goes back. -/
theorem advances (hσ : ∀ {α} (r : ρ α), (σ r).Advances (κ r)) (form : Form τ ρ α) :
    (form.toParser σ).Advances (form.Consumes κ) := by
  induction form with
  | equal shown x => exact (Parser.selects_equal shown x).advances
  | satisfy f => exact (Parser.selects_satisfy f).advances
  | choice ps ih =>
      intro input pos a next hpos h
      obtain ⟨p, hp, ha⟩ := Parser.exists_of_choice h
      obtain ⟨i, rfl⟩ := List.mem_ofFn.mp hp
      obtain ⟨hle, hnext, hlt⟩ := ih i hpos ha
      exact ⟨hle, hnext, fun hc => hlt (hc i)⟩
  | map f p ih =>
      intro input pos b next hpos h
      obtain ⟨a, ha, -⟩ := Parser.map_eq_ok.mp h
      exact ih hpos ha
  | pair p q ihp ihq =>
      rintro input pos ⟨a, b⟩ next hpos h
      obtain ⟨mid, ha, hb⟩ := Parser.pair_eq_ok.mp h
      obtain ⟨hle, hmid, hp⟩ := ihp hpos ha
      obtain ⟨hle', hnext, hq⟩ := ihq hmid hb
      refine ⟨hle.trans hle', hnext, ?_⟩
      rintro (hc | hc)
      · exact (hp hc).trans_le hle'
      · exact hle.trans_lt (hq hc)
  | optional p ih =>
      intro input pos a? next hpos h
      simp only [toParser, Parser.optional] at h
      split at h
      · next a mid ha =>
        obtain ⟨-, rfl⟩ := Prod.mk.inj (Except.ok.inj h)
        obtain ⟨hle, hnext, -⟩ := ih hpos ha
        exact ⟨hle, hnext, False.elim⟩
      · obtain ⟨-, rfl⟩ := Prod.mk.inj (Except.ok.inj h)
        exact ⟨le_rfl, hpos, False.elim⟩
  | named name p ih => exact fun _ _ _ _ hpos h => ih hpos (Parser.named_eq_ok.mp h)
  | many p ih =>
      intro input pos as next hpos h
      obtain ⟨-, rfl⟩ := Prod.mk.inj (Except.ok.inj h)
      obtain ⟨hle, hnext⟩ := Parser.le_manyFrom hpos
      exact ⟨hle, hnext, False.elim⟩
  | separatedBy separator item ihs ihi =>
      intro input pos as next hpos h
      simp only [toParser, Parser.separatedBy] at h
      split at h
      · obtain ⟨-, rfl⟩ := Prod.mk.inj (Except.ok.inj h)
        exact ⟨le_rfl, hpos, False.elim⟩
      · next a mid ha =>
        obtain ⟨hle, hmid, -⟩ := ihi hpos ha
        cases hafter : Parser.manyAfter (separator.toParser σ) (item.toParser σ) input mid with
        | error e => exact absurd h (by simp [hafter, Except.map])
        | ok r =>
            rw [hafter] at h
            obtain ⟨-, rfl⟩ := Prod.mk.inj (Except.ok.inj h)
            obtain ⟨hle', hnext⟩ := Parser.le_of_manyAfter hmid hafter
            exact ⟨hle.trans hle', hnext, False.elim⟩
  | rule r => exact hσ r

/-! ### Where a form enters its parts -/

/-- A property of forms and positions that a form has where it is entered if its parts have it where they
are entered. Repetitions may rely on moving on in each round. -/
structure IsHereditary (σ : ∀ {α}, ρ α → Parser τ α) (input : Array τ)
    (motive : ∀ {α}, Form τ ρ α → ℕ → Prop) : Prop where
  equal (shown : τ → String) (x : τ) (pos : ℕ) : motive (equal shown x) pos
  satisfy {α : Type} (f : τ → Option α) (pos : ℕ) : motive (satisfy f) pos
  choice {α : Type} {n : ℕ} {ps : Fin n → Form τ ρ α} {pos : ℕ} (h : ∀ i, motive (ps i) pos) :
    motive (choice ps) pos
  map {α β : Type} (f : α → β) {p : Form τ ρ α} {pos : ℕ} (h : motive p pos) : motive (map f p) pos
  pair {α β : Type} {p : Form τ ρ α} {q : Form τ ρ β} {pos : ℕ} (hp : motive p pos)
    (hq : ∀ a mid, p.toParser σ input pos = .ok (a, mid) → motive q mid) : motive (pair p q) pos
  optional {α : Type} {p : Form τ ρ α} {pos : ℕ} (h : motive p pos) : motive (optional p) pos
  named {α : Type} (name : String) {p : Form τ ρ α} {pos : ℕ} (h : motive p pos) :
    motive (named name p) pos
  many {α : Type} {p : Form τ ρ α} {pos : ℕ} (hpos : pos ≤ input.size)
    (h : ∀ q, pos ≤ q → q ≤ input.size → motive p q)
    (hround : ∀ q a next, q ≤ input.size → p.toParser σ input q = .ok (a, next) →
      q < next ∧ next ≤ input.size) : motive (many p) pos
  separatedBy {α β : Type} {s : Form τ ρ β} {p : Form τ ρ α} {pos : ℕ} (hp : motive p pos)
    (h : ∀ a mid, p.toParser σ input pos = .ok (a, mid) →
      mid ≤ input.size ∧ ∀ q, mid ≤ q → q ≤ input.size → motive s q ∧ motive p q)
    (hround : ∀ q b start a next, q ≤ input.size → s.toParser σ input q = .ok (b, start) →
      p.toParser σ input start = .ok (a, next) → q < next ∧ next ≤ input.size) :
    motive (separatedBy s p) pos

/-- A form in which each round of a repetition consumes something. -/
def IsTame (κ : ∀ {α}, ρ α → Prop) (p : Form τ ρ α) : Prop :=
  p.EachLoop (fun body => body.Consumes κ) fun separator item =>
    separator.Consumes κ ∨ item.Consumes κ

omit [DecidableEq τ] in
/-- Behind the place where a form was entered, all rules can be entered; at the place itself only those
that the form starts with. -/
theorem holds_from {input : Array τ} {motive : ∀ {α}, Form τ ρ α → ℕ → Prop} {p : Form τ ρ α}
    {pos q : ℕ} (hp : ∀ ⦃q⦄, q ≤ input.size →
      (∀ {β} (r : ρ β) q', q < q' → q' ≤ input.size → motive (rule r) q') →
      (p.Starts κ fun r => motive (rule r) q) → motive p q)
    (hlater : ∀ {β} (r : ρ β) q, pos < q → q ≤ input.size → motive (rule r) q)
    (hle : pos ≤ q) (hq : q ≤ input.size) (hnow : q = pos → p.Starts κ fun r => motive (rule r) q) :
    motive p q := by
  rcases hle.eq_or_lt with heq | hlt
  · exact hp hq (fun r q' h => hlater r q' (hle.trans_lt h)) (hnow heq.symm)
  · exact hp hq (fun r q' h => hlater r q' (hlt.trans h)) (.of_forall (fun r => hlater r q hlt hq) p)

/-- A hereditary property holds of a form if it holds of all rules further on, and of those that the form may
enter at once. -/
theorem IsHereditary.holds {input : Array τ} {motive : ∀ {α}, Form τ ρ α → ℕ → Prop}
    (h : IsHereditary σ input motive) (hσ : ∀ {α} (r : ρ α), (σ r).Advances (κ r)) {form : Form τ ρ α}
    (htame : form.IsTame κ) {pos : ℕ} (hpos : pos ≤ input.size)
    (hlater : ∀ {α} (r : ρ α) q, pos < q → q ≤ input.size → motive (rule r) q)
    (hnow : form.Starts κ fun r => motive (rule r) pos) : motive form pos := by
  induction form generalizing pos with
  | equal shown x => exact h.equal shown x pos
  | satisfy f => exact h.satisfy f pos
  | choice ps ih => exact h.choice fun i => ih i (htame i) hpos hlater (hnow i)
  | map f p ih => exact h.map f (ih htame hpos hlater hnow)
  | pair p q ihp ihq =>
      refine h.pair (ihp htame.1 hpos hlater hnow.1) fun a mid ha => ?_
      obtain ⟨hle, hmid, hlt⟩ := advances hσ p hpos ha
      refine holds_from (fun _ => ihq htame.2) hlater hle hmid ?_
      rintro rfl
      exact hnow.2.resolve_left fun hc => absurd (hlt hc) (lt_irrefl _)
  | optional p ih => exact h.optional (ih htame hpos hlater hnow)
  | named name p ih => exact h.named name (ih htame hpos hlater hnow)
  | many p ih =>
      refine h.many hpos (fun q hle hq => ?_) fun q a next hq ha => ?_
      · refine holds_from (fun _ => ih htame.2) hlater hle hq ?_
        rintro rfl
        exact hnow
      · obtain ⟨-, hnext, hlt⟩ := advances hσ p hq ha
        exact ⟨hlt htame.1, hnext⟩
  | separatedBy s p ihs ihp =>
      obtain ⟨hround, htame_s, htame_p⟩ := htame
      refine h.separatedBy (ihp htame_p hpos hlater hnow.1) (fun a mid ha => ?_)
        fun q b start a next hq hb ha => ?_
      · obtain ⟨hle, hmid, hlt⟩ := advances hσ p hpos ha
        refine ⟨hmid, fun q hge hq => ⟨?_, ?_⟩⟩
        · refine holds_from (fun _ => ihs htame_s) hlater (hle.trans hge) hq ?_
          rintro rfl
          exact hnow.2.resolve_left fun hc => absurd (hlt hc) (by omega)
        · refine holds_from (fun _ => ihp htame_p) hlater (hle.trans hge) hq ?_
          rintro rfl
          exact hnow.1
      · obtain ⟨hle, hstart, hlt⟩ := advances hσ s hq hb
        obtain ⟨hle', hnext, hlt'⟩ := advances hσ p hstart ha
        exact ⟨hround.elim (fun hc => (hlt hc).trans_le hle') fun hc => hle.trans_lt (hlt' hc), hnext⟩
  | rule r => exact hnow

/-- **Rules are entered further on, or by descending ranks.** What holds of a rule at a place if it holds of
all rules further on, and of those of lower rank at the place, holds of all rules. -/
theorem rule_induction {size : ℕ} {motive : ∀ {α}, ρ α → ℕ → Prop} (rank : ∀ {α}, ρ α → ℕ → ℕ)
    (enter : ∀ {α} (r : ρ α) pos, pos ≤ size →
      (∀ {β} (r' : ρ β) q, pos < q → q ≤ size → motive r' q) →
      (∀ {β} (r' : ρ β), rank r' pos < rank r pos → motive r' pos) → motive r pos)
    (r : ρ α) {pos : ℕ} (hpos : pos ≤ size) : motive r pos := by
  induction hleft : size - pos using Nat.strong_induction_on generalizing α r pos with
  | _ left ihleft =>
    subst hleft
    induction hlevel : rank r pos using Nat.strong_induction_on generalizing α r with
    | _ level ihlevel =>
      subst hlevel
      refine enter r pos hpos (fun r' q hlt hq => ?_) fun r' hlt => ihlevel (rank r' pos) hlt r' rfl
      exact ihleft (size - q) (by omega) r' hq rfl

/-! ### Forms and their rules -/

section Congruence

variable {input : Array τ} {σ' : ∀ {α}, ρ α → Parser τ α} {pos : ℕ}

omit [DecidableEq τ] in
/-- A choice hears its alternatives as they are run. -/
theorem firstOf_map_some (input : Array τ) (pos : ℕ) (ps : List (Parser τ α))
    (furthest : Option ParseError) :
    firstOf pos furthest (ps.map fun p => some (p input pos)) =
      some (Parser.choiceFrom furthest ps input pos) := by
  induction ps generalizing furthest with
  | nil => cases furthest <;> simp only [List.map_nil, firstOf, Parser.choiceFrom]
  | cons p ps ih =>
      cases hp : p input pos with
      | ok r => simp only [List.map_cons, hp, firstOf, Parser.choiceFrom]
      | error e =>
          simp only [List.map_cons, hp, firstOf, Parser.choiceFrom]
          exact ih _

omit [DecidableEq τ] in
theorem manyFrom_congr {p p' : Parser τ α}
    (h : ∀ q, pos ≤ q → q ≤ input.size → p input q = p' input q) (hpos : pos ≤ input.size) :
    Parser.manyFrom p input pos = Parser.manyFrom p' input pos := by
  fun_induction Parser.manyFrom p input pos with
  | case1 pos e he =>
      rw [Parser.manyFrom, ← h pos le_rfl hpos, he]
  | case2 pos a next ha hprogress as last hrec ih =>
      have hrest := ih (fun q hle => h q (hprogress.1.le.trans hle)) hprogress.2
      rw [Parser.manyFrom, ← h pos le_rfl hpos, ha]
      simp only [hprogress, and_self, dif_pos, ← hrest, hrec]
  | case3 pos a next ha hstuck =>
      rw [Parser.manyFrom, ← h pos le_rfl hpos, ha]
      simp only [hstuck, dif_neg, not_false_eq_true]

omit [DecidableEq τ] in
theorem manyAfter_congr {s s' : Parser τ β} {p p' : Parser τ α}
    (h : ∀ q, pos ≤ q → q ≤ input.size → s input q = s' input q ∧ p input q = p' input q)
    (hpos : pos ≤ input.size) (hs : s.Advances False) :
    Parser.manyAfter s p input pos = Parser.manyAfter s' p' input pos := by
  fun_induction Parser.manyAfter s p input pos with
  | case1 pos e he => rw [Parser.manyAfter, ← (h pos le_rfl hpos).1, he]
  | case2 pos b start hb e he =>
      obtain ⟨hle, hstart, -⟩ := hs hpos hb
      rw [Parser.manyAfter, ← (h pos le_rfl hpos).1, hb]
      simp only [← (h start hle hstart).2, he]
  | case3 pos b start hb a next ha hprogress ih =>
      obtain ⟨hle, hstart, -⟩ := hs hpos hb
      have hrest := ih (fun q hge => h q (hprogress.1.le.trans hge)) hprogress.2
      conv_rhs => rw [Parser.manyAfter, ← (h pos le_rfl hpos).1, hb]
      simp only [← (h start hle hstart).2, ha, hprogress, and_self, dif_pos, hrest]
  | case4 pos b start hb a next ha hstuck =>
      obtain ⟨hle, hstart, -⟩ := hs hpos hb
      rw [Parser.manyAfter, ← (h pos le_rfl hpos).1, hb]
      simp only [← (h start hle hstart).2, ha, hstuck, dif_neg, not_false_eq_true]

theorem isHereditary_toParser (hσ : ∀ {α} (r : ρ α), (σ r).Advances (κ r)) :
    IsHereditary σ input fun form pos => form.toParser σ input pos = form.toParser σ' input pos where
  equal _ _ _ := rfl
  satisfy _ _ := rfl
  choice {_ _ ps pos} h := by
    refine Option.some.inj ?_
    simp only [toParser, Parser.choice, ← firstOf_map_some, List.map_ofFn]
    exact congrArg _ (congrArg List.ofFn (funext fun i => congrArg some (h i)))
  map f _ _ h := congrArg (Except.map _) h
  pair {_ _ p q pos} hp hq := by
    show Except.bind _ _ = Except.bind _ _
    rw [← hp]
    cases ha : p.toParser σ input pos with
    | error e => rfl
    | ok r => exact congrArg (Except.map _) (hq r.1 r.2 ha)
  optional {_ p pos} h := by
    simp only [toParser, Parser.optional, h]
  named name _ _ h := congrArg (Except.mapError _) h
  many hpos h _ := congrArg Except.ok (manyFrom_congr h hpos)
  separatedBy {_ _ s p pos} hp h _ := by
    simp only [toParser, Parser.separatedBy, ← hp]
    cases ha : p.toParser σ input pos with
    | error e => rfl
    | ok r =>
        obtain ⟨hmid, hrest⟩ := h r.1 r.2 ha
        have hs : (s.toParser σ).Advances False := (advances hσ s).mono False.elim
        exact congrArg (Except.map _) (manyAfter_congr hrest hmid hs)

/-- **A form depends on its rules only where it can enter them.** -/
theorem toParser_congr (hσ : ∀ {α} (r : ρ α), (σ r).Advances (κ r)) {form : Form τ ρ α}
    (htame : form.IsTame κ) (hpos : pos ≤ input.size)
    (hlater : ∀ {α} (r : ρ α) q, pos < q → q ≤ input.size → σ r input q = σ' r input q)
    (hnow : form.Starts κ fun r => σ r input pos = σ' r input pos) :
    form.toParser σ input pos = form.toParser σ' input pos :=
  (isHereditary_toParser hσ).holds hσ htame hpos hlater hnow

end Congruence

/-! ### Running to the end -/

section Settling

open Filter

variable {rules : ∀ {α}, ρ α → Form τ ρ α} {input : Array τ} {pos : ℕ}

/-- With enough steps, running the form ends with this outcome. -/
def Settles (rules : ∀ {α}, ρ α → Form τ ρ α) (input : Array τ) (form : Form τ ρ α) (pos : ℕ)
    (outcome : Parsed α) : Prop :=
  ∀ᶠ steps in atTop, form.run rules input steps pos = some outcome

/-- Entering a form takes one step. -/
theorem settles_iff_step {form : Form τ ρ α} {outcome : Parsed α} :
    form.Settles rules input pos outcome ↔ ∀ᶠ steps in atTop,
      form.step input steps (fun r => run rules input steps (rules r)) pos = some outcome := by
  conv_lhs => rw [Settles, ← map_add_atTop_eq_nat 1, eventually_map]
  rfl

omit [DecidableEq τ] in
/-- A repetition that moves on in each round ends. -/
theorem eventually_repeated {p : Parser τ α} {outcome : ℕ → ℕ → Option (Parsed α)}
    (hpos : pos ≤ input.size)
    (h : ∀ q, pos ≤ q → q ≤ input.size → ∀ᶠ steps in atTop, outcome steps q = some (p input q))
    (hround : ∀ q a next, pos ≤ q → q ≤ input.size → p input q = .ok (a, next) →
      q < next ∧ next ≤ input.size) :
    ∀ᶠ steps in atTop, ∀ rounds, input.size - pos < rounds →
      repeated (outcome steps) rounds pos = some (Parser.manyFrom p input pos) := by
  fun_induction Parser.manyFrom p input pos with
  | case1 pos e he =>
      filter_upwards [h pos le_rfl hpos] with steps hfirst rounds hrounds
      obtain ⟨rounds, rfl⟩ := Nat.exists_eq_succ_of_ne_zero (Nat.ne_zero_of_lt hrounds)
      simp only [repeated, hfirst, he]
  | case2 pos a next ha hprogress as last hrec ih =>
      have hlater := ih hprogress.2 (fun q hle => h q (hprogress.1.le.trans hle)) fun q a next hle =>
        hround q a next (hprogress.1.le.trans hle)
      filter_upwards [h pos le_rfl hpos, hlater] with steps hfirst hrest rounds hrounds
      obtain ⟨rounds, rfl⟩ := Nat.exists_eq_succ_of_ne_zero (Nat.ne_zero_of_lt hrounds)
      have hfewer : input.size - next < rounds := by omega
      simp only [repeated, hfirst, ha, hrest rounds hfewer, hrec, Option.map_some]
  | case3 pos a next ha hstuck => exact absurd (hround pos a next le_rfl hpos ha) hstuck

omit [DecidableEq τ] in
/-- A list that moves on with each separator and item ends. -/
theorem eventually_repeatedAfter {s : Parser τ β} {p : Parser τ α}
    {outcome : ℕ → ℕ → Option (Parsed α)} {outcome' : ℕ → ℕ → Option (Parsed β)}
    (hpos : pos ≤ input.size)
    (hs : ∀ q b start, pos ≤ q → q ≤ input.size → s input q = .ok (b, start) →
      q ≤ start ∧ start ≤ input.size)
    (h : ∀ q, pos ≤ q → q ≤ input.size → (∀ᶠ steps in atTop, outcome' steps q = some (s input q)) ∧
      ∀ᶠ steps in atTop, outcome steps q = some (p input q))
    (hround : ∀ q b start a next, pos ≤ q → q ≤ input.size → s input q = .ok (b, start) →
      p input start = .ok (a, next) → q < next ∧ next ≤ input.size) :
    ∀ᶠ steps in atTop, ∀ rounds, input.size - pos < rounds →
      repeatedAfter (outcome steps) (outcome' steps) rounds pos =
        some (Parser.manyAfter s p input pos) := by
  fun_induction Parser.manyAfter s p input pos with
  | case1 pos e he =>
      filter_upwards [(h pos le_rfl hpos).1] with steps hseparator rounds hrounds
      obtain ⟨rounds, rfl⟩ := Nat.exists_eq_succ_of_ne_zero (Nat.ne_zero_of_lt hrounds)
      simp only [repeatedAfter, hseparator, he]
  | case2 pos b start hb e he =>
      obtain ⟨hle, hstart⟩ := hs pos b start le_rfl hpos hb
      filter_upwards [(h pos le_rfl hpos).1, (h start hle hstart).2] with steps hseparator hitem rounds
        hrounds
      obtain ⟨rounds, rfl⟩ := Nat.exists_eq_succ_of_ne_zero (Nat.ne_zero_of_lt hrounds)
      simp only [repeatedAfter, hseparator, hb, hitem, he]
  | case3 pos b start hb a next ha hprogress ih =>
      obtain ⟨hle, hstart⟩ := hs pos b start le_rfl hpos hb
      have hlater := ih hprogress.2 (fun q b start hge => hs q b start (hprogress.1.le.trans hge))
        (fun q hge => h q (hprogress.1.le.trans hge)) fun q b start a next hge =>
          hround q b start a next (hprogress.1.le.trans hge)
      filter_upwards [(h pos le_rfl hpos).1, (h start hle hstart).2, hlater] with steps hseparator hitem
        hrest rounds hrounds
      obtain ⟨rounds, rfl⟩ := Nat.exists_eq_succ_of_ne_zero (Nat.ne_zero_of_lt hrounds)
      have hfewer : input.size - next < rounds := by omega
      simp only [repeatedAfter, hseparator, hb, hitem, ha, hrest rounds hfewer, Option.map_some]
  | case4 pos b start hb a next ha hstuck =>
      exact absurd (hround pos b start a next le_rfl hpos hb ha) hstuck

omit [DecidableEq τ] in
/-- A choice ends if each alternative ends in front of which all others fail. -/
theorem eventually_firstOf {n : ℕ} {p : Fin n → Parser τ α} {o : Fin n → ℕ → Option (Parsed α)}
    (h : ∀ i, (∀ j < i, ∃ e, p j input pos = .error e) →
      ∀ᶠ steps in atTop, o i steps = some (p i input pos))
    (furthest : Option ParseError) :
    ∀ᶠ steps in atTop, firstOf pos furthest (List.ofFn fun i => o i steps) =
      some (Parser.choiceFrom furthest (List.ofFn p) input pos) := by
  induction n generalizing furthest with
  | zero =>
      refine .of_forall fun _ => ?_
      cases furthest <;> simp only [List.ofFn_zero, firstOf, Parser.choiceFrom]
  | succ n ih =>
      have hfirst := h 0 fun j hj => absurd hj (Fin.not_lt_zero j)
      simp only [List.ofFn_succ]
      cases hp : p 0 input pos with
      | ok r =>
          filter_upwards [hfirst] with steps hfirst
          simp only [hfirst, hp, firstOf, Parser.choiceFrom]
      | error e =>
          have hrest := ih (p := fun i => p i.succ) (o := fun i => o i.succ) fun i hfails =>
            h i.succ fun j hj => by
              cases j using Fin.cases with
              | zero => exact ⟨e, hp⟩
              | succ j => exact hfails j (Fin.succ_lt_succ_iff.mp hj)
          simp only [Parser.choiceFrom, hp]
          filter_upwards [hfirst, hrest _] with steps hfirst hrest
          simp only [hfirst, hp, firstOf]
          exact hrest

theorem settles_equal (shown : τ → String) (x : τ) :
    (equal shown x : Form τ ρ τ).Settles rules input pos ((equal shown x).toParser σ input pos) :=
  settles_iff_step.mpr (.of_forall fun _ => rfl)

theorem settles_satisfy (f : τ → Option α) :
    (satisfy f : Form τ ρ α).Settles rules input pos ((satisfy f).toParser σ input pos) :=
  settles_iff_step.mpr (.of_forall fun _ => rfl)

theorem settles_choice {n : ℕ} {ps : Fin n → Form τ ρ α}
    (h : ∀ i, (∀ j < i, ∃ e, (ps j).toParser σ input pos = .error e) →
      (ps i).Settles rules input pos ((ps i).toParser σ input pos)) :
    (choice ps).Settles rules input pos ((choice ps).toParser σ input pos) := by
  simp only [settles_iff_step] at h ⊢
  exact eventually_firstOf h none

theorem settles_map (f : α → β) {p : Form τ ρ α}
    (h : p.Settles rules input pos (p.toParser σ input pos)) :
    (map f p).Settles rules input pos ((map f p).toParser σ input pos) := by
  rw [settles_iff_step] at h ⊢
  filter_upwards [h] with steps hpart
  exact congrArg (Option.map (·.map fun (a, next) => (f a, next))) hpart

theorem settles_pair {p : Form τ ρ α} {q : Form τ ρ β}
    (hp : p.Settles rules input pos (p.toParser σ input pos))
    (hq : ∀ a mid, p.toParser σ input pos = .ok (a, mid) →
      q.Settles rules input mid (q.toParser σ input mid)) :
    (pair p q).Settles rules input pos ((pair p q).toParser σ input pos) := by
  rw [settles_iff_step] at hp ⊢
  cases ha : p.toParser σ input pos with
  | error e =>
      filter_upwards [hp] with steps hfirst
      simp only [step, hfirst, ha, Option.bind_some, toParser, Parser.pair, Except.bind]
  | ok r =>
      filter_upwards [hp, settles_iff_step.mp (hq r.1 r.2 ha)] with steps hfirst hsecond
      simp only [step, hfirst, ha, Option.bind_some, hsecond, Option.map_some, toParser, Parser.pair,
        Except.bind]

theorem settles_optional {p : Form τ ρ α} (h : p.Settles rules input pos (p.toParser σ input pos)) :
    (optional p).Settles rules input pos ((optional p).toParser σ input pos) := by
  rw [settles_iff_step] at h ⊢
  filter_upwards [h] with steps hpart
  cases ha : p.toParser σ input pos <;>
    simp only [step, hpart, ha, Option.map_some, toParser, Parser.optional]

theorem settles_named (name : String) {p : Form τ ρ α}
    (h : p.Settles rules input pos (p.toParser σ input pos)) :
    (named name p).Settles rules input pos ((named name p).toParser σ input pos) := by
  rw [settles_iff_step] at h ⊢
  filter_upwards [h] with steps hpart
  exact congrArg (Option.map (·.mapError (·.within name))) hpart

theorem settles_many {p : Form τ ρ α} (hpos : pos ≤ input.size)
    (h : ∀ q, pos ≤ q → q ≤ input.size → p.Settles rules input q (p.toParser σ input q))
    (hround : ∀ q a next, pos ≤ q → q ≤ input.size → p.toParser σ input q = .ok (a, next) →
      q < next ∧ next ≤ input.size) :
    (many p).Settles rules input pos ((many p).toParser σ input pos) := by
  rw [settles_iff_step]
  have hrounds := eventually_repeated hpos (fun q hle hq => settles_iff_step.mp (h q hle hq)) hround
  filter_upwards [hrounds, eventually_gt_atTop (input.size - pos)] with steps hrounds henough
  exact congrArg (Option.map Except.ok) (hrounds steps henough)

theorem settles_separatedBy {s : Form τ ρ β} {p : Form τ ρ α}
    (hp : p.Settles rules input pos (p.toParser σ input pos))
    (h : ∀ a mid, p.toParser σ input pos = .ok (a, mid) → mid ≤ input.size ∧
      ∀ q, mid ≤ q → q ≤ input.size → (s.Settles rules input q (s.toParser σ input q) ∧
        p.Settles rules input q (p.toParser σ input q)) ∧
      ∀ b start, s.toParser σ input q = .ok (b, start) → (q ≤ start ∧ start ≤ input.size) ∧
      ∀ a next, p.toParser σ input start = .ok (a, next) → q < next ∧ next ≤ input.size) :
    (separatedBy s p).Settles rules input pos ((separatedBy s p).toParser σ input pos) := by
  rw [settles_iff_step] at hp ⊢
  cases ha : p.toParser σ input pos with
  | error e =>
      filter_upwards [hp] with steps hfirst
      simp only [step, hfirst, ha, Option.bind_some, toParser, Parser.separatedBy]
  | ok r =>
      obtain ⟨hmid, hrest⟩ := h r.1 r.2 ha
      have hrounds := eventually_repeatedAfter hmid
        (fun q b start hle hq hb => ((hrest q hle hq).2 b start hb).1)
        (fun q hle hq => (hrest q hle hq).1.imp settles_iff_step.mp settles_iff_step.mp)
        fun q b start a next hle hq hb => ((hrest q hle hq).2 b start hb).2 a next
      filter_upwards [hp, hrounds, eventually_gt_atTop (input.size - r.2)] with steps hfirst hrounds
        henough
      simp only [step, hfirst, ha, Option.bind_some, hrounds steps henough, Option.map_some, toParser,
        Parser.separatedBy]

theorem isHereditary_settles (hσ : ∀ {α} (r : ρ α), (σ r).Advances (κ r)) :
    IsHereditary σ input fun form pos => form.Settles rules input pos (form.toParser σ input pos) where
  equal shown x _ := settles_equal shown x
  satisfy f _ := settles_satisfy f
  choice h := settles_choice fun i _ => h i
  map f _ _ h := settles_map f h
  pair hp hq := settles_pair hp hq
  optional h := settles_optional h
  named name _ _ h := settles_named name h
  many hpos h hround := settles_many hpos h fun q a next _ => hround q a next
  separatedBy {_ _ s _ _} hp h hround := by
    refine settles_separatedBy hp fun a mid ha => (h a mid ha).imp_right fun hparts q hle hq =>
      ⟨hparts q hle hq, fun b start hb => ?_⟩
    obtain ⟨hqs, hstart, -⟩ := advances hσ s hq hb
    exact ⟨⟨hqs, hstart⟩, fun a next => hround q b start a next hq hb⟩

/-- **Every run of a grammar ends**, and with what its parser yields, if each round of a repetition consumes
something and the rules that a rule may enter at once have a lower rank. -/
theorem settles_rule (hσ : ∀ {α} (r : ρ α), (σ r).Advances (κ r))
    (heq : ∀ {α} (r : ρ α) pos, pos ≤ input.size → σ r input pos = (rules r).toParser σ input pos)
    (htame : ∀ {α} (r : ρ α), (rules r).IsTame κ) (rank : ∀ {α}, ρ α → ℕ)
    (hrank : ∀ {α} (r : ρ α), (rules r).Starts κ fun r' => rank r' < rank r) (r : ρ α)
    (hpos : pos ≤ input.size) : (rule r : Form τ ρ α).Settles rules input pos (σ r input pos) := by
  refine rule_induction (motive := fun r pos =>
    (rule r).Settles rules input pos (σ r input pos)) (fun r _ => rank r) ?_ r hpos
  intro α r pos hpos hlater hlower
  rw [heq r pos hpos]
  refine settles_iff_step.mpr ((isHereditary_settles hσ).holds hσ (htame r) hpos hlater ?_)
  exact (hrank r).mono hlower

omit [DecidableEq τ] in
theorem repeated_eq_none {outcome : ℕ → Option (Parsed α)} {a : α}
    (h : outcome pos = none ∨ outcome pos = some (.ok (a, pos))) (rounds : ℕ) :
    repeated outcome rounds pos = none := by
  induction rounds with
  | zero => rfl
  | succ rounds ih => rcases h with h | h <;> simp [repeated, h, ih]

/-- **A repetition that stands still never ends.** Nothing but the condition on repetitions rules it out. -/
theorem run_many_eq_none {p : Form τ ρ α} {a : α}
    (h : ∀ steps, p.run rules input steps pos = none ∨
      p.run rules input steps pos = some (.ok (a, pos))) (steps : ℕ) :
    (many p).run rules input steps pos = none := by
  cases steps with
  | zero => rfl
  | succ steps => exact congrArg (Option.map _) (repeated_eq_none (h (steps + 1)) steps)

end Settling

end Form

end ErrorAnalysis
