import Mathlib.Data.Set.Card
import Mathlib.Logic.Relation
import ErrorAnalysis.Proofs.Grammar.Outcomes
import ErrorAnalysis.Proofs.Grammar.Termination

/-!
# Progress

When does parsing end? Not what a form looks like counts here, but what it does on an input: a repetition may
have a body that could stand still elsewhere, and a rule may refer to itself in an alternative that is never
tried before something was consumed. Of a grammar it is asked that the bodies of its repetitions consume
something whenever they succeed, and so do its separators together with the items behind them, and that no
rule is entered once more at the place where it was entered.

Under these conditions every form has an outcome at every position. It is what the parser of the form yields,
whichever parsers solve the rules.

## Main definitions

* `Form.Enters`: the rules that are entered before anything is consumed.
* `Form.LoopsProgress`, `Form.IsProgressive`: the conditions.
* `Form.HasOutcome`: what running a form and its parser come to.

## Main results

* `Form.settles_of_enters`: a form ends if the rules do that it enters.
* `Form.IsProgressive.of_ranks`: the conditions are met where they can be read off the rules.
* `Form.exists_outcome`: **parsing ends, positions and errors lie within the input, and names do not matter.**
-/

namespace ErrorAnalysis

namespace Form

variable {τ : Type} {ρ : Type → Type} [DecidableEq τ] {α β : Type}

/-! ### What is asked of a grammar -/

section Conditions

variable (rules : ∀ {α}, ρ α → Form τ ρ α) (input : Array τ)

/-- Where the form succeeds, it has consumed something. -/
def Progresses (form : Form τ ρ α) : Prop :=
  ∀ pos a next, pos ≤ input.size → form.Yields rules input pos (.ok (a, next)) → pos < next

/-- Where the separator succeeds and the item behind it does, they have consumed something. -/
def ProgressesAfter (separator : Form τ ρ α) (item : Form τ ρ β) : Prop :=
  ∀ pos a mid b next, pos ≤ input.size → separator.Yields rules input pos (.ok (a, mid)) →
    item.Yields rules input mid (.ok (b, next)) → pos < next

/-- No repetition in the form stands still. -/
def LoopsProgress (form : Form τ ρ α) : Prop :=
  form.EachLoop (Progresses rules input) (ProgressesAfter rules input)

/-- The rules that the form enters from a position on before it has consumed anything. -/
def Enters (pos : ℕ) : {α : Type} → Form τ ρ α → (Σ α, ρ α) → Prop
  | _, equal _ _, _ => False
  | _, satisfy _, _ => False
  | _, choice ps, r =>
    ∃ i, (∀ j < i, ∃ e, (ps j).Yields rules input pos (.error e)) ∧ (ps i).Enters pos r
  | _, map _ p, r => p.Enters pos r
  | _, pair p q, r => p.Enters pos r ∨ (∃ a, p.Yields rules input pos (.ok (a, pos))) ∧ q.Enters pos r
  | _, optional p, r => p.Enters pos r
  | _, named _ p, r => p.Enters pos r
  | _, many p, r => p.Enters pos r
  | _, separatedBy separator item, r =>
    item.Enters pos r ∨ (∃ a, item.Yields rules input pos (.ok (a, pos))) ∧ separator.Enters pos r
  | _, rule r, r' => ⟨_, r⟩ = r'

/-- Once the first rule has been entered at the position, so is the second, with nothing consumed. -/
def Leads (pos : ℕ) (r r' : Σ α, ρ α) : Prop :=
  (rules r.2).Enters rules input pos r'

/-- On the input, the repetitions of a grammar consume something in each round, and a rule is entered again
only where something has been consumed. -/
structure IsProgressive : Prop where
  loops : ∀ {α} (r : ρ α), (rules r).LoopsProgress rules input
  reentry : ∀ pos ≤ input.size, ∀ r, ¬Relation.TransGen (Leads rules input pos) r r
  /-- As long as nothing is consumed, a rule leads to finitely many others. In a grammar of finitely many
  rules this is nothing to ask. -/
  finite : ∀ pos ≤ input.size, ∀ r, {r' | Relation.TransGen (Leads rules input pos) r r'}.Finite

/-- Parsers for the rules that are made of each other as the rules say. -/
def Solves (σ : ∀ {α}, ρ α → Parser τ α) : Prop :=
  ∀ {α} (r : ρ α), ∀ pos ≤ input.size, σ r input pos = (rules r).toParser σ input pos

/-- What all runs that are long enough end with, and what the parser of the form yields. -/
structure HasOutcome (form : Form τ ρ α) (pos : ℕ) (outcome : Parsed α) : Prop where
  ends : ∃ enough, ∀ steps ≥ enough, form.run rules input steps pos = some outcome
  parses : ∀ σ : ∀ {α}, ρ α → Parser τ α, Solves rules input σ → form.toParser σ input pos = outcome

end Conditions

variable {rules : ∀ {α}, ρ α → Form τ ρ α} {input : Array τ} {pos : ℕ} {σ : ∀ {α}, ρ α → Parser τ α}

theorem IsProgressive.of_finite [Finite (Σ α, ρ α)]
    (hloops : ∀ {α} (r : ρ α), (rules r).LoopsProgress rules input)
    (hreentry : ∀ pos ≤ input.size, ∀ r, ¬Relation.TransGen (Leads rules input pos) r r) :
    IsProgressive rules input where
  loops := hloops
  reentry := hreentry
  finite _ _ _ := Set.toFinite _

/-! ### Forms and the rules that they enter -/

section Entering

theorem settles_from {form : Form τ ρ α}
    (hform : ∀ q ≤ input.size,
      (∀ {β} (r : ρ β) q', q < q' → q' ≤ input.size →
        (rule r : Form τ ρ β).Settles rules input q' (σ r input q')) →
      (∀ r, form.Enters rules input q r →
        (rule r.2 : Form τ ρ r.1).Settles rules input q (σ r.2 input q)) →
      form.Settles rules input q (form.toParser σ input q))
    (hlater : ∀ {β} (r : ρ β) q, pos < q → q ≤ input.size →
      (rule r : Form τ ρ β).Settles rules input q (σ r input q))
    {q : ℕ} (hle : pos ≤ q) (hq : q ≤ input.size)
    (hnow : q = pos → ∀ r, form.Enters rules input pos r →
      (rule r.2 : Form τ ρ r.1).Settles rules input pos (σ r.2 input pos)) :
    form.Settles rules input q (form.toParser σ input q) := by
  refine hform q hq (fun r q' hlt => hlater r q' (hle.trans_lt hlt)) fun r hr => ?_
  rcases hle.eq_or_lt with rfl | hlt
  · exact hnow rfl r hr
  · exact hlater r.2 q hlt hq

/-- **A form ends, with what its parser yields,** if all rules do further on, and at the place itself those
that the form enters there. -/
theorem settles_of_enters {form : Form τ ρ α} (hloops : form.LoopsProgress rules input)
    (hpos : pos ≤ input.size)
    (hlater : ∀ {β} (r : ρ β) q, pos < q → q ≤ input.size →
      (rule r : Form τ ρ β).Settles rules input q (σ r input q))
    (hnow : ∀ r, form.Enters rules input pos r →
      (rule r.2 : Form τ ρ r.1).Settles rules input pos (σ r.2 input pos)) :
    form.Settles rules input pos (form.toParser σ input pos) := by
  induction form generalizing pos with
  | equal shown x => exact settles_equal shown x
  | satisfy f => exact settles_satisfy f
  | choice ps ih =>
      refine settles_choice fun i => ?_
      -- An alternative is entered where those in front of it have failed, which are known to end by then.
      induction hi : i.val using Nat.strong_induction_on generalizing i with
      | _ n ihn =>
        subst hi
        intro hfails
        refine ih i (hloops i) hpos hlater fun r hr => hnow r ⟨i, fun j hj => ?_, hr⟩
        have hj' := ihn j hj j rfl fun k hk => hfails k (hk.trans hj)
        obtain ⟨e, he⟩ := hfails j hj
        exact ⟨e, settles_iff_yields.mp (he ▸ hj')⟩
  | map f p ih => exact settles_map f (ih hloops hpos hlater hnow)
  | pair p q ihp ihq =>
      have hp := ihp hloops.1 hpos hlater fun r hr => hnow r (.inl hr)
      refine settles_pair hp fun a mid ha => ?_
      rw [ha] at hp
      have hmid := (settles_iff_yields.mp hp).inBounds hpos
      refine settles_from (fun q hq => ihq hloops.2 hq) hlater hmid.1 hmid.2 ?_
      rintro rfl r hr
      exact hnow r (.inr ⟨⟨a, settles_iff_yields.mp hp⟩, hr⟩)
  | optional p ih => exact settles_optional (ih hloops hpos hlater hnow)
  | named name p ih => exact settles_named name (ih hloops hpos hlater hnow)
  | many p ih =>
      have hp : ∀ q, pos ≤ q → q ≤ input.size → p.Settles rules input q (p.toParser σ input q) :=
        fun q hle hq => settles_from (fun q hq => ih hloops.2 hq) hlater hle hq fun _ => hnow
      refine settles_many hpos hp fun q a next hle hq ha => ?_
      have hyields := settles_iff_yields.mp (ha ▸ hp q hle hq)
      exact ⟨hloops.1 q a next hq hyields, (hyields.inBounds hq).2⟩
  | separatedBy s p ihs ihp =>
      obtain ⟨hround, hloops_s, hloops_p⟩ := hloops
      have hp : ∀ q, pos ≤ q → q ≤ input.size → p.Settles rules input q (p.toParser σ input q) :=
        fun q hle hq => settles_from (fun q hq => ihp hloops_p hq) hlater hle hq fun _ r hr =>
          hnow r (.inl hr)
      refine settles_separatedBy (hp pos le_rfl hpos) fun a mid ha => ?_
      have hfirst := settles_iff_yields.mp (ha ▸ hp pos le_rfl hpos)
      have hmid := hfirst.inBounds hpos
      refine ⟨hmid.2, fun q hle hq => ?_⟩
      have hs : s.Settles rules input q (s.toParser σ input q) := by
        refine settles_from (fun q hq => ihs hloops_s hq) hlater (hmid.1.trans hle) hq fun heq r hr => ?_
        obtain rfl : mid = pos := le_antisymm (hle.trans heq.le) hmid.1
        exact hnow r (.inr ⟨⟨a, hfirst⟩, hr⟩)
      refine ⟨⟨hs, hp q (hmid.1.trans hle) hq⟩, fun b start hb => ?_⟩
      have hseparator := settles_iff_yields.mp (hb ▸ hs)
      have hstart := hseparator.inBounds hq
      refine ⟨hstart, fun c next hc => ?_⟩
      have hitem := settles_iff_yields.mp
        (hc ▸ hp start (hmid.1.trans (hle.trans hstart.1)) hstart.2)
      exact ⟨hround q b start c next hq hseparator hitem, (hitem.inBounds hstart.2).2⟩
  | rule r => exact hnow ⟨_, r⟩ rfl

/-- The rules that a rule leads to are fewer than those that led to it. -/
theorem IsProgressive.ncard_lt (h : IsProgressive rules input) (hpos : pos ≤ input.size)
    {r r' : Σ α, ρ α} (hr : Leads rules input pos r r') :
    {r'' | Relation.TransGen (Leads rules input pos) r' r''}.ncard <
      {r'' | Relation.TransGen (Leads rules input pos) r r''}.ncard := by
  refine Set.ncard_lt_ncard ⟨fun r'' hr'' => .head hr hr'', fun hsub => ?_⟩ (h.finite pos hpos r)
  exact h.reentry pos hpos r' (hsub (.single hr))

/-- **Every rule ends** at every position, and parsers for the rules that follow them where they end yield
with what. -/
theorem IsProgressive.settles_rule (h : IsProgressive rules input)
    (hσ : ∀ {α} (r : ρ α) q, q ≤ input.size →
      (rules r).Settles rules input q ((rules r).toParser σ input q) →
      σ r input q = (rules r).toParser σ input q)
    (r : ρ α) (hpos : pos ≤ input.size) :
    (rule r : Form τ ρ α).Settles rules input pos (σ r input pos) := by
  refine rule_induction (motive := fun r pos => (rule r).Settles rules input pos (σ r input pos))
    (fun {α} r pos => {r' | Relation.TransGen (Leads rules input pos) ⟨α, r⟩ r'}.ncard) ?_ r hpos
  intro α r pos hpos hlater hlower
  have hbody : (rules r).Settles rules input pos ((rules r).toParser σ input pos) :=
    settles_of_enters (h.loops r) hpos hlater fun r' hr' => hlower r'.2 (h.ncard_lt hpos hr')
  rw [hσ r pos hpos hbody]
  exact settles_iff_step.mpr hbody

theorem IsProgressive.settles (h : IsProgressive rules input)
    (hσ : ∀ {α} (r : ρ α) q, q ≤ input.size →
      (rules r).Settles rules input q ((rules r).toParser σ input q) →
      σ r input q = (rules r).toParser σ input q)
    {form : Form τ ρ α} (hform : form.LoopsProgress rules input) (hpos : pos ≤ input.size) :
    form.Settles rules input pos (form.toParser σ input pos) :=
  settles_of_enters hform hpos (fun r _ _ hq => h.settles_rule hσ r hq) fun r _ =>
    h.settles_rule hσ r.2 hpos

/-- The outcome of a rule, where it has one. -/
noncomputable def ultimately (rules : ∀ {α}, ρ α → Form τ ρ α) (r : ρ α) : Parser τ α :=
  fun input pos =>
    open Classical in
    if h : ∃ outcome, (rule r : Form τ ρ α).Settles rules input pos outcome then h.choose
    else Parser.fail .noProgress pos

theorem Settles.ultimately_eq {r : ρ α} {outcome : Parsed α}
    (h : (rule r : Form τ ρ α).Settles rules input pos outcome) :
    ultimately rules r input pos = outcome := by
  have hexists : ∃ o, (rule r : Form τ ρ α).Settles rules input pos o := ⟨outcome, h⟩
  rw [ultimately, dif_pos hexists]
  exact (settles_iff_yields.mp hexists.choose_spec).unique (settles_iff_yields.mp h)

/-- There are parsers that solve the rules. -/
theorem IsProgressive.solves_ultimately (h : IsProgressive rules input) :
    Solves rules input (ultimately rules) := by
  intro α r pos hpos
  have hfollows : ∀ {β} (r : ρ β) q, q ≤ input.size →
      (rules r).Settles rules input q ((rules r).toParser (ultimately rules) input q) →
      ultimately rules r input q = (rules r).toParser (ultimately rules) input q :=
    fun r q _ hbody => (settles_iff_step.mpr hbody : (rule r).Settles rules input q _).ultimately_eq
  exact hfollows r pos hpos (h.settles hfollows (h.loops r) hpos)

/-- Every form has an outcome. -/
theorem IsProgressive.hasOutcome (h : IsProgressive rules input) {form : Form τ ρ α}
    (hform : form.LoopsProgress rules input) (hpos : pos ≤ input.size) :
    form.HasOutcome rules input pos (form.toParser (ultimately rules) input pos) := by
  have hsettles {σ : ∀ {α}, ρ α → Parser τ α} (hσ : Solves rules input σ) :
      form.Settles rules input pos (form.toParser σ input pos) :=
    h.settles (fun r q hq _ => hσ r q hq) hform hpos
  have hends := hsettles h.solves_ultimately
  refine ⟨Filter.eventually_atTop.mp hends, fun σ hσ => ?_⟩
  exact (settles_iff_yields.mp (hsettles hσ)).unique (settles_iff_yields.mp hends)

theorem HasOutcome.yields {form : Form τ ρ α} {outcome : Parsed α}
    (h : form.HasOutcome rules input pos outcome) : form.Yields rules input pos outcome := by
  obtain ⟨enough, henough⟩ := h.ends
  exact ⟨enough, henough enough le_rfl⟩

end Entering

/-! ### The conditions without names -/

section Names

omit [DecidableEq τ] in
theorem eachLoop_unnamed {P P' : ∀ {α}, Form τ ρ α → Prop}
    {Q Q' : ∀ {α β}, Form τ ρ α → Form τ ρ β → Prop} (hP : ∀ {α} (p : Form τ ρ α), P' p.unnamed ↔ P p)
    (hQ : ∀ {α β} (s : Form τ ρ α) (p : Form τ ρ β), Q' s.unnamed p.unnamed ↔ Q s p)
    (form : Form τ ρ α) : form.unnamed.EachLoop P' Q' ↔ form.EachLoop P Q := by
  induction form with
  | equal | satisfy | rule => exact Iff.rfl
  | choice ps ih => exact forall_congr' ih
  | map f p ih => exact ih
  | pair p q ihp ihq => exact and_congr ihp ihq
  | optional p ih => exact ih
  | named name p ih => exact ih
  | many p ih => exact and_congr (hP p) ih
  | separatedBy s p ihs ihp => exact and_congr (hQ s p) (and_congr ihs ihp)

theorem yields_ok_unnamed {form : Form τ ρ α} {r : α × ℕ} :
    form.unnamed.Yields (fun r => (rules r).unnamed) input pos (.ok r) ↔
      form.Yields rules input pos (.ok r) := by
  simp only [Yields, run_unnamed, Option.map_eq_some_iff, Parser.unnamed_eq_ok, exists_eq_right]

theorem yields_error_unnamed {form : Form τ ρ α} :
    (∃ e, form.unnamed.Yields (fun r => (rules r).unnamed) input pos (.error e)) ↔
      ∃ e, form.Yields rules input pos (.error e) := by
  simp only [Yields, run_unnamed, Option.map_eq_some_iff]
  constructor
  · rintro ⟨e, steps, outcome, hrun, houtcome⟩
    cases outcome with
    | ok r => exact absurd houtcome (by simp)
    | error e => exact ⟨e, steps, hrun⟩
  · rintro ⟨e, steps, hrun⟩
    exact ⟨e.unnamed, steps, .error e, hrun, rfl⟩

theorem loopsProgress_unnamed (form : Form τ ρ α) :
    form.unnamed.LoopsProgress (fun r => (rules r).unnamed) input ↔ form.LoopsProgress rules input := by
  refine eachLoop_unnamed (fun p => ?_) (fun s p => ?_) form
  · simp only [Progresses, yields_ok_unnamed]
  · simp only [ProgressesAfter, yields_ok_unnamed]

theorem enters_unnamed (form : Form τ ρ α) (r : Σ α, ρ α) :
    form.unnamed.Enters (fun r => (rules r).unnamed) input pos r ↔ form.Enters rules input pos r := by
  induction form with
  | equal | satisfy | rule => exact Iff.rfl
  | choice ps ih => simp only [unnamed, Enters, yields_error_unnamed, ih]
  | map f p ih => exact ih
  | pair p q ihp ihq => simp only [unnamed, Enters, yields_ok_unnamed, ihp, ihq]
  | optional p ih => exact ih
  | named name p ih => exact ih
  | many p ih => exact ih
  | separatedBy s p ihs ihp => simp only [unnamed, Enters, yields_ok_unnamed, ihs, ihp]

theorem isProgressive_unnamed :
    IsProgressive (fun r => (rules r).unnamed) input ↔ IsProgressive rules input := by
  have hleads (pos : ℕ) : Leads (fun r => (rules r).unnamed) input pos = Leads rules input pos := by
    ext r r'
    exact enters_unnamed (rules r.2) r'
  constructor
  · intro h
    refine ⟨fun r => (loopsProgress_unnamed (rules r)).mp (h.loops r), ?_, ?_⟩
    · exact fun pos hpos => hleads pos ▸ h.reentry pos hpos
    · exact fun pos hpos => hleads pos ▸ h.finite pos hpos
  · intro h
    refine ⟨fun r => (loopsProgress_unnamed (rules r)).mpr (h.loops r), ?_, ?_⟩
    · exact fun pos hpos => (hleads pos).symm ▸ h.reentry pos hpos
    · exact fun pos hpos => (hleads pos).symm ▸ h.finite pos hpos

end Names

/-! ### Reading the conditions off the rules -/

section Ranks

variable {κ : ∀ {α}, ρ α → Prop}

omit [DecidableEq τ] in
theorem mem_of_firstOf {outcomes : List (Option (Parsed α))} {furthest : Option ParseError} {r : α × ℕ}
    (h : firstOf pos furthest outcomes = some (.ok r)) : some (.ok r) ∈ outcomes := by
  induction outcomes generalizing furthest with
  | nil =>
      cases furthest with
      | none => exact absurd h (by simp [firstOf, Parser.fail])
      | some e => by_cases hbehind : pos < e.position <;> simp [firstOf, Parser.fail, hbehind] at h
  | cons first rest ih =>
      rcases first with _ | e | r'
      · exact absurd h (by simp [firstOf])
      · exact List.mem_cons_of_mem _ (ih h)
      · obtain rfl : r' = r := by simpa [firstOf] using h
        exact List.mem_cons_self

theorem step_consumes {enter : ∀ {α}, ρ α → ℕ → Option (Parsed α)}
    (hbounds : ∀ {α} (r : ρ α), ∀ q ≤ input.size, ∀ o ∈ enter r q, Parser.InBounds input q o)
    (henter : ∀ {α} (r : ρ α), κ r → ∀ q ≤ input.size, ∀ a next,
      enter r q = some (.ok (a, next)) → q < next)
    {rounds : ℕ} {form : Form τ ρ α} (hform : form.Consumes κ) :
    ∀ pos ≤ input.size, ∀ a next, form.step input rounds enter pos = some (.ok (a, next)) →
      pos < next := by
  induction form with
  | equal shown x =>
      intro pos hpos a next h
      have hmoves : (Parser.equal shown x).Advances True := (Parser.selects_equal shown x).advances
      exact (hmoves hpos (Option.some.inj h)).2.2 trivial
  | satisfy f =>
      intro pos hpos a next h
      have hmoves : (Parser.satisfy f).Advances True := (Parser.selects_satisfy f).advances
      exact (hmoves hpos (Option.some.inj h)).2.2 trivial
  | choice ps ih =>
      intro pos hpos a next h
      obtain ⟨i, hi⟩ := List.mem_ofFn.mp (mem_of_firstOf h)
      exact ih i (hform i) pos hpos a next hi
  | map f p ih =>
      intro pos hpos b next h
      obtain ⟨part, hpart, h⟩ := Option.map_eq_some_iff.mp h
      rcases part with e | ⟨a, last⟩
      · exact absurd h (by simp [Except.map])
      · obtain ⟨-, rfl⟩ := Prod.mk.inj (Except.ok.inj h)
        exact ih hform pos hpos a last hpart
  | pair p q ihp ihq =>
      rintro pos hpos ⟨a, b⟩ next h
      obtain ⟨first, hfirst, h⟩ := Option.bind_eq_some_iff.mp h
      have hmid := step_inBounds hbounds p pos hpos first hfirst
      rcases first with e | ⟨a', mid⟩
      · exact absurd h (by simp)
      · obtain ⟨second, hsecond, h⟩ := Option.map_eq_some_iff.mp h
        have hnext := step_inBounds hbounds q mid hmid.2 second hsecond
        rcases second with e | ⟨b', last⟩
        · exact absurd h (by simp [Except.map])
        · obtain ⟨-, rfl⟩ := Prod.mk.inj (Except.ok.inj h)
          rcases hform with hp | hq
          · exact (ihp hp pos hpos a' mid hfirst).trans_le hnext.1
          · exact hmid.1.trans_lt (ihq hq mid hmid.2 b' last hsecond)
  | optional p | many p | separatedBy s p => exact hform.elim
  | named name p ih =>
      intro pos hpos a next h
      obtain ⟨part, hpart, h⟩ := Option.map_eq_some_iff.mp h
      rcases part with e | r
      · exact absurd h (by simp [Except.mapError])
      · obtain rfl := Except.ok.inj h
        exact ih hform pos hpos a next hpart
  | rule r => exact henter r hform

theorem run_consumes (hκ : ∀ {α} (r : ρ α), κ r → (rules r).Consumes κ) (steps : ℕ)
    {form : Form τ ρ α} (hform : form.Consumes κ) :
    ∀ pos ≤ input.size, ∀ a next, form.run rules input steps pos = some (.ok (a, next)) →
      pos < next := by
  induction steps generalizing α form with
  | zero => simp [run]
  | succ steps ih =>
      exact step_consumes (fun r q hq => run_inBounds steps (rules r) hq) (fun r hr => ih (hκ r hr)) hform

/-- A form that consumes does so wherever it succeeds. -/
theorem Consumes.progresses (hκ : ∀ {α} (r : ρ α), κ r → (rules r).Consumes κ) {form : Form τ ρ α}
    (hform : form.Consumes κ) : form.Progresses rules input := by
  rintro pos a next hpos ⟨steps, h⟩
  exact run_consumes hκ steps hform pos hpos a next h

theorem IsTame.loopsProgress (hκ : ∀ {α} (r : ρ α), κ r → (rules r).Consumes κ) {form : Form τ ρ α}
    (hform : form.IsTame κ) : form.LoopsProgress rules input := by
  refine EachLoop.mono hform (fun body hbody => hbody.progresses hκ) ?_
  rintro _ _ separator item (hs | hp) pos a mid b next hpos ha hb
  · exact (hs.progresses hκ pos a mid hpos ha).trans_le (hb.inBounds (ha.inBounds hpos).2).1
  · exact (ha.inBounds hpos).1.trans_lt (hp.progresses hκ mid b next (ha.inBounds hpos).2 hb)

/-- A rule that is entered is one that the form starts with. -/
theorem Enters.of_starts (hκ : ∀ {α} (r : ρ α), κ r → (rules r).Consumes κ) {P : ∀ {α}, ρ α → Prop}
    (hpos : pos ≤ input.size) {form : Form τ ρ α} {r : Σ α, ρ α} (h : form.Enters rules input pos r)
    (hform : form.Starts κ P) : P r.2 := by
  induction form with
  | equal | satisfy => exact h.elim
  | choice ps ih =>
      obtain ⟨i, -, hi⟩ := h
      exact ih i hi (hform i)
  | map f p ih => exact ih h hform
  | pair p q ihp ihq =>
      rcases h with hp | ⟨⟨a, ha⟩, hq⟩
      · exact ihp hp hform.1
      · refine ihq hq (hform.2.resolve_left fun hc => ?_)
        exact absurd (hc.progresses hκ pos a pos hpos ha) (lt_irrefl pos)
  | optional p ih => exact ih h hform
  | named name p ih => exact ih h hform
  | many p ih => exact ih h hform
  | separatedBy s p ihs ihp =>
      rcases h with hp | ⟨⟨a, ha⟩, hs⟩
      · exact ihp hp hform.1
      · refine ihs hs (hform.2.resolve_left fun hc => ?_)
        exact absurd (hc.progresses hκ pos a pos hpos ha) (lt_irrefl pos)
  | rule r =>
      obtain rfl := h
      exact hform

/-- **The conditions hold on every input** if they can be read off the rules: the bodies of repetitions
consume, and a rule starts with rules of a lower rank only. -/
theorem IsProgressive.of_ranks [Finite (Σ α, ρ α)] (hκ : ∀ {α} (r : ρ α), κ r → (rules r).Consumes κ)
    (htame : ∀ {α} (r : ρ α), (rules r).IsTame κ) (rank : ∀ {α}, ρ α → ℕ)
    (hrank : ∀ {α} (r : ρ α), (rules r).Starts κ fun r' => rank r' < rank r) :
    IsProgressive rules input := by
  refine .of_finite (fun r => (htame r).loopsProgress hκ) fun pos hpos r hr => ?_
  have hdescends : ∀ r', Relation.TransGen (Leads rules input pos) r r' → rank r'.2 < rank r.2 := by
    intro r' hr'
    induction hr' with
    | single h => exact h.of_starts hκ hpos (hrank _)
    | tail _ h ih => exact (h.of_starts hκ hpos (hrank _)).trans ih
  exact lt_irrefl _ (hdescends r hr)

end Ranks

/-! ### Parsing -/

/-- **Parsing ends, positions and errors lie within the input, and names do not matter.** Let a grammar and a
form be such that the repetitions consume something in each round, and that a rule is entered again only
where something has been consumed. Then the form has an outcome at every position; a success leads to a place
between there and the end of the input, and an error is placed there too; and however names are put around
the parts of the form and of the rules, or taken off, there is an outcome, with the same value and the same
place behind it, or an error at the same place and for the same cause. -/
theorem exists_outcome (hrules : IsProgressive rules input) {form : Form τ ρ α}
    (hform : form.LoopsProgress rules input) (hpos : pos ≤ input.size) :
    ∃ outcome : Parsed α, form.HasOutcome rules input pos outcome ∧
      (∀ a next, outcome = .ok (a, next) → pos ≤ next ∧ next ≤ input.size) ∧
      (∀ e, outcome = .error e → pos ≤ e.position ∧ e.position ≤ input.size) ∧
      ∀ (rules' : ∀ {β}, ρ β → Form τ ρ β) (form' : Form τ ρ α),
        (∀ {β} (r : ρ β), (rules' r).unnamed = (rules r).unnamed) → form'.unnamed = form.unnamed →
        ∃ outcome', form'.HasOutcome rules' input pos outcome' ∧
          Parser.unnamed outcome' = Parser.unnamed outcome := by
  have houtcome := hrules.hasOutcome hform hpos
  have hbounds := houtcome.yields.inBounds hpos
  refine ⟨_, houtcome, fun a next h => ?_, fun e h => ?_, fun rules' form' hrules' hform' => ?_⟩
  · rw [h] at hbounds
    exact hbounds
  · rw [h] at hbounds
    exact hbounds
  · have hsame : (fun {β} (r : ρ β) => (rules' r).unnamed) = fun {β} (r : ρ β) => (rules r).unnamed := by
      funext β r
      exact hrules' r
    have hprogressive : IsProgressive rules' input := by
      rw [← isProgressive_unnamed, hsame, isProgressive_unnamed]
      exact hrules
    have hloops : form'.LoopsProgress rules' input := by
      rw [← loopsProgress_unnamed, hsame, hform', loopsProgress_unnamed]
      exact hform
    have houtcome' := hprogressive.hasOutcome hloops hpos
    refine ⟨_, houtcome', ?_⟩
    obtain ⟨enough, hends⟩ := houtcome.ends
    obtain ⟨enough', hends'⟩ := houtcome'.ends
    have hruns := run_congr_unnamed hrules' hform' input (max enough enough') pos
    rw [hends _ (le_max_left _ _), hends' _ (le_max_right _ _)] at hruns
    exact Option.some.inj hruns

end Form

namespace Grammar

open Form

/-- The rules of the grammar are finitely many. -/
instance finite_ruleName : Finite (Σ α, RuleName α) := by
  have hlevel : Finite Level := by
    refine Finite.of_injective (fun l : Level => (⟨l.rank, ?_⟩ : Fin 9)) fun l l' h => ?_
    · cases l <;> decide
    · revert h
      cases l <;> cases l' <;> decide
  refine Finite.of_surjective
    (fun l : Option Level => ⟨Expr, l.elim RuleName.expression RuleName.level⟩) ?_
  rintro ⟨_, r⟩
  cases r with
  | expression => exact ⟨none, rfl⟩
  | level l => exact ⟨some l, rfl⟩

theorem consumes_rules {α : Type} (r : RuleName α) : (Forms.rules r).Consumes consuming := by
  cases r with
  | expression => trivial
  | level l =>
      cases l <;>
        simp [Forms.rules, Forms.chain, Forms.operand, Forms.comparison, Forms.atom, Forms.list,
          Forms.call, Consumes, Fin.forall_fin_succ]

/-- The grammar of expressions makes progress on every input. -/
theorem isProgressive_rules (input : Array Token) : IsProgressive Forms.rules input :=
  .of_ranks (fun r _ => consumes_rules r) isTame_rules RuleName.rank starts_rules

/-- Behind a bracket that is never closed. -/
theorem exists_outcome_unclosed :
    IsProgressive Forms.rules #[.delimiter .openParen, .keyword .not, .operator .plus] ∧
    (rule RuleName.expression).LoopsProgress Forms.rules
      #[.delimiter .openParen, .keyword .not, .operator .plus] ∧
    1 ≤ #[Token.delimiter .openParen, .keyword .not, .operator .plus].size ∧
    ∃ outcome, (rule RuleName.expression).HasOutcome Forms.rules
        #[.delimiter .openParen, .keyword .not, .operator .plus] 1 outcome ∧
      ∀ e, outcome = .error e → 1 ≤ e.position ∧ e.position ≤ 3 := by
  have hloops : (rule RuleName.expression).LoopsProgress Forms.rules
      #[.delimiter .openParen, .keyword .not, .operator .plus] := trivial
  have hpos : 1 ≤ #[Token.delimiter .openParen, .keyword .not, .operator .plus].size := by decide
  refine ⟨isProgressive_rules _, hloops, hpos, ?_⟩
  obtain ⟨outcome, houtcome, -, herror, -⟩ := exists_outcome (isProgressive_rules _) hloops hpos
  exact ⟨outcome, houtcome, herror⟩

end Grammar

end ErrorAnalysis
