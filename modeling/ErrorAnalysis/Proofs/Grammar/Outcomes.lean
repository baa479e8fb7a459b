import ErrorAnalysis.Proofs.Grammar.Forms

/-!
# Outcomes of Runs

What holds of each run of a form that ends, whether or not others do, and with nothing asked of the grammar.
A run that ends in a number of steps ends with the same outcome in any larger number. Its outcome lies within
the input: a success does not go back and not beyond the end, and an error is not placed in front of the
start. And the names that forms bear for the sake of messages show in messages only: without them the run
takes as many steps, reads the same items to the same value, or fails at the same place for the same cause.

## Main definitions

* `Form.Yields`: the outcome of a form, if a run of it ends.
* `Parser.InBounds`: outcomes between a position and the end of the input.
* `Form.unnamed`, `Parser.unnamed`: forms without names, and outcomes without them.

## Main results

* `Form.run_mono`: more steps change nothing.
* `Form.run_inBounds`: **positions of outcomes and of errors lie within the input.**
* `Form.run_unnamed`: **names do not change what a form reads.**
-/

namespace ErrorAnalysis

/-! ### Outcomes -/

/-- The error without the names of the rules around it. -/
def ParseError.unnamed (e : ParseError) : ParseError :=
  { e with rules := [] }

@[simp] theorem ParseError.unnamed_within (e : ParseError) (rule : String) :
    (e.within rule).unnamed = e.unnamed := rfl

@[simp] theorem ParseError.position_unnamed (e : ParseError) : e.unnamed.position = e.position := rfl

namespace Parser

variable {τ α β : Type} {input : Array τ} {pos mid : ℕ}

/-- The outcome of parsing from a position on lies within the input: the position behind what was read, or
that of the error. -/
def InBounds (input : Array τ) (pos : ℕ) : Parsed α → Prop
  | .ok (_, next) => pos ≤ next ∧ next ≤ input.size
  | .error e => pos ≤ e.position ∧ e.position ≤ input.size

theorem InBounds.of_le {outcome : Parsed α} (h : InBounds input mid outcome) (hle : pos ≤ mid) :
    InBounds input pos outcome := by
  cases outcome <;> exact ⟨hle.trans h.1, h.2⟩

theorem InBounds.map (f : α → β) {outcome : Parsed α} (h : InBounds input pos outcome) :
    InBounds input pos (outcome.map fun (a, next) => (f a, next)) := by
  cases outcome <;> exact h

theorem InBounds.within (name : String) {outcome : Parsed α} (h : InBounds input pos outcome) :
    InBounds input pos (outcome.mapError (·.within name)) := by
  cases outcome <;> exact h

theorem inBounds_fail {cause : ParseError.Cause} (hpos : pos ≤ input.size) :
    InBounds input pos (fail cause pos : Parsed α) :=
  ⟨le_rfl, hpos⟩

/-- The outcome without the names of the rules around an error. -/
def unnamed : Parsed α → Parsed α :=
  Except.mapError ParseError.unnamed

@[simp] theorem unnamed_ok (r : α × ℕ) : unnamed (.ok r) = .ok r := rfl

@[simp] theorem unnamed_error (e : ParseError) :
    (unnamed (.error e) : Parsed α) = .error e.unnamed := rfl

@[simp] theorem unnamed_fail (cause : ParseError.Cause) :
    unnamed (fail cause pos : Parsed α) = fail cause pos := rfl

theorem unnamed_map (f : α × ℕ → β × ℕ) (outcome : Parsed α) :
    unnamed (outcome.map f) = (unnamed outcome).map f := by
  cases outcome <;> rfl

theorem unnamed_within (name : String) (outcome : Parsed α) :
    unnamed (outcome.mapError (·.within name)) = unnamed outcome := by
  cases outcome <;> rfl

theorem unnamed_eq_ok {outcome : Parsed α} {r : α × ℕ} : unnamed outcome = .ok r ↔ outcome = .ok r := by
  cases outcome <;> simp

end Parser

namespace Form

open ErrorAnalysis.Parser (InBounds fail)

variable {τ : Type} {ρ : Type → Type} {α β : Type} {input : Array τ} {pos : ℕ}

/-! ### More steps -/

section Steps

/-- Where alternatives end, so does the choice, with whatever is known of them only by then. -/
theorem firstOf_mono {n : ℕ} {outcomes outcomes' : Fin n → Option (Parsed α)}
    (h : ∀ i, ∀ o ∈ outcomes i, o ∈ outcomes' i) {furthest : Option ParseError} :
    ∀ o ∈ firstOf pos furthest (List.ofFn outcomes), o ∈ firstOf pos furthest (List.ofFn outcomes') := by
  induction n generalizing furthest with
  | zero => simp only [List.ofFn_zero, imp_self, implies_true]
  | succ n ih =>
      intro o ho
      simp only [List.ofFn_succ] at ho ⊢
      cases hfirst : outcomes 0 with
      | none => simp [hfirst, firstOf] at ho
      | some first =>
          have hfirst' : outcomes' 0 = some first := h 0 first hfirst
          rw [hfirst] at ho
          rw [hfirst']
          cases first with
          | ok r => exact ho
          | error e => exact ih (fun i => h i.succ) o ho

theorem repeated_mono {outcome outcome' : ℕ → Option (Parsed α)}
    (h : ∀ q, ∀ o ∈ outcome q, o ∈ outcome' q) {rounds rounds' : ℕ} (hle : rounds ≤ rounds') :
    ∀ o ∈ repeated outcome rounds pos, o ∈ repeated outcome' rounds' pos := by
  induction rounds generalizing rounds' pos with
  | zero => simp [repeated]
  | succ rounds ih =>
      intro o ho
      obtain ⟨rounds', rfl⟩ := Nat.exists_eq_succ_of_ne_zero (Nat.ne_zero_of_lt hle)
      rw [repeated] at ho ⊢
      cases hfirst : outcome pos with
      | none => simp [hfirst] at ho
      | some first =>
          rw [hfirst] at ho
          rw [h pos first hfirst]
          cases first with
          | error e => exact ho
          | ok r =>
              obtain ⟨rest, hrest, rfl⟩ := Option.map_eq_some_iff.mp ho
              exact Option.map_eq_some_iff.mpr ⟨rest, ih (Nat.le_of_succ_le_succ hle) rest hrest, rfl⟩

theorem repeatedAfter_mono {outcome outcome' : ℕ → Option (Parsed α)}
    {between between' : ℕ → Option (Parsed β)} (h : ∀ q, ∀ o ∈ outcome q, o ∈ outcome' q)
    (hbetween : ∀ q, ∀ o ∈ between q, o ∈ between' q) {rounds rounds' : ℕ} (hle : rounds ≤ rounds') :
    ∀ o ∈ repeatedAfter outcome between rounds pos, o ∈ repeatedAfter outcome' between' rounds' pos := by
  induction rounds generalizing rounds' pos with
  | zero => simp [repeatedAfter]
  | succ rounds ih =>
      intro o ho
      obtain ⟨rounds', rfl⟩ := Nat.exists_eq_succ_of_ne_zero (Nat.ne_zero_of_lt hle)
      rw [repeatedAfter] at ho ⊢
      cases hseparator : between pos with
      | none => simp [hseparator] at ho
      | some separator =>
          rw [hseparator] at ho
          rw [hbetween pos separator hseparator]
          cases separator with
          | error e => exact ho
          | ok b =>
              cases hitem : outcome b.2 with
              | none => simp [hitem] at ho
              | some item =>
                  simp only [hitem] at ho
                  simp only [show outcome' b.2 = some item from h b.2 item hitem]
                  cases item with
                  | error e => exact ho
                  | ok r =>
                      obtain ⟨rest, hrest, rfl⟩ := Option.map_eq_some_iff.mp ho
                      exact Option.map_eq_some_iff.mpr
                        ⟨rest, ih (Nat.le_of_succ_le_succ hle) rest hrest, rfl⟩

variable [DecidableEq τ]

theorem step_mono {enter enter' : ∀ {α}, ρ α → ℕ → Option (Parsed α)}
    (henter : ∀ {α} (r : ρ α) q, ∀ o ∈ enter r q, o ∈ enter' r q) {rounds rounds' : ℕ}
    (hle : rounds ≤ rounds') (form : Form τ ρ α) (pos : ℕ) :
    ∀ o ∈ form.step input rounds enter pos, o ∈ form.step input rounds' enter' pos := by
  induction form generalizing pos with
  | equal | satisfy => exact fun _ h => h
  | choice ps ih => exact firstOf_mono fun i => ih i pos
  | map f p ih =>
      intro o ho
      obtain ⟨part, hpart, rfl⟩ := Option.map_eq_some_iff.mp ho
      exact Option.map_eq_some_iff.mpr ⟨part, ih pos part hpart, rfl⟩
  | pair p q ihp ihq =>
      intro o ho
      obtain ⟨first, hfirst, ho⟩ := Option.bind_eq_some_iff.mp ho
      refine Option.bind_eq_some_iff.mpr ⟨first, ihp pos first hfirst, ?_⟩
      cases first with
      | error e => exact ho
      | ok r =>
          obtain ⟨second, hsecond, rfl⟩ := Option.map_eq_some_iff.mp ho
          exact Option.map_eq_some_iff.mpr ⟨second, ihq r.2 second hsecond, rfl⟩
  | optional p ih =>
      intro o ho
      obtain ⟨part, hpart, rfl⟩ := Option.map_eq_some_iff.mp ho
      exact Option.map_eq_some_iff.mpr ⟨part, ih pos part hpart, rfl⟩
  | named name p ih =>
      intro o ho
      obtain ⟨part, hpart, rfl⟩ := Option.map_eq_some_iff.mp ho
      exact Option.map_eq_some_iff.mpr ⟨part, ih pos part hpart, rfl⟩
  | many p ih =>
      intro o ho
      obtain ⟨all, hall, rfl⟩ := Option.map_eq_some_iff.mp ho
      exact Option.map_eq_some_iff.mpr ⟨all, repeated_mono ih hle all hall, rfl⟩
  | separatedBy separator item ihs ihi =>
      intro o ho
      obtain ⟨first, hfirst, ho⟩ := Option.bind_eq_some_iff.mp ho
      refine Option.bind_eq_some_iff.mpr ⟨first, ihi pos first hfirst, ?_⟩
      cases first with
      | error e => exact ho
      | ok r =>
          obtain ⟨rest, hrest, rfl⟩ := Option.map_eq_some_iff.mp ho
          exact Option.map_eq_some_iff.mpr ⟨rest, repeatedAfter_mono ihi ihs hle rest hrest, rfl⟩
  | rule r => exact henter r pos

variable {rules : ∀ {α}, ρ α → Form τ ρ α}

/-- **More steps change nothing** once a run has ended. -/
theorem run_mono {steps steps' : ℕ} (hle : steps ≤ steps') (form : Form τ ρ α) (pos : ℕ) :
    ∀ o ∈ form.run rules input steps pos, o ∈ form.run rules input steps' pos := by
  induction steps generalizing steps' α form pos with
  | zero => simp [run]
  | succ steps ih =>
      obtain ⟨steps', rfl⟩ := Nat.exists_eq_succ_of_ne_zero (Nat.ne_zero_of_lt hle)
      have hle' := Nat.le_of_succ_le_succ hle
      exact step_mono (fun r q => ih hle' (rules r) q) hle' form pos

/-- Some run of the form ends with the outcome. -/
def Yields (rules : ∀ {α}, ρ α → Form τ ρ α) (input : Array τ) (form : Form τ ρ α) (pos : ℕ)
    (outcome : Parsed α) : Prop :=
  ∃ steps, form.run rules input steps pos = some outcome

/-- It is the outcome of all runs that are long enough. -/
theorem settles_iff_yields {form : Form τ ρ α} {outcome : Parsed α} :
    form.Settles rules input pos outcome ↔ form.Yields rules input pos outcome := by
  constructor
  · exact fun h => h.exists
  · rintro ⟨enough, h⟩
    exact Filter.eventually_atTop.mpr ⟨enough, fun steps hle => run_mono hle form pos outcome h⟩

/-- A form has at most one outcome. -/
theorem Yields.unique {form : Form τ ρ α} {o o' : Parsed α} (h : form.Yields rules input pos o)
    (h' : form.Yields rules input pos o') : o = o' := by
  obtain ⟨steps, h⟩ := h
  obtain ⟨steps', h'⟩ := h'
  have hmax := run_mono (le_max_left steps steps') form pos o h
  have hmax' := run_mono (le_max_right steps steps') form pos o' h'
  exact Option.mem_unique hmax hmax'

end Steps

/-! ### Bounds -/

section Bounds

theorem firstOf_inBounds {outcomes : List (Option (Parsed α))}
    (h : ∀ o, some o ∈ outcomes → InBounds input pos o) (hpos : pos ≤ input.size)
    {furthest : Option ParseError} (hfurthest : ∀ e ∈ furthest, InBounds input pos (.error e : Parsed α)) :
    ∀ o ∈ firstOf pos furthest outcomes, InBounds input pos o := by
  induction outcomes generalizing furthest with
  | nil =>
      intro o ho
      cases furthest with
      | none =>
          obtain rfl := Option.some.inj ho
          exact Parser.inBounds_fail hpos
      | some e =>
          obtain rfl := Option.some.inj ho
          split
          · exact hfurthest e rfl
          · exact Parser.inBounds_fail hpos
  | cons first rest ih =>
      intro o ho
      rcases first with _ | e | r
      · exact absurd ho (by simp [firstOf])
      · refine ih (fun o ho => h o (List.mem_cons_of_mem _ ho)) ?_ o ho
        intro e' he'
        have hfirst := h (.error e) List.mem_cons_self
        cases furthest with
        | none =>
            obtain rfl := Option.some.inj he'
            exact hfirst
        | some f =>
            obtain rfl := Option.some.inj he'
            dsimp only
            split
            · exact hfirst
            · exact hfurthest f rfl
      · obtain rfl := Option.some.inj ho
        exact h _ List.mem_cons_self

theorem repeated_inBounds {outcome : ℕ → Option (Parsed α)}
    (h : ∀ q ≤ input.size, ∀ o ∈ outcome q, InBounds input q o) {rounds : ℕ} (hpos : pos ≤ input.size) :
    ∀ r ∈ repeated outcome rounds pos, InBounds input pos (.ok r) := by
  induction rounds generalizing pos with
  | zero => simp [repeated]
  | succ rounds ih =>
      intro r hr
      rw [repeated] at hr
      rcases hfirst : outcome pos with _ | e | ⟨a, next⟩
      · simp [hfirst] at hr
      · simp only [hfirst] at hr
        obtain rfl := Option.some.inj hr
        exact ⟨le_rfl, hpos⟩
      · simp only [hfirst] at hr
        obtain ⟨rest, hrest, rfl⟩ := Option.map_eq_some_iff.mp hr
        have hnext : InBounds input pos (.ok (a, next)) := h pos hpos _ hfirst
        exact (ih hnext.2 rest hrest).of_le hnext.1

theorem repeatedAfter_inBounds {outcome : ℕ → Option (Parsed α)} {between : ℕ → Option (Parsed β)}
    (h : ∀ q ≤ input.size, ∀ o ∈ outcome q, InBounds input q o)
    (hbetween : ∀ q ≤ input.size, ∀ o ∈ between q, InBounds input q o) {rounds : ℕ}
    (hpos : pos ≤ input.size) :
    ∀ o ∈ repeatedAfter outcome between rounds pos, InBounds input pos o := by
  induction rounds generalizing pos with
  | zero => simp [repeatedAfter]
  | succ rounds ih =>
      intro o ho
      rw [repeatedAfter] at ho
      rcases hseparator : between pos with _ | e | ⟨b, start⟩
      · simp [hseparator] at ho
      · simp only [hseparator] at ho
        obtain rfl := Option.some.inj ho
        exact ⟨le_rfl, hpos⟩
      · have hstart : InBounds input pos (.ok (b, start)) := hbetween pos hpos _ hseparator
        simp only [hseparator] at ho
        rcases hitem : outcome start with _ | e | ⟨a, next⟩
        · simp [hitem] at ho
        · simp only [hitem] at ho
          obtain rfl := Option.some.inj ho
          exact (h start hstart.2 _ hitem).of_le hstart.1
        · have hnext : InBounds input start (.ok (a, next)) := h start hstart.2 _ hitem
          simp only [hitem] at ho
          obtain ⟨rest, hrest, rfl⟩ := Option.map_eq_some_iff.mp ho
          exact ((ih hnext.2 rest hrest).map (a :: ·)).of_le (hstart.1.trans hnext.1)

variable [DecidableEq τ]

theorem inBounds_equal (shown : τ → String) (x : τ) (hpos : pos ≤ input.size) :
    InBounds input pos (Parser.equal shown x input pos) := by
  rw [Parser.equal]
  split
  · exact Parser.inBounds_fail hpos
  · next found hfound =>
    obtain ⟨hlt, -⟩ := Array.getElem?_eq_some_iff.mp hfound
    split
    · exact ⟨pos.le_succ, hlt⟩
    · exact Parser.inBounds_fail hpos

omit [DecidableEq τ] in
theorem inBounds_satisfy (f : τ → Option α) (hpos : pos ≤ input.size) :
    InBounds input pos (Parser.satisfy f input pos) := by
  rw [Parser.satisfy]
  split
  · exact Parser.inBounds_fail hpos
  · next x hx =>
    obtain ⟨hlt, -⟩ := Array.getElem?_eq_some_iff.mp hx
    split
    · exact ⟨pos.le_succ, hlt⟩
    · exact Parser.inBounds_fail hpos

theorem step_inBounds {enter : ∀ {α}, ρ α → ℕ → Option (Parsed α)}
    (henter : ∀ {α} (r : ρ α), ∀ q ≤ input.size, ∀ o ∈ enter r q, InBounds input q o) {rounds : ℕ}
    (form : Form τ ρ α) : ∀ pos ≤ input.size, ∀ o ∈ form.step input rounds enter pos,
      InBounds input pos o := by
  induction form with
  | equal shown x =>
      intro pos hpos o ho
      obtain rfl := Option.some.inj ho
      exact inBounds_equal shown x hpos
  | satisfy f =>
      intro pos hpos o ho
      obtain rfl := Option.some.inj ho
      exact inBounds_satisfy f hpos
  | choice ps ih =>
      intro pos hpos
      refine firstOf_inBounds (fun o ho => ?_) hpos (by simp)
      obtain ⟨i, hi⟩ := List.mem_ofFn.mp ho
      exact ih i pos hpos o hi
  | map f p ih =>
      intro pos hpos o ho
      obtain ⟨part, hpart, rfl⟩ := Option.map_eq_some_iff.mp ho
      exact (ih pos hpos part hpart).map f
  | pair p q ihp ihq =>
      intro pos hpos o ho
      obtain ⟨first, hfirst, ho⟩ := Option.bind_eq_some_iff.mp ho
      have hmid := ihp pos hpos first hfirst
      rcases first with e | ⟨a, mid⟩
      · obtain rfl := Option.some.inj ho
        exact hmid
      · obtain ⟨second, hsecond, rfl⟩ := Option.map_eq_some_iff.mp ho
        exact ((ihq mid hmid.2 second hsecond).map (a, ·)).of_le hmid.1
  | optional p ih =>
      intro pos hpos o ho
      obtain ⟨part, hpart, rfl⟩ := Option.map_eq_some_iff.mp ho
      rcases part with e | ⟨a, next⟩
      · exact ⟨le_rfl, hpos⟩
      · exact ih pos hpos _ hpart
  | named name p ih =>
      intro pos hpos o ho
      obtain ⟨part, hpart, rfl⟩ := Option.map_eq_some_iff.mp ho
      exact (ih pos hpos part hpart).within name
  | many p ih =>
      intro pos hpos o ho
      obtain ⟨all, hall, rfl⟩ := Option.map_eq_some_iff.mp ho
      exact repeated_inBounds ih hpos all hall
  | separatedBy separator item ihs ihi =>
      intro pos hpos o ho
      obtain ⟨first, hfirst, ho⟩ := Option.bind_eq_some_iff.mp ho
      have hnext := ihi pos hpos first hfirst
      rcases first with e | ⟨a, next⟩
      · obtain rfl := Option.some.inj ho
        exact ⟨le_rfl, hpos⟩
      · obtain ⟨rest, hrest, rfl⟩ := Option.map_eq_some_iff.mp ho
        have hbounds := repeatedAfter_inBounds ihi ihs hnext.2 rest hrest
        exact (hbounds.map (a :: ·)).of_le hnext.1
  | rule r => exact henter r

variable {rules : ∀ {α}, ρ α → Form τ ρ α}

/-- **Positions of outcomes and of errors lie within the input**, not in front of where the run started. -/
theorem run_inBounds (steps : ℕ) (form : Form τ ρ α) (hpos : pos ≤ input.size) :
    ∀ o ∈ form.run rules input steps pos, InBounds input pos o := by
  induction steps generalizing α form pos with
  | zero => simp [run]
  | succ steps ih => exact step_inBounds (fun r q hq => ih (rules r) hq) form pos hpos

theorem Yields.inBounds {form : Form τ ρ α} {outcome : Parsed α}
    (h : form.Yields rules input pos outcome) (hpos : pos ≤ input.size) :
    InBounds input pos outcome := by
  obtain ⟨steps, h⟩ := h
  exact run_inBounds steps form hpos outcome h

end Bounds

/-! ### Names -/

section Names

/-- The form without names. -/
def unnamed : {α : Type} → Form τ ρ α → Form τ ρ α
  | _, equal shown x => equal shown x
  | _, satisfy f => satisfy f
  | _, choice ps => choice fun i => (ps i).unnamed
  | _, map f p => map f p.unnamed
  | _, pair p q => pair p.unnamed q.unnamed
  | _, optional p => optional p.unnamed
  | _, named _ p => p.unnamed
  | _, many p => many p.unnamed
  | _, separatedBy separator item => separatedBy separator.unnamed item.unnamed
  | _, rule r => rule r

/-- A choice looks at positions of errors only. -/
theorem firstOf_unnamed (furthest : Option ParseError) (outcomes : List (Option (Parsed α))) :
    firstOf pos (furthest.map ParseError.unnamed) (outcomes.map (Option.map Parser.unnamed)) =
      (firstOf pos furthest outcomes).map Parser.unnamed := by
  induction outcomes generalizing furthest with
  | nil =>
      cases furthest with
      | none => rfl
      | some e => by_cases hbehind : pos < e.position <;> simp [firstOf, hbehind]
  | cons first rest ih =>
      rcases first with _ | e | r
      · rfl
      · cases furthest with
        | none => exact ih (some e)
        | some f =>
            by_cases hfurther : f.position < e.position
            · simpa [firstOf, hfurther] using ih (some e)
            · simpa [firstOf, hfurther] using ih (some f)
      · rfl

theorem repeated_unnamed {outcome outcome' : ℕ → Option (Parsed α)}
    (h : ∀ q, outcome' q = (outcome q).map Parser.unnamed) (rounds : ℕ) :
    repeated outcome' rounds pos = repeated outcome rounds pos := by
  induction rounds generalizing pos with
  | zero => rfl
  | succ rounds ih =>
      rw [repeated, repeated, h pos]
      rcases outcome pos with _ | e | ⟨a, next⟩
      · rfl
      · rfl
      · exact congrArg (Option.map _) ih

theorem repeatedAfter_unnamed {outcome outcome' : ℕ → Option (Parsed α)}
    {between between' : ℕ → Option (Parsed β)} (h : ∀ q, outcome' q = (outcome q).map Parser.unnamed)
    (hbetween : ∀ q, between' q = (between q).map Parser.unnamed) (rounds : ℕ) :
    repeatedAfter outcome' between' rounds pos =
      (repeatedAfter outcome between rounds pos).map Parser.unnamed := by
  induction rounds generalizing pos with
  | zero => rfl
  | succ rounds ih =>
      rw [repeatedAfter, repeatedAfter, hbetween pos]
      rcases between pos with _ | e | ⟨b, start⟩
      · rfl
      · rfl
      · simp only [Option.map_some, Parser.unnamed_ok, h start]
        rcases outcome start with _ | e | ⟨a, next⟩
        · rfl
        · rfl
        · simp only [Option.map_some, Parser.unnamed_ok, ih, Option.map_map]
          exact congrArg (Option.map · _) (funext fun rest => (Parser.unnamed_map _ rest).symm)

variable [DecidableEq τ]

theorem step_unnamed {enter enter' : ∀ {α}, ρ α → ℕ → Option (Parsed α)}
    (henter : ∀ {α} (r : ρ α) q, enter' r q = (enter r q).map Parser.unnamed) (rounds : ℕ)
    (form : Form τ ρ α) (pos : ℕ) :
    form.unnamed.step input rounds enter' pos =
      (form.step input rounds enter pos).map Parser.unnamed := by
  induction form generalizing pos with
  | equal shown x =>
      simp only [unnamed, step, Parser.equal]
      split
      · rfl
      · split <;> rfl
  | satisfy f =>
      simp only [unnamed, step, Parser.satisfy]
      split
      · rfl
      · split <;> rfl
  | choice ps ih =>
      simp only [unnamed, step, ih]
      rw [← firstOf_unnamed none, List.map_ofFn]
      rfl
  | map f p ih =>
      simp only [unnamed, step, ih, Option.map_map]
      exact congrArg (Option.map · _) (funext fun part => (Parser.unnamed_map _ part).symm)
  | pair p q ihp ihq =>
      simp only [unnamed, step, ihp]
      rcases p.step input rounds enter pos with _ | e | ⟨a, mid⟩
      · rfl
      · rfl
      · simp only [Option.map_some, Parser.unnamed_ok, Option.bind_some, ihq, Option.map_map]
        exact congrArg (Option.map · _) (funext fun part => (Parser.unnamed_map _ part).symm)
  | optional p ih =>
      simp only [unnamed, step, ih, Option.map_map]
      refine congrArg (Option.map · _) (funext fun part => ?_)
      cases part <;> rfl
  | named name p ih =>
      simp only [unnamed, step, ih, Option.map_map]
      exact congrArg (Option.map · _) (funext fun part => (Parser.unnamed_within name part).symm)
  | many p ih =>
      simp only [unnamed, step, repeated_unnamed ih, Option.map_map]
      rfl
  | separatedBy separator item ihs ihi =>
      simp only [unnamed, step, ihi]
      rcases item.step input rounds enter pos with _ | e | ⟨a, mid⟩
      · rfl
      · rfl
      · simp only [Option.map_some, Parser.unnamed_ok, Option.bind_some, repeatedAfter_unnamed ihi ihs,
          Option.map_map]
        exact congrArg (Option.map · _) (funext fun rest => (Parser.unnamed_map _ rest).symm)
  | rule r => exact henter r pos

variable {rules rules' : ∀ {α}, ρ α → Form τ ρ α}

/-- **Names do not change what a form reads**, nor how many steps that takes, nor where an error arises and
why. They are told along with the error, and that is all. -/
theorem run_unnamed (steps : ℕ) (form : Form τ ρ α) (pos : ℕ) :
    form.unnamed.run (fun r => (rules r).unnamed) input steps pos =
      (form.run rules input steps pos).map Parser.unnamed := by
  induction steps generalizing α form pos with
  | zero => rfl
  | succ steps ih => exact step_unnamed (fun r q => ih (rules r) q) steps form pos

/-- Grammars that differ in names only. -/
theorem run_congr_unnamed (hrules : ∀ {α} (r : ρ α), (rules' r).unnamed = (rules r).unnamed)
    {form form' : Form τ ρ α} (hform : form'.unnamed = form.unnamed) (input : Array τ) (steps pos : ℕ) :
    (form'.run rules' input steps pos).map Parser.unnamed =
      (form.run rules input steps pos).map Parser.unnamed := by
  rw [← run_unnamed, ← run_unnamed, hform]
  simp only [hrules]

end Names

end Form

end ErrorAnalysis
