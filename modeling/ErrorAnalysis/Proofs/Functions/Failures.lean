import ErrorAnalysis.Proofs.Evaluation.Results

/-!
# Errors of the Functions

A call that fails blames an argument: one of those that were given, one that is missing, or a text that is
no pattern. In particular it blames nothing that lies behind the arguments, such as an attribute.

## Main definitions

* `ErrorsIn`: every error of a computation has a property.
* `EvalError.Blames`: an error is about an argument of a function.

## Main results

* `Builtin.errorsIn_run`: **the built-in operations blame an argument if they fail.**
* `Function.errorsIn_bind`, `Registry.errorsIn_call`: so do binding and calls.
-/

namespace ErrorAnalysis

/-! ### Computations that fail in a certain way -/

/-- Every error of a computation has a property. -/
def ErrorsIn {α : Type} (P : EvalError → Prop) (x : Except EvalError α) : Prop :=
  ∀ e, x = .error e → P e

section

variable {α β : Type} {P : EvalError → Prop} {x : Except EvalError α} {e : EvalError}

@[simp] theorem errorsIn_ok (a : α) : ErrorsIn P (.ok a) :=
  fun _ h => nomatch h

@[simp] theorem errorsIn_pure (a : α) : ErrorsIn P (pure a : Except EvalError α) :=
  errorsIn_ok a

@[simp] theorem errorsIn_error : ErrorsIn P (.error e : Except EvalError α) ↔ P e :=
  ⟨fun h => h e rfl, fun h _ heq => Except.error.inj heq ▸ h⟩

@[simp] theorem errorsIn_bind {f : α → Except EvalError β} :
    ErrorsIn P (x >>= f) ↔ ErrorsIn P x ∧ ∀ a, x = .ok a → ErrorsIn P (f a) := by
  cases x with
  | error e =>
      have herror : (.error e >>= f : Except EvalError β) = .error e := rfl
      rw [herror, errorsIn_error, errorsIn_error]
      exact ⟨fun h => ⟨h, nofun⟩, fun h => h.1⟩
  | ok a => exact ⟨fun h => ⟨errorsIn_ok a, fun _ ha => Except.ok.inj ha ▸ h⟩, fun h => h.2 a rfl⟩

@[simp] theorem errorsIn_map {f : α → β} : ErrorsIn P (x.map f) ↔ ErrorsIn P x := by
  cases x with
  | error e => exact errorsIn_error.trans errorsIn_error.symm
  | ok a => exact iff_of_true (errorsIn_ok _) (errorsIn_ok _)

@[simp] theorem errorsIn_functor_map {f : α → β} : ErrorsIn P (f <$> x) ↔ ErrorsIn P x :=
  errorsIn_map

@[simp] theorem errorsIn_elim {o : Option β} {f : β → Except EvalError α} :
    ErrorsIn P (o.elim (.error e) f) ↔ (o = none → P e) ∧ ∀ b, o = some b → ErrorsIn P (f b) := by
  cases o with
  | none => simp
  | some b => simp

@[simp] theorem errorsIn_ite {c : Prop} [Decidable c] {y : Except EvalError α} :
    ErrorsIn P (if c then x else y) ↔ (c → ErrorsIn P x) ∧ (¬c → ErrorsIn P y) := by
  split <;> simp [*]

theorem errorsIn_mapM {f : β → Except EvalError α} {xs : List β}
    (h : ∀ b ∈ xs, ErrorsIn P (f b)) : ErrorsIn P (xs.mapM f) := by
  induction xs with
  | nil => exact errorsIn_ok _
  | cons b xs ih =>
      obtain ⟨hb, hxs⟩ := List.forall_mem_cons.mp h
      rw [List.mapM_cons]
      simp [hb, ih hxs]

end

namespace Eval

variable {α β : Type}

@[simp] theorem result_throw (e : EvalError) : (throw e : Eval Traced α).result = .error e := rfl

@[simp] theorem result_ofExcept (x : Except EvalError α) : (ofExcept x).result = x := rfl

@[simp] theorem result_map (f : α → β) (x : Eval Traced α) : (f <$> x).result = f <$> x.result := by
  rw [← bind_pure_comp, ← bind_pure_comp, result_bind]
  rfl

@[simp] theorem result_ite {c : Prop} [Decidable c] {x y : Eval Traced α} :
    (if c then x else y).result = if c then x.result else y.result :=
  apply_ite result c x y

theorem result_mapM (f : α → Eval Traced β) (xs : List α) :
    (xs.mapM f).result = xs.mapM fun a => (f a).result := by
  induction xs with
  | nil => rfl
  | cons a xs ih =>
      rw [List.mapM_cons, List.mapM_cons, result_bind]
      refine congrArg _ (funext fun b => ?_)
      rw [result_bind, ih]
      rfl

end Eval

/-! ### Errors about arguments -/

/-- An error is about an argument of a function, or about a text that is no pattern. -/
def EvalError.Blames (function : String) : EvalError → Prop
  | .invalidArgument f _ => f = function ∨ f = "pattern"
  | .missingArgument f _ => f = function
  | _ => False

variable {args : Args} {a : Ambient} {v : Value}

@[simp] theorem blames_invalid (problem : ArgumentProblem) :
    (args.invalid problem).Blames args.function :=
  .inl rfl

@[simp] theorem errorsIn_text (parameter : String) :
    ErrorsIn (EvalError.Blames args.function) (args.text parameter) := by
  simp [Args.text]

@[simp] theorem errorsIn_document : ErrorsIn (EvalError.Blames args.function) (args.document v) := by
  simp [Args.document]

@[simp] theorem errorsIn_documents : ErrorsIn (EvalError.Blames args.function) (args.documents v) := by
  cases v <;> exact errorsIn_mapM fun _ _ => errorsIn_document

@[simp] theorem errorsIn_matchedSpans {patterns : List Pattern} :
    ErrorsIn (EvalError.Blames args.function) (matchedSpans args v patterns) := by
  simp [matchedSpans, errorsIn_mapM]

@[simp] theorem errorsIn_patternsOf :
    ErrorsIn (EvalError.Blames args.function) (a.patternsOf v).result := by
  rw [Ambient.patternsOf, Eval.result_mapM]
  refine errorsIn_mapM fun item _ => ?_
  cases item with
  | str source =>
      have hpattern : (a.pattern source).result = a.patterns.lookup source := rfl
      rw [Ambient.patternOf, hpattern, PatternCache.lookup_eq, Pattern.compile]
      split
      · exact errorsIn_ok _
      · exact errorsIn_error.mpr (.inr rfl)
  | _ => exact errorsIn_error.mpr (.inr rfl)

/-! ### Operations -/

namespace Documents

theorem errorsIn_length : ErrorsIn (EvalError.Blames args.function) (length args) := by
  rw [length]
  split <;> simp

theorem errorsIn_overlap : ErrorsIn (EvalError.Blames args.function) (overlap args) := by
  simp [overlap]

@[simp] theorem errorsIn_firstItem : ErrorsIn (EvalError.Blames args.function) (firstItem args) := by
  simp [firstItem]

theorem errorsIn_string : ErrorsIn (EvalError.Blames args.function) (string args) := by
  simp only [string, errorsIn_bind, errorsIn_firstItem, true_and]
  intro v _
  split
  · simp
  · split <;> simp

theorem errorsIn_label : ErrorsIn (EvalError.Blames args.function) (label args) := by
  simp only [label, errorsIn_bind, errorsIn_firstItem, true_and]
  intro v _
  split <;> simp

@[simp] theorem errorsIn_indexRange? :
    ErrorsIn (EvalError.Blames args.function) (indexRange? args) := by
  rw [indexRange?]
  split <;> simp [index]

@[simp] theorem errorsIn_parts {range? : Option (Int × Int)} :
    ErrorsIn (EvalError.Blames args.function) (parts args v range?) := by
  cases v <;> simp [parts, errorsIn_mapM]

theorem errorsIn_token : ErrorsIn (EvalError.Blames args.function) (token args a).result := by
  simp [token]

theorem errorsIn_patternFound {range? : Option (Int × Int)} :
    ErrorsIn (EvalError.Blames args.function) (patternFound args a range?).result := by
  simp [patternFound]

theorem errorsIn_hasPattern :
    ErrorsIn (EvalError.Blames args.function) (hasPattern args a).result := by
  simp [hasPattern, errorsIn_patternFound]

theorem errorsIn_boundaryWith :
    ErrorsIn (EvalError.Blames args.function) (boundaryWith args a).result := by
  simp [boundaryWith, errorsIn_patternFound]

theorem errorsIn_freq : ErrorsIn (EvalError.Blames args.function) (freq args a) := by
  simp [freq, errorsIn_mapM]

end Documents

theorem Annotations.errorsIn_linguistic :
    ErrorsIn (EvalError.Blames args.function) (linguistic args a).result := by
  have hread (r : Reader) (span : Value) :
      ErrorsIn (EvalError.Blames args.function) (r.read args span) := by
    simp [Reader.read]
  simp only [linguistic, Eval.result_bind, Eval.result_liftM, Eval.result_ite, Eval.result_pure,
    errorsIn_bind, errorsIn_ite, errorsIn_text, errorsIn_patternsOf, errorsIn_matchedSpans,
    errorsIn_ok, true_and]
  refine fun feature _ => ⟨fun _ patterns _ spans _ => ?_, fun _ spans _ => ?_⟩
  all_goals split <;> simp [errorsIn_mapM, hread]

namespace Answers

theorem errorsIn_modelAnswer : ErrorsIn (EvalError.Blames args.function) (modelAnswer args a) := by
  simp [modelAnswer]

theorem errorsIn_offset : ErrorsIn (EvalError.Blames args.function) (offset args) := by
  simp only [offset, errorsIn_ite, errorsIn_bind, errorsIn_document, errorsIn_text, errorsIn_error,
    blames_invalid, implies_true, and_true, true_and]
  intro _ d _ direction _ get _
  split <;> simp

theorem errorsIn_sentence : ErrorsIn (EvalError.Blames args.function) (sentence args) := by
  have hshift (v : Value) : ErrorsIn (EvalError.Blames args.function) (shift args v) := by
    simp [shift]
  simp [sentence, errorsIn_mapM, hshift]

theorem errorsIn_distance : ErrorsIn (EvalError.Blames args.function) (distance args a).result := by
  simp [distance]

end Answers

namespace Metadata

theorem errorsIn_answerType : ErrorsIn (EvalError.Blames args.function) (answerType args) := by
  simp only [answerType, errorsIn_ite, errorsIn_bind, errorsIn_error, blames_invalid, implies_true,
    and_true]
  refine fun _ => ⟨errorsIn_mapM fun v _ => by simp [typeOf], fun votes _ => ?_⟩
  split <;> simp

theorem errorsIn_get : ErrorsIn (EvalError.Blames args.function) (get args) := by
  simp only [get, errorsIn_bind, errorsIn_text, true_and]
  intro name _
  split <;> simp

end Metadata

namespace Plain

@[simp] theorem errorsIn_numeric (parameter : String) :
    ErrorsIn (EvalError.Blames args.function) (numeric args parameter) := by
  simp [numeric]

theorem errorsIn_isDigit : ErrorsIn (EvalError.Blames args.function) (isDigit args) := by
  rw [isDigit]
  split <;> simp

theorem errorsIn_truncate : ErrorsIn (EvalError.Blames args.function) (truncate args) := by
  simp only [truncate, errorsIn_ite, errorsIn_ok, errorsIn_bind, errorsIn_numeric, implies_true,
    true_and]
  intro _ x _
  split <;> simp

end Plain

/-- **The built-in operations blame an argument if they fail.** -/
theorem Builtin.errorsIn_run (b : Builtin) (args : Args) (a : Ambient) :
    ErrorsIn (EvalError.Blames args.function) (b.run args a).result := by
  cases b with
  | length => exact Documents.errorsIn_length
  | overlap => exact Documents.errorsIn_overlap
  | perform => simp [run, Answers.perform, Answers.errorsIn_modelAnswer]
  | prediction => simp [run, Answers.prediction, Answers.errorsIn_modelAnswer]
  | string => exact Documents.errorsIn_string
  | label => exact Documents.errorsIn_label
  | linguistic => exact Annotations.errorsIn_linguistic
  | token => exact Documents.errorsIn_token
  | hasPattern => exact Documents.errorsIn_hasPattern
  | boundaryWith => exact Documents.errorsIn_boundaryWith
  | answerOffset => exact Answers.errorsIn_offset
  | sentence => exact Answers.errorsIn_sentence
  | depDistance => exact Answers.errorsIn_distance
  | freq => exact Documents.errorsIn_freq
  | questionType => simp [run, Metadata.questionType]
  | answerType => exact Metadata.errorsIn_answerType
  | isDigit => exact Plain.errorsIn_isDigit
  | truncate => exact Plain.errorsIn_truncate
  | absNum => simp [run, Plain.absNum]
  | getMeta => exact Metadata.errorsIn_get
  | apply | hasAny | hasAll | count | digitize => exact errorsIn_ok _

/-! ### Calls -/

theorem errorsIn_foldlM {α β : Type} {P : EvalError → Prop} {f : β → α → Except EvalError β}
    {xs : List α} {b : β} (h : ∀ c, ∀ x ∈ xs, ErrorsIn P (f c x)) : ErrorsIn P (xs.foldlM f b) := by
  induction xs generalizing b with
  | nil => exact errorsIn_ok b
  | cons x xs ih =>
      rw [List.foldlM_cons, errorsIn_bind]
      exact ⟨h b x List.mem_cons_self, fun c _ =>
        ih fun d y hy => h d y (List.mem_cons_of_mem x hy)⟩

/-- Binding blames an argument of the function if it fails. -/
theorem Function.errorsIn_bind (f : Function) (positional : List Value)
    (named : List (String × Value)) (lookup : String → Option Value) :
    ErrorsIn (EvalError.Blames f.name) (f.bind positional named lookup) := by
  have hgiven : ErrorsIn (EvalError.Blames f.name) (f.positionalValues positional) := by
    rw [positionalValues]
    split
    · exact errorsIn_error.mpr (.inl rfl)
    · exact errorsIn_ok _
  have hnamed (given : List String) (m : Assoc String Value) (argument : String × Value) :
      ErrorsIn (EvalError.Blames f.name) (f.bindNamed given m argument) := by
    rw [bindNamed]
    split
    · exact errorsIn_error.mpr (.inl rfl)
    · split
      · exact errorsIn_error.mpr (.inl rfl)
      · split <;> exact errorsIn_ok _
  have hfill (bound : Assoc String Value × Bool) (p : Param) :
      ErrorsIn (EvalError.Blames f.name) (f.fill lookup bound p) := by
    rw [fill]
    split
    · exact errorsIn_ok _
    · split
      · exact errorsIn_ok _
      · split
        · exact errorsIn_ok _
        · exact errorsIn_error.mpr rfl
  simp only [bind, ErrorAnalysis.errorsIn_bind]
  exact ⟨hgiven, fun given _ => ⟨errorsIn_foldlM fun m argument _ => hnamed _ m argument,
    fun m _ => ⟨errorsIn_foldlM fun bound p _ => hfill bound p, fun _ _ => errorsIn_ok _⟩⟩⟩

/-- **A call blames an argument of the function if it fails.** -/
theorem Registry.errorsIn_call (r : Registry) (f : Function) (i : Instance) (given : List Given) :
    ErrorsIn (EvalError.Blames f.name) (r.call f i given).result := by
  simp only [call, Eval.result_bind, Eval.result_liftM, errorsIn_bind]
  refine ⟨f.errorsIn_bind _ _ _, fun ⟨args, fromEntry⟩ hbind => ?_⟩
  obtain ⟨_, -, hbind⟩ := except_bind_eq_ok.mp hbind
  obtain ⟨_, -, hbind⟩ := except_bind_eq_ok.mp hbind
  obtain ⟨_, -, hbind⟩ := except_bind_eq_ok.mp hbind
  obtain ⟨rfl, -⟩ := Prod.mk.inj (Except.ok.inj hbind)
  exact ⟨f.body.errorsIn_run _ r.ambient, fun _ _ => errorsIn_ok _⟩

end ErrorAnalysis
