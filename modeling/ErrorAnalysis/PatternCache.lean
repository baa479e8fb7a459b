import ErrorAnalysis.Pattern

/-!
# Compiled patterns

Compiling a pattern always has the same result, so patterns that were compiled once are kept. The
patterns of a cache are those that compiling their texts gives, which is why a cache can be used
in place of the compiler.

## Main definitions

* `PatternCache`: the type.
* `PatternCache.lookup`: the pattern of a text, from the cache or by compiling it.
* `PatternCache.remember`: keeps the pattern of a text, if the text has one.

## Main statements

* `PatternCache.lookup_eq`: a cache never changes a result.
-/

namespace ErrorAnalysis

/-- Patterns by their texts. -/
structure PatternCache where
  entries : Assoc String Pattern := []
  /-- Every entry is the pattern that its text denotes. -/
  compiled : ∀ e ∈ entries, Pattern.compile e.1 = .ok e.2 := by intro _ h; cases h

namespace Assoc

variable {κ α : Type} [Ord κ]

/-- A value that is found stands under an equal key. -/
theorem exists_mem_of_find?_eq_some {m : Assoc κ α} {k : κ} {v : α} (h : find? m k = some v) :
    ∃ k', compare k k' = .eq ∧ (k', v) ∈ m := by
  induction m with
  | nil => simp [find?] at h
  | cons e m ih =>
    obtain ⟨k', v'⟩ := e
    by_cases hk : compare k k' = .eq
    · simp only [find?, hk, if_true, Option.some.injEq] at h
      exact ⟨k', hk, by simp [h]⟩
    · simp only [find?, hk, if_false] at h
      obtain ⟨k'', hk'', hm⟩ := ih h
      exact ⟨k'', hk'', List.mem_cons_of_mem _ hm⟩

/-- An entry of a map into which one was put is that one or was there before. -/
theorem mem_insert {m : Assoc κ α} {k : κ} {v : α} {e : κ × α} (h : e ∈ insert m k v) :
    e = (k, v) ∨ e ∈ m := by
  induction m with
  | nil => simpa [insert] using h
  | cons e' m ih =>
    obtain ⟨k', v'⟩ := e'
    simp only [insert] at h
    split at h
    · simpa using h
    · rcases List.mem_cons.1 h with h | h
      · exact .inl h
      · exact .inr (List.mem_cons_of_mem _ h)
    · rcases List.mem_cons.1 h with h | h
      · exact .inr (by simp [h])
      · exact (ih h).imp id (List.mem_cons_of_mem _)

end Assoc

namespace PatternCache

/-- The pattern of a text. -/
def lookup (c : PatternCache) (source : String) : Except EvalError Pattern :=
  match Assoc.find? c.entries source with
  | some p => .ok p
  | none => Pattern.compile source

/-- A cache never changes a result. -/
@[simp] theorem lookup_eq (c : PatternCache) (source : String) :
    c.lookup source = Pattern.compile source := by
  unfold lookup
  split
  · next p h =>
    obtain ⟨k, hk, hm⟩ := Assoc.exists_mem_of_find?_eq_some h
    rw [Std.LawfulEqOrd.eq_of_compare hk]
    exact (c.compiled _ hm).symm
  · rfl

/-- Keeps the pattern of a text, if the text has one. -/
def remember (c : PatternCache) (source : String) : PatternCache :=
  match h : Pattern.compile source with
  | .ok p =>
    { entries := Assoc.insert c.entries source p
      compiled := fun e he => by
        rcases Assoc.mem_insert he with rfl | he
        · exact h
        · exact c.compiled e he }
  | .error _ => c

/-- Keeps the patterns of all texts that have one. -/
def rememberAll (c : PatternCache) (sources : List String) : PatternCache :=
  sources.foldl remember c

/-- The number of patterns. -/
def size (c : PatternCache) : Nat :=
  c.entries.length

end PatternCache

end ErrorAnalysis
