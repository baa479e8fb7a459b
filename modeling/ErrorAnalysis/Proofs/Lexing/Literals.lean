import ErrorAnalysis.Expr.Printer
import ErrorAnalysis.Proofs.Lexing.Tiling

/-!
# String Literals

A string literal can be read in two ways. One goes character by character, and notices the closing quote
when it comes to it. The other one alternates between runs of plain characters, each as long as it can be,
and single escapes; it stops where neither comes, and only then is there a quote or not. The inside may be
missing, which is not the same as a run that is empty: a run has to have a character.

Both ways read the same. The printer writes one character after the other, and knows nothing of runs, so a
text that it has written is read back whatever its escapes stand next to.

## Main definitions

* `readRuns?`: plain characters in runs and single escapes, as far as they go.
* `readQuoted?`: a string literal as an inside, which may be missing, between two quotes.

## Main results

* `readQuoted?_cons`: **reading in runs is reading character by character.**
* `literal_roundTrip`: **a printed string literal reads back, in front of anything.**
-/

namespace ErrorAnalysis

namespace Token

/-! ### Reading in runs -/

/-- Whether a character stands for itself in a string literal. -/
def isPlain (c : Char) : Bool :=
  c != '\\' && c != '"'

/-- Runs of plain characters, each as long as it can be, and single escapes, until neither comes: the text
that they stand for, and what follows. `none` if an escape means nothing or is cut off. -/
def readRuns? (cs : List Char) : Option (List Char × List Char) :=
  match cs with
  | [] => some ([], [])
  | c :: rest =>
    if isPlain c then
      have : (rest.dropWhile isPlain).length < rest.length + 1 :=
        Nat.lt_succ_of_le (length_dropWhile_le _ _)
      (readRuns? (rest.dropWhile isPlain)).map fun r => (c :: rest.takeWhile isPlain ++ r.1, r.2)
    else if c = '\\' then
      match rest with
      | [] => none
      | e :: after =>
        (unescapeChar? e).bind fun x => (readRuns? after).map fun r => (x :: r.1, r.2)
    else
      some ([], c :: rest)
termination_by cs.length

/-- The inside of a string literal, which has to have a run or an escape if anything is left. -/
def readInside? : List Char → Option (List Char × List Char)
  | '"' :: _ => none
  | cs => readRuns? cs

/-- What was read, if a quote closes it. -/
def closed? (r : List Char × List Char) : Option (List Char × List Char) :=
  match r.2 with
  | [] => none
  | c :: rest => if c = '"' then some (r.1, rest) else none

/-- A string literal: a quote, an inside that may be missing, and a quote. -/
def readQuoted? : List Char → Option (List Char × List Char)
  | '"' :: cs => closed? ((readInside? cs).getD ([], cs))
  | _ => none

/-! ### Both ways of reading -/

variable {c : Char} {cs run rest : List Char}

theorem unescapeLiteral?_plain (hc : isPlain c = true) :
    unescapeLiteral? (c :: cs) = (unescapeLiteral? cs).map fun r => (c :: r.1, r.2) := by
  rw [isPlain, Bool.and_eq_true, bne_iff_ne, bne_iff_ne] at hc
  obtain ⟨hslash, hquote⟩ := hc
  rw [unescapeLiteral?]
  · cases unescapeLiteral? cs <;> rfl
  · exact hquote
  · intro h _
    exact hslash h
  · intro _ _ h _
    exact hslash h

theorem unescapeLiteral?_escape (e : Char) (after : List Char) :
    unescapeLiteral? ('\\' :: e :: after) =
      (unescapeChar? e).bind fun x => (unescapeLiteral? after).map fun r => (x :: r.1, r.2) := by
  rw [unescapeLiteral?]
  cases unescapeChar? e with
  | none => rfl
  | some x => cases unescapeLiteral? after <;> rfl

/-- A run is read like its characters one by one. -/
theorem unescapeLiteral?_run (hrun : ∀ c ∈ run, isPlain c = true) :
    unescapeLiteral? (run ++ rest) = (unescapeLiteral? rest).map fun r => (run ++ r.1, r.2) := by
  induction run with
  | nil => exact Option.map_id'.symm
  | cons c run ih =>
      obtain ⟨hc, hrun⟩ := List.forall_mem_cons.mp hrun
      rw [List.cons_append, unescapeLiteral?_plain hc, ih hrun, Option.map_map]
      rfl

/-- Whether a quote closes it does not depend on what was read before. -/
theorem closed?_append (run : List Char) (r : List Char × List Char) :
    closed? (run ++ r.1, r.2) = (closed? r).map fun r => (run ++ r.1, r.2) := by
  obtain ⟨text, rest⟩ := r
  cases rest with
  | nil => rfl
  | cons c rest =>
      dsimp only [closed?]
      split <;> rfl

/-- What is read in runs and then closed is what is read character by character. -/
theorem readRuns?_bind_closed? (cs : List Char) :
    (readRuns? cs).bind closed? = unescapeLiteral? cs := by
  fun_induction readRuns? cs with
  | case1 => rfl
  | case2 c rest hc _ ih =>
      have hrun : ∀ d ∈ c :: rest.takeWhile isPlain, isPlain d = true := by
        intro d hd
        rcases List.mem_cons.mp hd with rfl | hd
        · exact hc
        · exact List.all_eq_true.mp List.all_takeWhile d hd
      have hsplit : c :: rest = (c :: rest.takeWhile isPlain) ++ rest.dropWhile isPlain := by
        rw [List.cons_append, List.takeWhile_append_dropWhile]
      conv_rhs => rw [hsplit, unescapeLiteral?_run hrun, ← ih]
      cases readRuns? (rest.dropWhile isPlain) with
      | none => rfl
      | some r => exact closed?_append _ r
  | case3 => rfl
  | case4 e after hc ih =>
      rw [unescapeLiteral?_escape, ← ih]
      cases unescapeChar? e with
      | none => rfl
      | some x =>
          cases readRuns? after with
          | none => rfl
          | some r => exact closed?_append [x] r
  | case5 c rest hplain hslash =>
      have hquote : c = '"' := by
        by_contra hquote
        exact hplain (by simp [isPlain, hslash, hquote])
      subst hquote
      rfl

/-- **Reading in runs is reading character by character.** -/
theorem readQuoted?_cons (cs : List Char) : readQuoted? ('"' :: cs) = unescapeLiteral? cs := by
  rw [← readRuns?_bind_closed?, readQuoted?]
  by_cases hquote : cs.head? = some '"'
  · -- The inside is missing, and no run or escape comes either.
    obtain ⟨rest, rfl⟩ := List.head?_eq_some_iff.mp hquote
    rw [readRuns?.eq_def]
    rfl
  · have hinside : readInside? cs = readRuns? cs := by
      rw [readInside?]
      rintro rest rfl
      exact hquote rfl
    rw [hinside]
    cases readRuns? cs with
    | some r => rfl
    | none =>
        -- Nothing was read, so the closing quote would have to come at once.
        cases cs with
        | nil => rfl
        | cons c rest => exact if_neg fun hc => hquote (congrArg some hc)

/-! ### Printed literals -/

/-- **A printed string literal reads back, in front of anything:** it is read whole, its inside stands for
the text that was printed, and what follows is left as it is, in runs and as the first token alike. -/
theorem literal_roundTrip (s : String) (rest : List Char) :
    readQuoted? ((Literal.str s).text.toList ++ rest) = some (s.toList, rest) ∧
      next? ((Literal.str s).text.toList ++ rest) = some (.str s, rest) ∧
      ∀ position, scanFrom position ((Literal.str s).text.toList ++ rest) =
        (scanFrom (position + byteLength (Literal.str s).text.toList) rest).map
          (⟨.str s, position, position + byteLength (Literal.str s).text.toList⟩ :: ·) := by
  have htext : (Literal.str s).text.toList ++ rest =
      '"' :: (escapeLiteral s.toList ++ '"' :: rest) := by
    rw [Literal.text, quoteLiteral, String.toList_ofList, List.cons_append, List.append_assoc]
    rfl
  have hread : unescapeLiteral? (escapeLiteral s.toList ++ '"' :: rest) = some (s.toList, rest) :=
    unescapeLiteral?_escapeLiteral s.toList rest
  have hnext : next? ((Literal.str s).text.toList ++ rest) = some (.str s, rest) := by
    rw [htext, next?, readMark?_eq_none (by decide)]
    simp only [readRun?, if_true, hread, Option.map_some, String.ofList_toList]
  refine ⟨?_, hnext, scanFrom_append hnext⟩
  rw [htext, readQuoted?_cons, hread]

end Token

end ErrorAnalysis
