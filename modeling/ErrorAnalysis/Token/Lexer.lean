import ErrorAnalysis.Text.Alphabetic
import ErrorAnalysis.Text.Blank
import ErrorAnalysis.Token.Basic

/-!
# Reading tokens

A command is cut into tokens from left to right. At each place the token is decided by its first
characters; a number, a name and a run of blanks take as many characters as they can.

## Main definitions

* `Token.next?`: the token at the start of a text and what follows it.
* `Token.scan`: the tokens of a text with the bytes that they take up.
* `LexError`: the text from which no token can be read.

## Main results

* `Token.length_lt_of_next?`: a token takes at least one character, so scanning ends.
-/

namespace ErrorAnalysis

namespace Token

/-! ### Single tokens -/

/-- Whether a character separates tokens. -/
def isSpaceOrTab (c : Char) : Bool :=
  c == ' ' || c == '\t'

/-- Whether a character can start a name. -/
def startsName (c : Char) : Bool :=
  isAlphabetic c || c == '_'

/-- Whether a character can continue a name. -/
def continuesName (c : Char) : Bool :=
  isAlphanumeric c || c == '_'

/-- The exponent part at the start of a text. A letter that no digits follow is not one. -/
def readExponent (cs : List Char) : Int × List Char :=
  match cs with
  | c :: rest =>
    if c = 'e' ∨ c = 'E' then
      let signed := Number.splitSign rest
      let digits := Number.splitDigits signed.2
      if digits.1.isEmpty then (0, cs)
      else (Number.signedValue signed.1 digits.1, digits.2)
    else (0, cs)
  | [] => (0, [])

/-- The digits after a point, if there is one. -/
def readFraction : List Char → List Char × List Char
  | '.' :: rest => Number.splitDigits rest
  | rest => ([], rest)

/-- A number: digits, a point with any digits after it, and an exponent. -/
def readNumber? (cs : List Char) : Option (Number × List Char) :=
  let whole := Number.splitDigits cs
  if whole.1.isEmpty then none
  else
    let fraction := readFraction whole.2
    let e := readExponent fraction.2
    some (Number.ofDecimal ⟨digitsValue (whole.1 ++ fraction.1), e.1 - fraction.1.length⟩, e.2)

/-- The token of a name: a reserved word or an identifier. -/
def ofName (name : String) : Token :=
  match Keyword.ofName? name with
  | some k => .keyword k
  | none => .identifier name

/-- The operator, delimiter or block mark at the start of a text, and what follows it. -/
def readMark? : List Char → Option (Token × List Char)
  | 'a' :: 't' :: 't' :: 'r' :: ':' :: rest => some (.blockMark .attr, rest)
  | 'g' :: 'r' :: 'o' :: 'u' :: 'p' :: ':' :: rest => some (.blockMark .group, rest)
  | '=' :: '=' :: rest => some (.operator .eq, rest)
  | '!' :: '=' :: rest => some (.operator .ne, rest)
  | '<' :: '=' :: rest => some (.operator .le, rest)
  | '>' :: '=' :: rest => some (.operator .ge, rest)
  | '<' :: rest => some (.operator .lt, rest)
  | '>' :: rest => some (.operator .gt, rest)
  | '+' :: rest => some (.operator .plus, rest)
  | '-' :: rest => some (.operator .minus, rest)
  | '*' :: rest => some (.operator .times, rest)
  | '/' :: rest => some (.operator .divide, rest)
  | '%' :: rest => some (.operator .modulo, rest)
  | '=' :: rest => some (.operator .assign, rest)
  | '^' :: rest => some (.operator .caret, rest)
  | '~' :: rest => some (.operator .tilde, rest)
  | '&' :: rest => some (.operator .ampersand, rest)
  | '|' :: rest => some (.operator .pipe, rest)
  | '(' :: rest => some (.delimiter .openParen, rest)
  | ')' :: rest => some (.delimiter .closeParen, rest)
  | '[' :: rest => some (.delimiter .openBracket, rest)
  | ']' :: rest => some (.delimiter .closeBracket, rest)
  | ',' :: rest => some (.delimiter .comma, rest)
  | _ => none

/-- The string literal, number, name or run of blanks at the start of a text, and what follows
it. -/
def readRun? (c : Char) (rest : List Char) : Option (Token × List Char) :=
  if c = '"' then
    (unescapeLiteral? rest).map fun r => (.str (String.ofList r.1), r.2)
  else if isSpaceOrTab c then
    some (.blank (String.ofList (c :: rest.takeWhile isSpaceOrTab)), rest.dropWhile isSpaceOrTab)
  else if c.isDigit then
    (readNumber? (c :: rest)).map fun r => (.number r.1, r.2)
  else if startsName c then
    some (ofName (String.ofList (c :: rest.takeWhile continuesName)), rest.dropWhile continuesName)
  else
    none

/-- The token at the start of a text, and what follows it. -/
def next? : List Char → Option (Token × List Char)
  | [] => none
  | c :: rest =>
    match readMark? (c :: rest) with
    | some r => some r
    | none => readRun? c rest

/-! ### Progress -/

theorem length_dropWhile_le {α : Type} (p : α → Bool) (xs : List α) :
    (xs.dropWhile p).length ≤ xs.length :=
  (List.dropWhile_sublist p).length_le

theorem length_snd_splitDigits_le (cs : List Char) :
    (Number.splitDigits cs).2.length ≤ cs.length :=
  length_dropWhile_le _ _

theorem length_lt_of_unescapeLiteral? {cs : List Char} {r : List Char × List Char}
    (h : unescapeLiteral? cs = some r) : r.2.length < cs.length := by
  fun_induction unescapeLiteral? cs generalizing r with
  | case1 => simp at h
  | case2 rest =>
    cases h
    simp
  | case3 => simp at h
  | case4 c rest ih =>
    simp only [Option.bind_eq_bind, Option.bind_eq_some_iff, Option.pure_def,
      Option.some.injEq] at h
    obtain ⟨_, _, r', hr', rfl⟩ := h
    have := ih hr'
    simp only [List.length_cons]
    omega
  | case5 c rest _ _ _ ih =>
    simp only [Option.bind_eq_bind, Option.bind_eq_some_iff, Option.pure_def,
      Option.some.injEq] at h
    obtain ⟨r', hr', rfl⟩ := h
    have := ih hr'
    simp only [List.length_cons]
    omega

theorem length_snd_splitSign_le (cs : List Char) :
    (Number.splitSign cs).2.length ≤ cs.length := by
  fun_cases Number.splitSign cs <;> simp

theorem length_snd_readExponent_le (cs : List Char) :
    (readExponent cs).2.length ≤ cs.length := by
  fun_cases readExponent cs with
  | case1 c rest _ signed digits => exact Nat.le_refl _
  | case2 c rest _ signed digits =>
    have h₁ : signed.2.length ≤ rest.length := length_snd_splitSign_le rest
    have h₂ : digits.2.length ≤ signed.2.length := length_snd_splitDigits_le signed.2
    simp only [List.length_cons]
    omega
  | case3 => exact Nat.le_refl _
  | case4 => exact Nat.le_refl _

theorem length_snd_readFraction_le (cs : List Char) :
    (readFraction cs).2.length ≤ cs.length := by
  fun_cases readFraction cs with
  | case1 rest =>
    have := length_snd_splitDigits_le rest
    simp only [List.length_cons]
    omega
  | case2 => exact Nat.le_refl _

theorem length_lt_of_readNumber? {cs : List Char} {r : Number × List Char}
    (h : readNumber? cs = some r) : r.2.length < cs.length := by
  unfold readNumber? at h
  dsimp only at h
  split at h
  · simp at h
  · next hne =>
    obtain rfl := Option.some.inj h
    have h₁ := length_snd_readExponent_le (readFraction (Number.splitDigits cs).2).2
    have h₂ := length_snd_readFraction_le (Number.splitDigits cs).2
    have h₃ : (Number.splitDigits cs).1.length + (Number.splitDigits cs).2.length = cs.length := by
      rw [← List.length_append, Number.splitDigits, List.takeWhile_append_dropWhile]
    have h₄ : (Number.splitDigits cs).1.length ≠ 0 := by
      simpa [List.isEmpty_iff] using hne
    simp only
    omega

theorem length_lt_of_readMark? {cs : List Char} {r : Token × List Char}
    (h : readMark? cs = some r) : r.2.length < cs.length := by
  revert h
  fun_cases readMark? cs
  case case24 => simp
  all_goals
    intro h
    obtain rfl := Option.some.inj h
    simp only [List.length_cons]
    omega

theorem length_lt_of_readRun? {c : Char} {rest : List Char} {r : Token × List Char}
    (h : readRun? c rest = some r) : r.2.length < (c :: rest).length := by
  unfold readRun? at h
  split at h
  · obtain ⟨r', hr', rfl⟩ := Option.map_eq_some_iff.1 h
    exact Nat.lt_succ_of_lt (length_lt_of_unescapeLiteral? hr')
  · split at h
    · obtain rfl := Option.some.inj h
      exact Nat.lt_succ_of_le (length_dropWhile_le _ rest)
    · split at h
      · obtain ⟨r', hr', rfl⟩ := Option.map_eq_some_iff.1 h
        exact length_lt_of_readNumber? hr'
      · split at h
        · obtain rfl := Option.some.inj h
          exact Nat.lt_succ_of_le (length_dropWhile_le _ rest)
        · simp at h

/-- A token takes at least one character. -/
theorem length_lt_of_next? {cs : List Char} {r : Token × List Char} (h : next? cs = some r) :
    r.2.length < cs.length := by
  revert h
  fun_cases next? cs with
  | case1 => simp
  | case2 c rest r' hr' =>
    intro h
    obtain rfl := Option.some.inj h
    exact length_lt_of_readMark? hr'
  | case3 c rest _ => exact length_lt_of_readRun?

/-! ### Scanning -/

/-- The number of bytes of a text in UTF-8. -/
def byteLength : List Char → Nat
  | [] => 0
  | c :: cs => c.utf8Size + byteLength cs

end Token

/-- A token and the bytes that it takes up. -/
structure Located where
  token : Token
  start : Nat
  stop : Nat

/-- No token can be read from `rest`, which starts at the byte `position`. -/
structure LexError where
  rest : List Char
  position : Nat
deriving DecidableEq

namespace LexError

/-- The first characters of the text that could not be read. -/
def found (e : LexError) : String :=
  String.ofList (e.rest.take 20)

/-- The byte after the first character that could not be read. -/
def stop (e : LexError) : Nat :=
  e.position + Token.byteLength (e.rest.take 1)

/-- The first line of the text that could not be read. -/
def line (e : LexError) : String :=
  String.ofList (trimRight (e.rest.takeWhile (· != '\n')))

/-- What was looked for last, from the inside out: a character that starts a name, a name, and any
of the tokens. -/
def attempts : List String :=
  ["TakeWhile1", "identifier", "Alt"]

/-- One attempt, with the line and a mark under its first column. -/
def attemptText (e : LexError) (number : Nat) (attempt : String) : String :=
  toString number ++ ": at line 1, in " ++ attempt ++ ":\n" ++ e.line ++ "\n^\n\n"

/-- The message of the error. -/
def message (e : LexError) : String :=
  "Tokenize error: "
    ++ String.join (attempts.zipIdx.map fun (attempt, i) => e.attemptText i attempt)
    ++ ", found: " ++ e.found ++ ", at " ++ toString e.position ++ ".." ++ toString e.stop

end LexError

namespace Token

/-- The tokens of a text that starts at the byte `position`. -/
def scanFrom (position : Nat) (cs : List Char) : Except LexError (List Located) :=
  match cs with
  | [] => .ok []
  | c :: cs' =>
    match h : next? (c :: cs') with
    | none => .error ⟨c :: cs', position⟩
    | some (token, rest) =>
      have : rest.length < cs'.length + 1 := length_lt_of_next? h
      let stop := position + (byteLength (c :: cs') - byteLength rest)
      (scanFrom stop rest).map (⟨token, position, stop⟩ :: ·)
termination_by cs.length

/-- The tokens of a text, blanks included. -/
def scan (s : String) : Except LexError (List Located) :=
  scanFrom 0 s.toList

end Token

end ErrorAnalysis
