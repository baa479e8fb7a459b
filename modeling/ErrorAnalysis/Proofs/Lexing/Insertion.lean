import ErrorAnalysis.Proofs.Lexing.Tiling

/-!
# Layout Between Tokens

A query does not depend on how its tokens are set apart. Where one token ends and the next one starts, or
at an end of the command, any spaces, tabs and line breaks can be put in: normalising folds them into
spaces and touches nothing else, since the rest of the command is normal already, and the tokens around
them are read as before.

That needs the command itself to be in normal layout. Inside of a text between quotes there is no boundary
of tokens, and normalising would change what is put in there.

## Main results

* `Command.normalize_insert`: what is put in is all that normalising changes.
* `Token.lexes_insert`: spaces at a boundary of tokens do not change the tokens.
* `Query.parse_insert`: **a command is read the same with any layout put in between its tokens.**
-/

namespace ErrorAnalysis

/-! ### Trimming -/

section Trim

variable {cs ds bs : List Char}

theorem trimLeft_append (h : ∀ c ∈ bs, isBlank c = true) : trimLeft (bs ++ cs) = trimLeft cs :=
  List.dropWhile_append_of_pos h

theorem trimRight_append (h : ∀ c ∈ bs, isBlank c = true) : trimRight (cs ++ bs) = trimRight cs := by
  rw [trimRight, trimRight, List.reverse_append,
    trimLeft_append fun c hc => h c (List.mem_reverse.mp hc)]

theorem trimLeft_eq_self_iff : trimLeft cs = cs ↔ ∀ c ∈ cs.head?, isBlank c = false := by
  cases cs with
  | nil => simp [trimLeft]
  | cons c cs =>
      refine ⟨fun h d hd => ?_, fun h => Command.trimLeft_of_cons (h c rfl)⟩
      obtain rfl : c = d := by simpa using hd
      by_contra hblank
      have hlen := congrArg List.length h
      rw [trimLeft, List.dropWhile_cons_of_pos (by simpa using hblank), List.length_cons] at hlen
      have := Token.length_dropWhile_le isBlank cs
      omega

theorem trimRight_eq_self_iff : trimRight cs = cs ↔ ∀ c ∈ cs.getLast?, isBlank c = false := by
  rw [trimRight, List.reverse_eq_iff, trimLeft_eq_self_iff, List.head?_reverse]

theorem length_trimRight_le (cs : List Char) : (trimRight cs).length ≤ cs.length := by
  simpa [trimRight, trimLeft] using Token.length_dropWhile_le isBlank cs.reverse

/-- A text that trimming keeps has no blanks at either end. -/
theorem trim_eq_self_iff : trim cs = cs ↔
    (∀ c ∈ cs.head?, isBlank c = false) ∧ ∀ c ∈ cs.getLast?, isBlank c = false := by
  rw [← trimLeft_eq_self_iff, ← trimRight_eq_self_iff]
  constructor
  · intro h
    have hleft : trimLeft cs = cs := by
      refine (List.dropWhile_sublist isBlank).eq_of_length_le ?_
      calc cs.length = (trimRight (trimLeft cs)).length := by rw [← trim, h]
        _ ≤ (trimLeft cs).length := length_trimRight_le _
    exact ⟨hleft, by rwa [trim, hleft] at h⟩
  · rintro ⟨hleft, hright⟩
    rw [trim, hleft, hright]

/-- Blanks that are put into a text that trimming keeps are trimmed off at its ends, and kept inside. -/
theorem trim_insert (h : trim (cs ++ ds) = cs ++ ds) (hbs : ∀ c ∈ bs, isBlank c = true) :
    trim (cs ++ bs ++ ds) = cs ++ ds ∨ trim (cs ++ bs ++ ds) = cs ++ bs ++ ds := by
  by_cases hcs : cs = []
  · subst hcs
    left
    rw [List.nil_append, trim, trimLeft_append hbs]
    exact h
  obtain ⟨c, cs, rfl⟩ := List.exists_cons_of_ne_nil hcs
  by_cases hds : ds = []
  · subst hds
    left
    rw [List.append_nil] at h ⊢
    obtain ⟨hopen, hclose⟩ := trim_eq_self_iff.mp h
    rw [trim, trimLeft_eq_self_iff.mpr (by simpa using hopen), List.append_nil, trimRight_append hbs,
      trimRight_eq_self_iff.mpr hclose]
  · right
    rw [trim_eq_self_iff] at h ⊢
    rw [List.getLast?_append_of_ne_nil _ hds] at h ⊢
    exact h

end Trim

/-! ### Normalising -/

namespace Command

variable {cs ds run : List Char}

theorem joinLines_append (hcs : ∀ c ∈ cs, isControlBlank c = false) (ds : List Char) :
    joinLines (cs ++ ds) = cs ++ joinLines ds := by
  induction cs with
  | nil => rfl
  | cons c cs ih =>
      obtain ⟨hc, hcs⟩ := List.forall_mem_cons.mp hcs
      simp [joinLines, hc, ih hcs]

/-- A tab or a line break becomes a space or goes into the one that follows. -/
theorem joinLines_cons_of_isControlBlank {c : Char} (hc : isControlBlank c = true) (cs : List Char) :
    joinLines (c :: cs) = joinLines cs ∨ joinLines (c :: cs) = ' ' :: joinLines cs := by
  cases cs with
  | nil => exact .inr (by simp [joinLines, hc])
  | cons d cs =>
      cases hd : isControlBlank d with
      | true => exact .inl (by rw [joinLines, if_pos hc]; exact if_pos hd)
      | false => exact .inr (by rw [joinLines, if_pos hc]; exact if_neg (by simp [hd]))

/-- Spaces, tabs and line breaks in front of a text without the latter two become spaces. -/
theorem exists_joinLines_append (hrun : ∀ c ∈ run, c = ' ' ∨ isControlBlank c = true)
    (hds : ∀ c ∈ ds, isControlBlank c = false) :
    ∃ spaces, (∀ c ∈ spaces, c = ' ') ∧ joinLines (run ++ ds) = spaces ++ ds := by
  induction run with
  | nil => exact ⟨[], by simp, by simpa [joinLines] using joinLines_append hds []⟩
  | cons c run ih =>
      obtain ⟨hc, hrun⟩ := List.forall_mem_cons.mp hrun
      obtain ⟨spaces, hspaces, hjoin⟩ := ih hrun
      have hmore : ∀ d ∈ ' ' :: spaces, d = ' ' := List.forall_mem_cons.mpr ⟨rfl, hspaces⟩
      rcases hc with rfl | hc
      · exact ⟨' ' :: spaces, hmore, by simp [joinLines, hjoin, isControlBlank]⟩
      · rcases joinLines_cons_of_isControlBlank hc (run ++ ds) with h | h
        · exact ⟨spaces, hspaces, h.trans hjoin⟩
        · exact ⟨' ' :: spaces, hmore, h.trans (congrArg _ hjoin)⟩

theorem map_plainQuote (h : ∀ c ∈ cs, IsPlain c) : cs.map plainQuote = cs :=
  (List.map_congr_left fun c hc => (h c hc).2).trans (List.map_id' cs)

theorem isPlain_of_mem_normalize {cmd : String} {c : Char} (h : c ∈ (normalize cmd).toList) :
    IsPlain c := by
  obtain ⟨hcontrol, hquote⟩ := isControlBlank_of_mem_normalize h
  simp only [Expr.unquotable, List.mem_cons, List.not_mem_nil, or_false, not_or] at hquote
  exact ⟨hcontrol, by simp [plainQuote, hquote]⟩

/-- What is put into a text in normal layout is all that normalising changes, and at the ends of the text
nothing of it is left. -/
theorem normalize_insert {front back run : String}
    (hnormal : normalize (front ++ back) = front ++ back)
    (hrun : ∀ c ∈ run.toList, c = ' ' ∨ isControlBlank c = true) :
    normalize (front ++ run ++ back) = front ++ back ∨
    ∃ spaces : List Char, (∀ c ∈ spaces, c = ' ') ∧
      normalize (front ++ run ++ back) = String.ofList (front.toList ++ spaces ++ back.toList) := by
  have hplain : ∀ c ∈ front.toList ++ back.toList, IsPlain c := by
    intro c hc
    rw [← String.toList_append, ← hnormal] at hc
    exact isPlain_of_mem_normalize hc
  have htrim : trim (front.toList ++ back.toList) = front.toList ++ back.toList := by
    rw [normalize, String.toList_append, joinLines_of_plain hplain, map_plainQuote hplain] at hnormal
    rw [← String.ofList_inj, hnormal, String.ofList_append, String.ofList_toList, String.ofList_toList]
  obtain ⟨hfront, hback⟩ := List.forall_mem_append.mp hplain
  obtain ⟨spaces, hspaces, hjoin⟩ := exists_joinLines_append hrun fun c hc => (hback c hc).1
  have hblank : ∀ c ∈ spaces, isBlank c = true := fun c hc => hspaces c hc ▸ by decide
  have hinsert : normalize (front ++ run ++ back) =
      String.ofList (trim (front.toList ++ spaces ++ back.toList)) := by
    have hall : ∀ c ∈ front.toList ++ (spaces ++ back.toList), IsPlain c := by
      refine List.forall_mem_append.mpr ⟨hfront, List.forall_mem_append.mpr ⟨fun c hc => ?_, hback⟩⟩
      exact hspaces c hc ▸ by decide
    rw [normalize, String.toList_append, String.toList_append, List.append_assoc,
      joinLines_append (fun c hc => (hfront c hc).1), hjoin, map_plainQuote hall, List.append_assoc]
  rw [hinsert]
  rcases trim_insert htrim hblank with h | h
  · exact .inl (by rw [h, String.ofList_append, String.ofList_toList, String.ofList_toList])
  · exact .inr ⟨spaces, hspaces, by rw [h]⟩

end Command

/-! ### Tokens -/

namespace Token

variable {cs rest : List Char} {ts : List Token} {position : ℕ} {located : List Located}

/-- A text is cut into the same tokens wherever it starts. -/
theorem lexes_of_scanFrom (h : scanFrom position cs = .ok located) :
    Lexes cs ((located.map (·.token)).filter fun t => !t.isBlank) := by
  refine scan_ok_induction (fun _ => lexes_nil) (fun position word rest t ls _ hword _ ih => ?_) h
  rw [List.map_cons, ← List.singleton_append, List.filter_append]
  exact ih.cons (hword rest List.prefix_rfl)

/-- What follows blanks is cut into the tokens of the whole text. -/
theorem Lexes.of_blanks {word : List Char} (h : Lexes (word ++ rest) ts)
    (hword : ∀ c ∈ word, isSpaceOrTab c = true) (hrest : NoSpace rest) : Lexes rest ts := by
  by_cases hne : word = []
  · simpa [hne] using h
  obtain ⟨located, hscan, rfl⟩ := h 0
  rw [scanFrom_append (next?_blanks hne hword hrest)] at hscan
  obtain ⟨ls, hls, rfl⟩ := except_map_eq_ok.mp hscan
  have hlexes := lexes_of_scanFrom hls
  exact hlexes

/-- Blanks in front of a text change nothing about its tokens. -/
theorem Lexes.blanks {bs : List Char} (h : Lexes cs ts) (hbs : ∀ c ∈ bs, isSpaceOrTab c = true) :
    Lexes (bs ++ cs) ts := by
  have hcs : cs.takeWhile isSpaceOrTab ++ cs.dropWhile isSpaceOrTab = cs :=
    List.takeWhile_append_dropWhile
  have hrun : ∀ c ∈ cs.takeWhile isSpaceOrTab, isSpaceOrTab c = true :=
    List.all_eq_true.mp List.all_takeWhile
  have hrest := dropWhile_stops isSpaceOrTab cs
  by_cases hne : bs ++ cs.takeWhile isSpaceOrTab = []
  · rw [(List.append_eq_nil_iff.mp hne).1]
    exact h
  · rw [← hcs] at h ⊢
    rw [← List.append_assoc]
    exact (h.of_blanks hrun hrest).cons
      (next?_blanks hne (List.forall_mem_append.mpr ⟨hbs, hrun⟩) hrest)

/-- Spaces that are put into a text leave it the same up to the first of them. -/
theorem follows_insert (front : List Char) {spaces back : List Char} (hspaces : ∀ c ∈ spaces, c = ' ') :
    Follows (front ++ back) (front ++ spaces ++ back) := by
  rw [List.append_assoc]
  refine Follows.append front ?_
  cases spaces with
  | nil => exact .of_isPrefix List.prefix_rfl
  | cons c spaces => exact hspaces c List.mem_cons_self ▸ .space _ _

/-- Behind the first token, a boundary of the text is a boundary of what is left. -/
theorem exists_of_boundary {word front back : List Char} {ls : List Located}
    (hcs : word ++ rest = front ++ back) (hls : scanFrom (position + byteLength word) rest = .ok ls)
    (hcut : position + byteLength front ∈ (position + byteLength word) :: ls.map (·.stop)) :
    ∃ front', front = word ++ front' ∧ rest = front' ++ back ∧
      position + byteLength word + byteLength front' ∈
        (position + byteLength word) :: ls.map (·.stop) := by
  have hle : byteLength word ≤ byteLength front := by
    rcases List.mem_cons.mp hcut with hcut | hcut
    · omega
    · obtain ⟨l, hl, hstop⟩ := List.mem_map.mp hcut
      obtain ⟨before, slice, -, -, hstart, hstop', -⟩ := exists_slice_of_scanFrom hls l hl
      omega
  rcases List.append_eq_append_iff.mp hcs with ⟨front', rfl, hrest⟩ | ⟨more, rfl, hback⟩
  · refine ⟨front', rfl, hrest, ?_⟩
    rwa [byteLength_append, ← Nat.add_assoc] at hcut
  · obtain rfl : more = [] := by
      by_contra hne
      have := byteLength_pos hne
      rw [byteLength_append] at hle
      omega
    exact ⟨[], by simp, by simpa using hback.symm, by simp [byteLength]⟩

/-- **Spaces at a boundary of tokens** do not change the tokens. -/
theorem lexes_insert {front back spaces : List Char} (hspaces : ∀ c ∈ spaces, c = ' ')
    (h : scanFrom position (front ++ back) = .ok located)
    (hcut : position + byteLength front ∈ position :: located.map (·.stop)) :
    Lexes (front ++ spaces ++ back) ((located.map (·.token)).filter fun t => !t.isBlank) := by
  have hblank : ∀ c ∈ spaces, isSpaceOrTab c = true := fun c hc => hspaces c hc ▸ by decide
  refine scan_ok_induction (motive := fun position cs located => ∀ front, cs = front ++ back →
      position + byteLength front ∈ position :: located.map (·.stop) →
      Lexes (front ++ spaces ++ back) ((located.map (·.token)).filter fun t => !t.isBlank))
    (fun position front hcs _ => ?_)
    (fun position word rest t ls _ hword hls ih front hcs hcut => ?_) h front rfl hcut
  · obtain ⟨rfl, rfl⟩ := List.append_eq_nil_iff.mp hcs.symm
    exact lexes_nil.blanks hblank
  have hnext := hword rest List.prefix_rfl
  by_cases hfront : front = []
  · subst hfront
    have hscan := scanFrom_append hnext position
    rw [hls, hcs] at hscan
    exact (lexes_of_scanFrom hscan).blanks hblank
  have hbehind := (List.mem_cons.mp hcut).resolve_left fun heq => by
    have := byteLength_pos hfront
    omega
  obtain ⟨front', rfl, rfl, hcut'⟩ := exists_of_boundary hcs hls hbehind
  have hrest := ih front' rfl hcut'
  rw [List.append_assoc, List.append_assoc, ← List.append_assoc front']
  cases ht : t.isBlank with
  | true =>
      -- Blanks may go on into the spaces, and are no token either way.
      obtain ⟨word', hword', -, hblanks, -⟩ := exists_blanks_of_next? hnext ht
      obtain rfl := List.append_cancel_right hword'
      simpa [ht] using hrest.blanks hblanks
  | false =>
      obtain ⟨word', hword', hlocal⟩ := next?_of_follows hnext ht
      obtain rfl := List.append_cancel_right hword'
      simpa [ht] using hrest.cons (hlocal (follows_insert front' hspaces))

end Token

/-! ### Queries -/

/-- **A command is read the same with any layout put in between its tokens**, or at its ends. -/
theorem Query.parse_insert {front back run : String} {located : List Located}
    (hnormal : Command.normalize (front ++ back) = front ++ back)
    (hscan : Token.scan (front ++ back) = .ok located)
    (hcut : front.utf8ByteSize ∈ 0 :: located.map (·.stop))
    (hrun : ∀ c ∈ run.toList, c = ' ' ∨ Command.isControlBlank c = true) :
    Query.parse (front ++ run ++ back) = Query.parse (front ++ back) := by
  have htokens : Query.tokens (front ++ run ++ back) = Query.tokens (front ++ back) := by
    unfold Query.tokens
    rcases Command.normalize_insert hnormal hrun with h | ⟨spaces, hspaces, h⟩
    · rw [h, hnormal]
    · have hscan₀ : Token.scanFrom 0 (front.toList ++ back.toList) = .ok located := by
        rw [← String.toList_append]
        exact hscan
      rw [← Token.byteLength_toList, ← Nat.zero_add (Token.byteLength _)] at hcut
      obtain ⟨located', hscan', htokens⟩ := Token.lexes_insert hspaces hscan₀ hcut 0
      rw [h, hnormal, hscan, Token.scan, String.toList_ofList, hscan']
      exact congrArg Except.ok htokens
  rw [Query.parse, Query.parse, htokens]

/-- A tab, a line break and spaces between the mark of an attribute and its name. -/
theorem Query.parse_insert_attribute :
    Query.parse ("not attr:" ++ "\t\r\n  " ++ "low") = Query.parse ("not attr:" ++ "low") := by
  have hscan : Token.scan ("not attr:" ++ "low") = .ok
      [⟨.keyword .not, 0, 3⟩, ⟨.blank " ", 3, 4⟩, ⟨.blockMark .attr, 4, 9⟩, ⟨.identifier "low", 9, 12⟩] :=
    Option.some.inj ((Token.scanWithin_eq le_rfl 0).symm.trans rfl)
  exact Query.parse_insert (by decide +kernel) hscan (by decide) (by decide)

end ErrorAnalysis
