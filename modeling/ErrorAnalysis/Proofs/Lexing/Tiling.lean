import ErrorAnalysis.Proofs.Lexing.Boundaries

/-!
# Tokens Tile the Text

Scanning leaves no byte out and reads none twice: the spans of the tokens lie side by side from the first
byte of the text to the last one, each takes at least a byte, and each is a token on its own, so no span
depends on what stands around it. Where scanning stops with an error, all that stands in front has been cut
into tokens and none starts at the place itself.

The scanner is a recursion on the length of the text, which is no statement about a loop that might run on.
`scanWithin` is the loop with a bound on its rounds and without any word on progress.

## Main definitions

* `Tiles`: spans that lie side by side.
* `IsSlice`: the text between two bytes of another text.
* `scanWithin`: scanning in a bounded number of rounds.

## Main results

* `tiles_of_scanFrom`, `exists_slice_of_scanFrom`: what scanning gives, from anywhere.
* `scanWithin_eq`: one round for each character is enough.
* `scan_tiles`: **scanning ends, and it tiles the text up to where it ends.**
-/

namespace ErrorAnalysis

section Map

variable {ε α β : Type} {x : Except ε α} {f : α → β}

theorem except_map_eq_ok {b : β} : x.map f = .ok b ↔ ∃ a, x = .ok a ∧ f a = b := by
  cases x <;> simp [Except.map]

theorem except_map_eq_error {e : ε} : x.map f = .error e ↔ x = .error e := by
  cases x <;> simp [Except.map]

end Map

namespace Token

/-! ### Bytes -/

@[simp] theorem byteLength_append (cs ds : List Char) :
    byteLength (cs ++ ds) = byteLength cs + byteLength ds := by
  induction cs with
  | nil => simp [byteLength]
  | cons c cs ih => rw [List.cons_append, byteLength, byteLength, ih, Nat.add_assoc]

theorem byteLength_pos {cs : List Char} (h : cs ≠ []) : 0 < byteLength cs := by
  obtain ⟨c, cs, rfl⟩ := List.exists_cons_of_ne_nil h
  rw [byteLength]
  have := c.utf8Size_pos
  omega

@[simp] theorem utf8ByteSize_ofList (cs : List Char) : (String.ofList cs).utf8ByteSize = byteLength cs := by
  induction cs with
  | nil => rfl
  | cons c cs ih =>
      have hcons : String.ofList (c :: cs) = String.singleton c ++ String.ofList cs := by
        rw [String.singleton_eq_ofList, ← String.ofList_append]
        rfl
      rw [hcons, String.utf8ByteSize_append, String.utf8ByteSize_singleton, ih, byteLength]

theorem byteLength_toList (s : String) : byteLength s.toList = s.utf8ByteSize := by
  rw [← utf8ByteSize_ofList, String.ofList_toList]

/-- A text is cut in one way only after a number of bytes. -/
theorem eq_of_byteLength_eq {front front' back back' : List Char}
    (h : front ++ back = front' ++ back') (hbytes : byteLength front = byteLength front') :
    front = front' ∧ back = back' := by
  induction front generalizing front' with
  | nil =>
      cases front' with
      | nil => exact ⟨rfl, h⟩
      | cons c front' => exact absurd hbytes (byteLength_pos (List.cons_ne_nil c front')).ne
  | cons c front ih =>
      cases front' with
      | nil => exact absurd hbytes (byteLength_pos (List.cons_ne_nil c front)).ne'
      | cons d front' =>
          obtain ⟨rfl, htail⟩ := List.cons.inj h
          obtain ⟨rfl, hback⟩ := ih htail (Nat.add_left_cancel hbytes)
          exact ⟨rfl, hback⟩

/-- The text from the byte `start` up to the byte `stop` of another one. -/
def IsSlice (s : String) (start stop : ℕ) (x : String) : Prop :=
  ∃ front back, s = front ++ x ++ back ∧ front.utf8ByteSize = start ∧
    (front ++ x).utf8ByteSize = stop

/-- There is one text only between two bytes. -/
theorem IsSlice.eq {s x y : String} {start stop : ℕ} (hx : IsSlice s start stop x)
    (hy : IsSlice s start stop y) : x = y := by
  obtain ⟨front, back, rfl, rfl, rfl⟩ := hx
  obtain ⟨front', back', hs, hstart, hstop⟩ := hy
  have hlist := congrArg String.toList hs
  simp only [String.toList_append, ← byteLength_toList] at hlist hstart hstop
  obtain ⟨hfront, -⟩ := eq_of_byteLength_eq hlist hstop.symm
  obtain ⟨-, hword⟩ := eq_of_byteLength_eq hfront hstart.symm
  exact String.toList_inj.mp hword

/-! ### Steps of the scanner -/

section Steps

variable {word rest : List Char} {t : Token} {position : ℕ}

/-- One token is read, and scanning goes on behind it. -/
theorem scanFrom_append (h : next? (word ++ rest) = some (t, rest)) (position : ℕ) :
    scanFrom position (word ++ rest) =
      (scanFrom (position + byteLength word) rest).map
        (⟨t, position, position + byteLength word⟩ :: ·) := by
  cases hcs : word ++ rest with
  | nil => exact absurd h (by simp [hcs, next?])
  | cons c cs =>
      rw [scanFrom]
      rw [hcs] at h
      split
      · next hnone => exact absurd (h.symm.trans hnone) (by simp)
      · next t' rest' hsome =>
        obtain ⟨rfl, rfl⟩ := Prod.mk.inj (Option.some.inj (h.symm.trans hsome))
        have hbytes : byteLength (c :: cs) - byteLength rest = byteLength word := by
          rw [← hcs, byteLength_append, Nat.add_sub_cancel]
        simp only [hbytes]

/-- Nothing can be read, and scanning stops. -/
theorem scanFrom_error {cs : List Char} (hne : cs ≠ []) (h : next? cs = none) (position : ℕ) :
    scanFrom position cs = .error ⟨cs, position⟩ := by
  obtain ⟨c, cs, rfl⟩ := List.exists_cons_of_ne_nil hne
  rw [scanFrom]
  split
  · rfl
  · next hsome => exact absurd (h.symm.trans hsome) (by simp)

/-- A text is at its end, cannot be read, or starts with a token that is read there in front of any part of
what is left. What holds of every text follows along the tokens. -/
@[elab_as_elim]
theorem scan_induction {motive : List Char → Prop} (nil : motive [])
    (stuck : ∀ cs, cs ≠ [] → next? cs = none → motive cs)
    (token : ∀ word rest t, word ≠ [] →
      (∀ front, front <+: rest → next? (word ++ front) = some (t, front)) →
      motive rest → motive (word ++ rest))
    (cs : List Char) : motive cs := by
  induction hn : cs.length using Nat.strong_induction_on generalizing cs with
  | _ n ih =>
    subst hn
    by_cases hne : cs = []
    · exact hne ▸ nil
    cases hnext : next? cs with
    | none => exact stuck cs hne hnext
    | some r =>
        have hlt := length_lt_of_next? hnext
        obtain ⟨word, hcs, hword⟩ := next?_of_isPrefix hnext
        have hne : word ≠ [] := by
          rintro rfl
          rw [List.nil_append] at hcs
          exact absurd (hcs ▸ hlt) (lt_irrefl _)
        have hrest := ih _ hlt r.2 rfl
        exact hcs ▸ token word r.2 r.1 hne (fun front hfront => hword hfront) hrest

/-- What holds of the end of a text, and is carried over each token in front of it, holds of all that is
scanned. -/
@[elab_as_elim]
theorem scan_ok_induction {motive : ℕ → List Char → List Located → Prop}
    (nil : ∀ position, motive position [] [])
    (token : ∀ position word rest t ls, word ≠ [] →
      (∀ front, front <+: rest → next? (word ++ front) = some (t, front)) →
      scanFrom (position + byteLength word) rest = .ok ls →
      motive (position + byteLength word) rest ls →
      motive position (word ++ rest) (⟨t, position, position + byteLength word⟩ :: ls))
    {cs : List Char} {located : List Located} (h : scanFrom position cs = .ok located) :
    motive position cs located := by
  induction cs using scan_induction generalizing position located with
  | nil =>
      rw [scanFrom] at h
      obtain rfl := Except.ok.inj h
      exact nil position
  | stuck cs hne hnone =>
      rw [scanFrom_error hne hnone] at h
      exact absurd h (by simp)
  | token word rest t hne hword ih =>
      rw [scanFrom_append (hword rest List.prefix_rfl)] at h
      obtain ⟨ls, hls, rfl⟩ := except_map_eq_ok.mp h
      exact token position word rest t ls hne hword hls (ih hls)

end Steps

/-! ### Spans -/

/-- Spans that lie side by side from `start` to `stop`, none of them empty. -/
inductive Tiles : ℕ → ℕ → List Located → Prop
  | nil (n : ℕ) : Tiles n n []
  | cons {start mid stop : ℕ} (t : Token) {ls : List Located} (hpos : start < mid)
      (htiles : Tiles mid stop ls) : Tiles start stop (⟨t, start, mid⟩ :: ls)

section Spans

variable {position : ℕ} {cs : List Char} {located : List Located} {e : LexError}

/-- **The tokens tile the text.** -/
theorem tiles_of_scanFrom (h : scanFrom position cs = .ok located) :
    Tiles position (position + byteLength cs) located := by
  refine scan_ok_induction .nil (fun position word rest t ls hne _ _ ih => ?_) h
  rw [byteLength_append, ← Nat.add_assoc]
  exact .cons t (Nat.lt_add_of_pos_right (byteLength_pos hne)) ih

/-- **Each span holds its token**, which is all that is read from the text under it. -/
theorem exists_slice_of_scanFrom (h : scanFrom position cs = .ok located) :
    ∀ l ∈ located, ∃ front word back, cs = front ++ word ++ back ∧
      position + byteLength front = l.start ∧ l.start + byteLength word = l.stop ∧
      scanFrom 0 word = .ok [⟨l.token, 0, byteLength word⟩] := by
  refine scan_ok_induction (by simp) (fun position word rest t ls _ hword _ ih => ?_) h
  refine List.forall_mem_cons.mpr ⟨⟨[], word, rest, by simp, rfl, rfl, ?_⟩, fun l hl => ?_⟩
  · have halone := scanFrom_append (hword [] List.nil_prefix) 0
    rw [List.append_nil, scanFrom, Nat.zero_add] at halone
    exact halone
  · obtain ⟨front, word', back, rfl, hstart, hstop, hscan⟩ := ih l hl
    refine ⟨word ++ front, word', back, by simp, ?_, hstop, hscan⟩
    rw [byteLength_append, ← Nat.add_assoc, hstart]

/-- **Scanning stops where no token starts**, and what stands in front is cut into tokens. -/
theorem exists_front_of_scanFrom_error (h : scanFrom position cs = .error e) :
    ∃ front, cs = front ++ e.rest ∧ position + byteLength front = e.position ∧
      (∃ located, scanFrom position front = .ok located) ∧ e.rest ≠ [] ∧ next? e.rest = none := by
  induction cs using scan_induction generalizing position with
  | nil =>
      rw [scanFrom] at h
      exact absurd h (by simp)
  | stuck cs hne hnone =>
      rw [scanFrom_error hne hnone] at h
      obtain rfl := Except.error.inj h
      exact ⟨[], rfl, rfl, ⟨[], by rw [scanFrom]⟩, hne, hnone⟩
  | token word rest t hne hword ih =>
      rw [scanFrom_append (hword rest List.prefix_rfl)] at h
      obtain ⟨front, hrest, hposition, ⟨located, hlocated⟩, hstuck⟩ := ih (except_map_eq_error.mp h)
      refine ⟨word ++ front, by rw [List.append_assoc, ← hrest], ?_, ?_, hstuck⟩
      · rw [byteLength_append, ← Nat.add_assoc, hposition]
      · have hscan := scanFrom_append (hword front ⟨e.rest, hrest.symm⟩) position
        rw [hlocated] at hscan
        exact ⟨_, hscan⟩

end Spans

/-! ### The loop -/

/-- Scanning in a bounded number of rounds; `none` if they do not suffice. -/
def scanWithin : ℕ → ℕ → List Char → Option (Except LexError (List Located))
  | _, _, [] => some (.ok [])
  | 0, _, _ :: _ => none
  | rounds + 1, position, c :: cs =>
    match next? (c :: cs) with
    | none => some (.error ⟨c :: cs, position⟩)
    | some (token, rest) =>
      let stop := position + (byteLength (c :: cs) - byteLength rest)
      (scanWithin rounds stop rest).map fun result => result.map (⟨token, position, stop⟩ :: ·)

/-- One round for each character is enough. -/
theorem scanWithin_eq {rounds : ℕ} {cs : List Char} (h : cs.length ≤ rounds) (position : ℕ) :
    scanWithin rounds position cs = some (scanFrom position cs) := by
  induction rounds generalizing position cs with
  | zero =>
      obtain rfl := List.length_eq_zero_iff.mp (Nat.le_zero.mp h)
      rw [scanWithin, scanFrom]
  | succ rounds ih =>
      fun_cases scanFrom position cs with
      | case1 => rw [scanWithin]
      | case2 c cs hnone => rw [scanWithin, hnone]
      | case3 c cs token rest hnext hlt stop =>
          have hrest : rest.length ≤ rounds := by
            simp only [List.length_cons] at h
            omega
          simp only [scanWithin, hnext, ih hrest, Option.map_some]
          rfl

/-- **Scanning ends, and it tiles the text up to where it ends.** -/
theorem scan_tiles (s : String) :
    scanWithin s.length 0 s.toList = some (scan s) ∧
    match scan s with
    | .ok located =>
      Tiles 0 s.utf8ByteSize located ∧
      ∀ l ∈ located, (∃ x, IsSlice s l.start l.stop x) ∧
        ∀ x, IsSlice s l.start l.stop x → scan x = .ok [⟨l.token, 0, x.utf8ByteSize⟩]
    | .error e =>
      ∃ front rest, s = front ++ rest ∧ front.utf8ByteSize = e.position ∧
        (∃ located, scan front = .ok located) ∧ rest ≠ "" ∧ next? rest.toList = none := by
  refine ⟨scanWithin_eq le_rfl 0, ?_⟩
  cases h : scan s with
  | ok located =>
      refine ⟨?_, fun l hl => ?_⟩
      · have htiles := tiles_of_scanFrom h
        rwa [Nat.zero_add, byteLength_toList] at htiles
      · obtain ⟨front, word, back, hs, hstart, hstop, hscan⟩ := exists_slice_of_scanFrom h l hl
        have hslice : IsSlice s l.start l.stop (String.ofList word) := by
          refine ⟨String.ofList front, String.ofList back, ?_, ?_, ?_⟩
          · rw [← String.ofList_append, ← String.ofList_append, ← hs, String.ofList_toList]
          · rw [utf8ByteSize_ofList, ← hstart, Nat.zero_add]
          · rw [String.utf8ByteSize_append, utf8ByteSize_ofList, utf8ByteSize_ofList, ← hstop, ← hstart,
              Nat.zero_add]
        refine ⟨⟨_, hslice⟩, fun x hx => ?_⟩
        rw [hx.eq hslice, scan, String.toList_ofList, hscan, utf8ByteSize_ofList]
  | error e =>
      obtain ⟨front, hs, hposition, ⟨located, hscan⟩, hne, hnone⟩ := exists_front_of_scanFrom_error h
      refine ⟨String.ofList front, String.ofList e.rest, ?_, ?_, ⟨located, ?_⟩, ?_, ?_⟩
      · rw [← String.ofList_append, ← hs, String.ofList_toList]
      · rw [utf8ByteSize_ofList, ← hposition, Nat.zero_add]
      · rw [scan, String.toList_ofList, hscan]
      · exact fun hempty => hne (by simpa using hempty)
      · rwa [String.toList_ofList]

end Token

end ErrorAnalysis
