import ErrorAnalysis.Block.Json
import ErrorAnalysis.Proofs.Json.Numerals
import ErrorAnalysis.Proofs.Json.Texts
import ErrorAnalysis.Proofs.Json.Trees

/-!
# Reading back what was Written

A value is read back from its text, without blanks or over several lines. The two texts differ in the
blanks between their parts only, and the reader passes over blanks, so both are instances of one layout.
The text of a value is read in front of any other text, so that the texts of items and of fields can be
read one after the other. Each step of the reader takes at least one character, so the length of a text
is fuel enough for it. The reader goes so many levels deep, and finds a value cut off there.

## Main definitions

* `Json.Layout`: the blanks between the parts of a value.
* `Json.IsWritable`: values each part of which has a text that is read as that part.

## Main results

* `Json.IsWritable.readsBack`: a value is read back in front of any text that no number goes on into.
* `Json.parse?_compact`, `Json.parse?_pretty`: **a value is read back from its text up to the depth of
  the reader.**
* `Definition.importText?_exportText`: **definitions are read back from what they were exported to.**
-/

namespace ErrorAnalysis

namespace Json

/-! ### Layouts -/

/-- The blanks between the parts of a value. -/
structure Layout where
  /-- What stands in front of an item or field at a level, and in front of a closing bracket. -/
  newline : ℕ → List Char
  /-- What stands behind a colon. -/
  gap : List Char
  isSpace_newline : ∀ level, ∀ c ∈ newline level, isSpace c = true
  isSpace_gap : ∀ c ∈ gap, isSpace c = true

namespace Layout

mutual

/-- The characters of a value at a level of nesting. -/
def chars (l : Layout) (level : ℕ) : Json → List Char
  | .null | .unreadable => ['n', 'u', 'l', 'l']
  | .bool true => ['t', 'r', 'u', 'e']
  | .bool false => ['f', 'a', 'l', 's', 'e']
  | .int i => integerText i
  | .float x => floatText x
  | .str s => quote s
  | .arr [] => ['[', ']']
  | .arr (item :: items) =>
    '[' :: (l.newline (level + 1) ++ (l.chars (level + 1) item ++ l.items level items))
  | .obj [] => ['\x7b', '\x7d']
  | .obj ((name, value) :: fields) =>
    '\x7b' :: (l.newline (level + 1) ++ (quote name ++ ':' ::
      (l.gap ++ (l.chars (level + 1) value ++ l.fields level fields))))

/-- The items after the first, and the closing bracket at `level`. -/
def items (l : Layout) (level : ℕ) : List Json → List Char
  | [] => l.newline level ++ [']']
  | item :: items =>
    ',' :: (l.newline (level + 1) ++ (l.chars (level + 1) item ++ l.items level items))

/-- The fields after the first, and the closing brace at `level`. -/
def fields (l : Layout) (level : ℕ) : List (String × Json) → List Char
  | [] => l.newline level ++ ['\x7d']
  | (name, value) :: fields =>
    ',' :: (l.newline (level + 1) ++ (quote name ++ ':' ::
      (l.gap ++ (l.chars (level + 1) value ++ l.fields level fields))))

end

/-- No blanks at all. -/
def compact : Layout where
  newline _ := []
  gap := []
  isSpace_newline := by simp
  isSpace_gap := by simp

/-- A line for each item and field. -/
def pretty : Layout where
  newline := Json.newline
  gap := [' ']
  isSpace_newline := by
    intro level c hc
    rcases List.mem_cons.mp hc with rfl | hspace
    · rfl
    · rw [List.eq_of_mem_replicate hspace]
      rfl
  isSpace_gap := by simp [isSpace]

mutual

theorem chars_compact (level : ℕ) : ∀ j, compact.chars level j = compactChars j
  | .null | .unreadable | .bool true | .bool false | .int _ | .float _ | .str _ | .arr [] | .obj [] => by
      rw [chars, compactChars]
  | .arr (item :: items) => by
      rw [chars, compactChars, chars_compact (level + 1) item, items_compact level items]
      rfl
  | .obj ((name, value) :: fields) => by
      rw [chars, compactChars, chars_compact (level + 1) value, fields_compact level fields]
      rfl

theorem items_compact (level : ℕ) : ∀ js, compact.items level js = compactItems js
  | [] => rfl
  | item :: items => by
      rw [Layout.items, compactItems, chars_compact (level + 1) item, items_compact level items]
      rfl

theorem fields_compact (level : ℕ) : ∀ fs, compact.fields level fs = compactFields fs
  | [] => rfl
  | (name, value) :: fields => by
      rw [Layout.fields, compactFields, chars_compact (level + 1) value, fields_compact level fields]
      rfl

end

mutual

theorem chars_pretty (level : ℕ) : ∀ j, pretty.chars level j = prettyChars level j
  | .null | .unreadable | .bool true | .bool false | .int _ | .float _ | .str _ | .arr [] | .obj [] => by
      rw [chars, prettyChars]
  | .arr (item :: items) => by
      rw [chars, prettyChars, chars_pretty (level + 1) item, items_pretty level items,
        List.append_assoc]
      rfl
  | .obj ((name, value) :: fields) => by
      rw [chars, prettyChars, chars_pretty (level + 1) value, fields_pretty level fields,
        List.append_assoc]
      rfl

theorem items_pretty (level : ℕ) : ∀ js, pretty.items level js = prettyItems level js
  | [] => rfl
  | item :: items => by
      rw [Layout.items, prettyItems, chars_pretty (level + 1) item, items_pretty level items,
        List.append_assoc]
      rfl

theorem fields_pretty (level : ℕ) : ∀ fs, pretty.fields level fs = prettyFields level fs
  | [] => rfl
  | (name, value) :: fields => by
      rw [Layout.fields, prettyFields, chars_pretty (level + 1) value, fields_pretty level fields,
        List.append_assoc]
      rfl

end

end Layout

/-! ### Blanks -/

section Blanks

variable {l : Layout} {fuel depth level : ℕ} {spaces cs : List Char}

theorem skipSpaces_append (h : ∀ c ∈ spaces, isSpace c = true) :
    skipSpaces (spaces ++ cs) = skipSpaces cs := by
  rw [skipSpaces, skipSpaces, List.dropWhile_append_of_pos h]

theorem skipSpaces_cons {c : Char} (h : isSpace c = false) : skipSpaces (c :: cs) = c :: cs :=
  List.dropWhile_cons_of_neg (Bool.eq_false_iff.mp h)

/-- Blanks in front of a value are passed over. -/
theorem readValue?_append (h : ∀ c ∈ spaces, isSpace c = true) :
    readValue? fuel depth (spaces ++ cs) = readValue? fuel depth cs := by
  cases fuel with
  | zero => rfl
  | succ fuel => rw [readValue?, readValue?, skipSpaces_append h]

theorem readItems?_append (h : ∀ c ∈ spaces, isSpace c = true) :
    readItems? fuel depth (spaces ++ cs) = readItems? fuel depth cs := by
  cases fuel with
  | zero => rfl
  | succ fuel => rw [readItems?, readItems?, readValue?_append h]

theorem readFields?_append (h : ∀ c ∈ spaces, isSpace c = true) :
    readFields? fuel depth (spaces ++ cs) = readFields? fuel depth cs := by
  cases fuel with
  | zero => rfl
  | succ fuel => rw [readFields?, readFields?, skipSpaces_append h]

/-- No number goes on into what follows an item. -/
theorem endsNumber_items (items : List Json) (rest : List Char) :
    EndsNumber (l.items level items ++ rest) := by
  cases items with
  | nil =>
      rw [Layout.items, List.append_assoc]
      exact (endsNumber_cons _ (by decide)).append (l.isSpace_newline level)
  | cons item items =>
      rw [Layout.items]
      exact endsNumber_cons _ (by decide)

/-- No number goes on into what follows the value of a field. -/
theorem endsNumber_fields (fields : List (String × Json)) (rest : List Char) :
    EndsNumber (l.fields level fields ++ rest) := by
  cases fields with
  | nil =>
      rw [Layout.fields, List.append_assoc]
      exact (endsNumber_cons _ (by decide)).append (l.isSpace_newline level)
  | cons field fields =>
      rw [Layout.fields]
      exact endsNumber_cons _ (by decide)

end Blanks

/-! ### Values -/

/-- A value each part of which has a text that is read as that part: integers fit into 64 bits, and
the other numbers are finite and read back from their texts. -/
inductive IsWritable : Json → Prop
  | null : IsWritable .null
  | bool (b : Bool) : IsWritable (.bool b)
  | int {i : ℤ} (h : Fits i) : IsWritable (.int i)
  | float {x : Number} (hfinite : x.isFinite = true)
      (hback : parse? (ofNumber x).compact = some (ofNumber x)) : IsWritable (.float x)
  | str (s : String) : IsWritable (.str s)
  | arr {items : List Json} (h : ∀ item ∈ items, IsWritable item) : IsWritable (.arr items)
  | obj {fields : List (String × Json)} (h : ∀ field ∈ fields, IsWritable field.2) :
      IsWritable (.obj fields)

/-- The text of a value is read as the value, cut off at a depth, whatever follows it. -/
def ReadsBack (l : Layout) (level : ℕ) (j : Json) : Prop :=
  ∀ fuel depth rest, EndsNumber rest → (l.chars level j).length ≤ fuel →
    readValue? fuel depth (l.chars level j ++ rest) = some (cut depth j, rest)

variable {l : Layout} {depth level fuel : ℕ} {j item value : Json} {items : List Json} {name : String}
  {fields : List (String × Json)} {rest : List Char}

/-- The text of a value opens with no blank, and does not close an array. -/
theorem IsWritable.opens (h : IsWritable j) (l : Layout) (level : ℕ) :
    ∃ c cs, l.chars level j = c :: cs ∧ isSpace c = false ∧ c ≠ ']' := by
  have hnumber {cs : List Char} (htext : IsNumberText cs) :
      ∃ c tail, cs = c :: tail ∧ isSpace c = false ∧ c ≠ ']' := by
    obtain ⟨c, tail, rfl, hc⟩ := htext.opens
    refine ⟨c, tail, rfl, htext.isSpace_eq_false c List.mem_cons_self, ?_⟩
    rintro rfl
    rcases hc with hc | hc <;> exact absurd hc (by decide)
  cases h with
  | null => exact ⟨_, _, rfl, rfl, by decide⟩
  | bool b => cases b <;> exact ⟨_, _, rfl, rfl, by decide⟩
  | int => exact hnumber (isNumberText_integerText _)
  | float hfinite => exact hnumber (isNumberText_floatText hfinite)
  | str => exact ⟨_, _, rfl, rfl, by decide⟩
  | @arr items _ => cases items <;> exact ⟨_, _, rfl, rfl, by decide⟩
  | @obj fields _ => cases fields <;> exact ⟨_, _, rfl, rfl, by decide⟩

/-- Items that are read back each are read back one after the other. -/
theorem readItems?_chars (h : ∀ j ∈ item :: items, ReadsBack l (level + 1) j)
    (hfuel : (l.chars (level + 1) item ++ l.items level items).length ≤ fuel) (rest : List Char) :
    readItems? fuel depth (l.chars (level + 1) item ++ (l.items level items ++ rest)) =
      some ((item :: items).map (cut depth), rest) := by
  induction items generalizing item fuel with
  | nil =>
      rw [Layout.items, List.length_append, List.length_append, List.length_singleton] at hfuel
      obtain ⟨fuel, rfl⟩ : ∃ k, fuel = k + 1 := ⟨fuel - 1, by omega⟩
      rw [readItems?, h item List.mem_cons_self fuel _ _ (endsNumber_items [] rest) (by omega),
        Layout.items, List.append_assoc]
      simp only [Option.bind_eq_bind, Option.bind_some, skipSpaces_append (l.isSpace_newline level)]
      rfl
  | cons next items ih =>
      obtain ⟨hitem, hrest⟩ := List.forall_mem_cons.mp h
      have hends : EndsNumber (l.items level (next :: items) ++ rest) := endsNumber_items _ _
      rw [Layout.items] at hfuel hends ⊢
      simp only [List.length_append, List.length_cons] at hfuel
      obtain ⟨fuel, rfl⟩ : ∃ k, fuel = k + 1 := ⟨fuel - 1, by omega⟩
      have hnext := ih hrest (by rw [List.length_append]; omega : _ ≤ fuel)
      rw [readItems?, hitem fuel _ _ hends (by omega), List.cons_append, List.append_assoc,
        List.append_assoc]
      simp only [Option.bind_eq_bind, Option.bind_some, skipSpaces_cons (by rfl : isSpace ',' = false),
        readItems?_append (l.isSpace_newline (level + 1)), hnext]
      rfl

/-- A field whose value is read back is the last one in front of a brace, and is followed by others in
front of a comma. -/
theorem readFields?_field (name : String) (hvalue : ReadsBack l (level + 1) value)
    (hfuel : (l.chars (level + 1) value).length ≤ fuel) (hends : EndsNumber rest)
    {rest' : List Char} :
    (skipSpaces rest = '\x7d' :: rest' →
      readFields? (fuel + 1) depth
          (quote name ++ ':' :: (l.gap ++ (l.chars (level + 1) value ++ rest))) =
        some ([(some name, cut depth value)], rest')) ∧
    (skipSpaces rest = ',' :: rest' →
      readFields? (fuel + 1) depth
          (quote name ++ ':' :: (l.gap ++ (l.chars (level + 1) value ++ rest))) =
        (readFields? fuel depth rest').map fun p => ((some name, cut depth value) :: p.1, p.2)) := by
  have hgap : readValue? fuel depth (l.gap ++ (l.chars (level + 1) value ++ rest)) =
      some (cut depth value, rest) := by
    rw [readValue?_append l.isSpace_gap, hvalue fuel depth rest hends hfuel]
  rw [readFields?, quote, List.cons_append, skipSpaces_cons (by rfl), List.append_assoc,
    List.singleton_append]
  simp only [Option.bind_eq_bind, Option.bind_some, readString?_quote, hgap,
    skipSpaces_cons (by rfl : isSpace ':' = false)]
  constructor <;> intro hskip <;> simp only [hskip]
  · rfl
  · cases readFields? fuel depth rest' <;> rfl

/-- Fields whose values are read back each are read back one after the other. -/
theorem readFields?_chars
    (h : ∀ field ∈ (name, value) :: fields, ReadsBack l (level + 1) field.2)
    (hfuel : (l.chars (level + 1) value ++ l.fields level fields).length ≤ fuel)
    (rest : List Char) :
    readFields? fuel depth (quote name ++
        ':' :: (l.gap ++ (l.chars (level + 1) value ++ (l.fields level fields ++ rest)))) =
      some (((name, value) :: fields).map (Prod.map some (cut depth)), rest) := by
  induction fields generalizing name value fuel with
  | nil =>
      rw [Layout.fields, List.length_append, List.length_append, List.length_singleton] at hfuel
      obtain ⟨fuel, rfl⟩ : ∃ k, fuel = k + 1 := ⟨fuel - 1, by omega⟩
      refine (readFields?_field name (h _ List.mem_cons_self) (by dsimp only; omega)
        (endsNumber_fields [] rest)).1 ?_
      rw [Layout.fields, List.append_assoc, skipSpaces_append (l.isSpace_newline level)]
      rfl
  | cons next fields ih =>
      obtain ⟨hvalue, hrest⟩ := List.forall_mem_cons.mp h
      obtain ⟨name', value'⟩ := next
      have hends : EndsNumber (l.fields level ((name', value') :: fields) ++ rest) :=
        endsNumber_fields _ _
      rw [Layout.fields] at hfuel hends ⊢
      simp only [List.length_append, List.length_cons] at hfuel
      obtain ⟨fuel, rfl⟩ : ∃ k, fuel = k + 1 := ⟨fuel - 1, by omega⟩
      have hnext := ih hrest (by rw [List.length_append]; omega : _ ≤ fuel)
      rw [List.cons_append] at hends ⊢
      refine ((readFields?_field name hvalue (by dsimp only; omega) hends).2
        (skipSpaces_cons (by rfl))).trans ?_
      simp only [List.append_assoc, List.cons_append,
        readFields?_append (l.isSpace_newline (level + 1)), hnext]
      rfl

theorem ofFields_map : ofFields (fields.map (Prod.map some (cut depth))) =
    .obj (fields.map (Prod.map id (cut depth))) := by
  have hmap : fields.map (Prod.map some (cut depth)) =
      (fields.map (Prod.map id (cut depth))).map (Prod.map some id) := by
    rw [List.map_map]
    rfl
  have hread : (fields.map (Prod.map some (cut depth))).mapM
      (fun f : Option String × Json => f.1.map (·, f.2)) =
        some (fields.map (Prod.map id (cut depth))) := by
    rw [hmap]
    exact mapM_map_eq_some fun _ _ => rfl
  rw [ofFields, hread]

/-- The text of a value is not empty, so that there is fuel for a first step. -/
theorem IsWritable.readsBack_of_succ (h : IsWritable j)
    (hstep : ∀ fuel depth rest, EndsNumber rest → (l.chars level j).length ≤ fuel + 1 →
      readValue? (fuel + 1) depth (l.chars level j ++ rest) = some (cut depth j, rest)) :
    ReadsBack l level j := by
  intro fuel depth rest hends hfuel
  obtain ⟨c, cs, hopens, -, -⟩ := h.opens l level
  obtain ⟨fuel, rfl⟩ : ∃ k, fuel = k + 1 := by
    rw [hopens, List.length_cons] at hfuel
    exact ⟨fuel - 1, by omega⟩
  exact hstep fuel depth rest hends hfuel

theorem readsBack_arr (h : ∀ item ∈ items, IsWritable item)
    (hback : ∀ item ∈ items, ReadsBack l (level + 1) item) : ReadsBack l level (.arr items) := by
  refine (IsWritable.arr h).readsBack_of_succ fun fuel depth rest _ hfuel => ?_
  rw [cut_arr]
  cases items with
  | nil => rfl
  | cons item items =>
      obtain ⟨c, cs, hopens, hspace, hclose⟩ := (h item List.mem_cons_self).opens l (level + 1)
      rw [Layout.chars] at hfuel ⊢
      simp only [List.length_cons, List.length_append] at hfuel
      have hitems := @readItems?_chars l (depth - 1) level fuel item items hback
        (by rw [List.length_append]; omega) rest
      rw [List.cons_append, readValue?, skipSpaces_cons (by rfl), List.append_assoc,
        List.append_assoc]
      rw [hopens, List.cons_append] at hitems ⊢
      simp only [skipSpaces_append (l.isSpace_newline (level + 1)), skipSpaces_cons hspace]
      split
      · next heq => exact absurd (List.cons.inj heq).1 hclose
      · rw [hitems]
        rfl

theorem readsBack_obj (h : ∀ field ∈ fields, IsWritable field.2)
    (hback : ∀ field ∈ fields, ReadsBack l (level + 1) field.2) :
    ReadsBack l level (.obj fields) := by
  refine (IsWritable.obj h).readsBack_of_succ fun fuel depth rest _ hfuel => ?_
  rw [cut_obj]
  cases fields with
  | nil => rfl
  | cons field fields =>
      obtain ⟨name, value⟩ := field
      rw [Layout.chars] at hfuel ⊢
      simp only [List.length_cons, List.length_append] at hfuel
      have hfields := @readFields?_chars l (depth - 1) level fuel value name fields hback
        (by rw [List.length_append]; omega) rest
      rw [List.cons_append, readValue?, skipSpaces_cons (by rfl)]
      simp only [List.append_assoc, List.cons_append, skipSpaces_append (l.isSpace_newline (level + 1))]
      rw [quote, List.cons_append] at hfields ⊢
      simp only [skipSpaces_cons (by rfl : isSpace '"' = false)]
      split
      · next heq => exact absurd (List.cons.inj heq).1 (by decide)
      · rw [hfields]
        exact congrArg (fun j => some (atDepth depth j, rest))
          (@ofFields_map (depth - 1) ((name, value) :: fields))

/-- **A value is read back in front of any text that no number goes on into.** -/
theorem IsWritable.readsBack (h : IsWritable j) (l : Layout) (level : ℕ) : ReadsBack l level j := by
  induction h generalizing level with
  | null => exact IsWritable.null.readsBack_of_succ fun _ _ _ _ _ => rfl
  | bool b => exact (IsWritable.bool b).readsBack_of_succ fun _ _ _ _ _ => by cases b <;> rfl
  | int hfits =>
      refine (IsWritable.int hfits).readsBack_of_succ fun fuel depth rest hends _ => ?_
      rw [Layout.chars, readValue?_number (isNumberText_integerText _),
        readNumber?_integerText hfits hends]
      rfl
  | float hfinite hback =>
      refine (IsWritable.float hfinite hback).readsBack_of_succ fun fuel depth rest hends _ => ?_
      rw [Layout.chars, readValue?_number (isNumberText_floatText hfinite),
        readNumber?_floatText hfinite hback hends]
      rfl
  | str s =>
      refine (IsWritable.str s).readsBack_of_succ fun fuel depth rest _ _ => ?_
      rw [Layout.chars, quote, List.cons_append, readValue?, skipSpaces_cons (by rfl),
        List.append_assoc, List.singleton_append]
      simp only [readString?_quote, Option.bind_eq_bind, Option.bind_some]
      rfl
  | arr h ih => exact readsBack_arr h fun item hitem => ih item hitem (level + 1)
  | obj h ih => exact readsBack_obj h fun field hfield => ih field hfield (level + 1)

/-- A value is read back from its text in any layout, cut off at the depth of the reader. -/
theorem parse?_chars (h : IsWritable j) (l : Layout) :
    parse? (String.ofList (l.chars 0 j)) = some (cut maxDepth j) := by
  have hread := h.readsBack l 0 (2 * (l.chars 0 j).length + 2) maxDepth [] endsNumber_nil (by omega)
  rw [List.append_nil] at hread
  rw [parse?, String.toList_ofList]
  simp only [Option.bind_eq_bind, hread, Option.bind_some]
  rfl

/-- **A value is read back from its text without blanks, up to the depth of the reader.** -/
theorem parse?_compact (h : IsWritable j) : parse? j.compact = some (cut maxDepth j) := by
  rw [← parse?_chars h .compact, Layout.chars_compact, compact]

/-- **A value is read back from its text over several lines, up to the depth of the reader.** -/
theorem parse?_pretty (h : IsWritable j) : parse? j.pretty = some (cut maxDepth j) := by
  rw [← parse?_chars h .pretty, Layout.chars_pretty, pretty]

end Json

/-! ### Definitions -/

namespace Definition

theorem ofJson?_toJson (source : Definition) : ofJson? source.toJson = some source := rfl

theorem isWritable_toJson (source : Definition) : source.toJson.IsWritable := by
  refine .obj fun field hfield => ?_
  simp only [List.mem_cons, List.not_mem_nil, or_false] at hfield
  rcases hfield with rfl | rfl | rfl <;> exact .str _

/-- **Definitions are read back from what they were exported to.** -/
theorem importText?_exportText (sources : List Definition) :
    importText? (exportText sources) = some sources := by
  have hwritable : (Json.arr (sources.map toJson)).IsWritable :=
    .arr (List.forall_mem_map.mpr fun source _ => isWritable_toJson source)
  have hnesting : (Json.arr (sources.map toJson)).nesting ≤ Json.maxDepth := by
    -- An array of objects of texts takes up two levels only.
    have hone (source : Definition) : source.toJson.nesting ≤ 126 := (by decide : 1 ≤ 126)
    exact Json.nesting_arr_le.mpr (List.forall_mem_map.mpr fun source _ => hone source)
  have hread : (sources.map toJson).mapM ofJson? = some sources :=
    Json.mapM_map_eq_some fun source _ => ofJson?_toJson source
  rw [importText?, exportText, Json.parse?_pretty hwritable, Json.cut_eq_self hnesting,
    Option.bind_some, Json.array?, hread]

end Definition

end ErrorAnalysis
