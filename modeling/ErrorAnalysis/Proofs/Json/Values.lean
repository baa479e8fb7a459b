import ErrorAnalysis.Proofs.Data.Maps
import ErrorAnalysis.Proofs.Json.RoundTrip
import ErrorAnalysis.Value.Json

/-!
# Reading back Values

Values are written without a mark of their kind, and yet no kind is mistaken for another: a document has
words, a label has none but has a model, and a key has neither. A value is read back kind by kind, its
metadata first. Its text is read back as well if it is not nested deeper than the reader of texts goes;
a text that is nested deeper is not read at all.

## Main definitions

* `Value.IsWellFormed`: the values that there are.
* `Value.HasNumber`: the numbers in a value.

## Main results

* `Value.isReadable_of_ofJson?`: what is read as a value denotes something in every part.
* `Value.ofJson?_toJson`: **values of finite numbers are read back from JSON.**
* `Value.readBack`: **they are read back from their texts iff the reader goes deep enough.**
-/

namespace ErrorAnalysis

/-! ### Values and their numbers -/

namespace Value

/-- The values that there are: positions in documents have 64 bits and the numbers of variants 32, and
the names of metadata and of scores ascend. -/
inductive IsWellFormed : Value → Prop
  | null : IsWellFormed .null
  | bool (b : Bool) : IsWellFormed (.bool b)
  | num (x : Number) : IsWellFormed (.num x)
  | str (s : String) : IsWellFormed (.str s)
  | list {items : List Value} (h : ∀ v ∈ items, IsWellFormed v) : IsWellFormed (.list items)
  | doc {words : List Word} {offset : ℕ} {metas : List (String × Value)} (hoffset : offset < UInt64.size)
      (hsorted : Assoc.Sorted metas) (hmetas : ∀ e ∈ metas, IsWellFormed e.2) :
      IsWellFormed (.doc ⟨words, offset, metas⟩)
  | label {model text : String} {scores : List (String × Number)} {part : Option Document}
      {metas : List (String × Value)} (hscores : Assoc.Sorted scores) (hsorted : Assoc.Sorted metas)
      (hpart : ∀ d, part = some d → IsWellFormed (.doc d)) (hmetas : ∀ e ∈ metas, IsWellFormed e.2) :
      IsWellFormed (.label ⟨model, text, scores, part, metas⟩)
  | key {k : InstanceKey} (h : k.vid < vidBound) : IsWellFormed (.key k)

/-- The numbers in a value: itself, and those in its items, scores, metadata and part. -/
inductive HasNumber : Value → Number → Prop
  | num (x : Number) : HasNumber (.num x) x
  | item {items : List Value} {v : Value} {x : Number} (hmem : v ∈ items) (h : HasNumber v x) :
      HasNumber (.list items) x
  | documentMeta {d : Document} {e : String × Value} {x : Number} (hmem : e ∈ d.metas)
      (h : HasNumber e.2 x) : HasNumber (.doc d) x
  | score {l : Label} {e : String × Number} (hmem : e ∈ l.perform) : HasNumber (.label l) e.2
  | part {l : Label} {d : Document} {x : Number} (hpart : l.doc = some d) (h : HasNumber (.doc d) x) :
      HasNumber (.label l) x
  | labelMeta {l : Label} {e : String × Value} {x : Number} (hmem : e ∈ l.metas)
      (h : HasNumber e.2 x) : HasNumber (.label l) x

end Value

/-! ### Part by part -/

theorem Value.listToJson_eq_map (items : List Value) : listToJson items = items.map toJson := by
  induction items with
  | nil => rfl
  | cons v items ih => rw [listToJson, ih, List.map_cons]

theorem Value.metasToJson_eq_map (metas : List (String × Value)) :
    metasToJson metas = metas.map (Prod.map id toJson) := by
  induction metas with
  | nil => rfl
  | cons e metas ih => rw [metasToJson, ih, List.map_cons, Prod.map, id]

namespace Reading

theorem ofItems_eq_map (items : List Json) : ofItems items = items.map ofJson := by
  induction items with
  | nil => rfl
  | cons j items ih => rw [ofItems, ih, List.map_cons]

theorem ofFields_eq_map (fields : List (String × Json)) :
    ofFields fields = fields.map (Prod.map id ofJson) := by
  induction fields with
  | nil => rfl
  | cons f fields ih => rw [ofFields, ih, List.map_cons, Prod.map, id]

theorem json_ofJson (j : Json) : (ofJson j).json = j := by
  cases j <;> rfl

/-! ### Kinds of records -/

section Handle

variable {json : Json} {fields? : List String → Option (List (Option Reading))} {d : Document}
  {l : Label} {k : InstanceKey}

theorem handle?_document (hreadable : json.isReadable = true)
    (hdoc : (fields? documentFields).bind documentOfFields? = some d) :
    handle? json fields? = some (.doc d) := by
  rw [handle?, if_pos hreadable, hdoc]
  rfl

theorem handle?_label (hreadable : json.isReadable = true)
    (hdoc : (fields? documentFields).bind documentOfFields? = none)
    (hlabel : (fields? labelFields).bind labelOfFields? = some l) :
    handle? json fields? = some (.label l) := by
  rw [handle?, if_pos hreadable, hdoc, hlabel]
  rfl

theorem handle?_key (hreadable : json.isReadable = true)
    (hdoc : (fields? documentFields).bind documentOfFields? = none)
    (hlabel : (fields? labelFields).bind labelOfFields? = none)
    (hkey : ((fields? InstanceKey.fieldNames).bind fun fields =>
      InstanceKey.ofFields? (fields.map (·.map (·.json)))) = some k) :
    handle? json fields? = some (.key k) := by
  rw [handle?, if_pos hreadable, hdoc, hlabel, hkey]
  rfl

theorem isReadable_of_handle? {v : Value} (h : handle? json fields? = some v) :
    json.isReadable = true := by
  rw [handle?] at h
  split at h
  · assumption
  · cases h

/-- A document is what its own record is read as. -/
theorem document_of_handle? (h : handle? json fields? = some (.doc d)) :
    (fields? documentFields).bind documentOfFields? = some d := by
  rw [handle?, if_pos (isReadable_of_handle? h)] at h
  cases hdoc : (fields? documentFields).bind documentOfFields? with
  | some d' =>
      rw [hdoc] at h
      obtain rfl : d' = d := by
        injection h with h
        injection h
      rfl
  | none =>
      rw [hdoc] at h
      cases hlabel : (fields? labelFields).bind labelOfFields? with
      | some l =>
          rw [hlabel] at h
          cases h
      | none =>
          rw [hlabel] at h
          obtain ⟨k, -, hk⟩ := Option.map_eq_some_iff.mp h
          cases hk

end Handle

end Reading

/-! ### What is read -/

/-- What is read as a value denotes something in every part. -/
theorem Value.isReadable_of_ofJson? {j : Json} {v : Value} (h : ofJson? j = some v) :
    j.isReadable = true := by
  induction j using Json.induction generalizing v with
  | unreadable => cases h
  | arr items ih =>
      rw [ofJson?, Reading.ofJson, Reading.ofArray] at h
      rcases (Option.orElse_eq_some _ _ _).mp h with hitems | ⟨-, hhandle⟩
      · obtain ⟨values, hvalues, -⟩ := Option.map_eq_some_iff.mp hitems
        rw [Reading.ofItems_eq_map] at hvalues
        refine Json.isReadable_arr.mpr fun j hj => ?_
        obtain ⟨v, hv⟩ := Json.exists_of_mapM_eq_some hvalues _ (List.mem_map_of_mem hj)
        exact ih j hj hv
      · exact Reading.isReadable_of_handle? hhandle
  | obj fields ih => exact Reading.isReadable_of_handle? h
  | _ => rfl

/-- What is read as a document where any value may stand is read as one where a document has to. -/
theorem Document.ofJson?_of_value {j : Json} {d : Document} (h : Value.ofJson? j = some (.doc d)) :
    Document.ofJson? j = some d := by
  cases j with
  | arr items =>
      rw [Value.ofJson?, Reading.ofJson, Reading.ofArray] at h
      rcases (Option.orElse_eq_some _ _ _).mp h with hitems | ⟨-, hhandle⟩
      · obtain ⟨values, -, hlist⟩ := Option.map_eq_some_iff.mp hitems
        cases hlist
      · exact Reading.document_of_handle? hhandle
  | obj fields => exact Reading.document_of_handle? h
  | _ => cases h

/-! ### What is read back -/

theorem Word.ofJson?_toJson (w : Word) : ofJson? w.toJson = some w := rfl

theorem Word.isReadable_toJson (w : Word) : w.toJson.isReadable = true := rfl

theorem Word.isWritable_toJson (w : Word) : w.toJson.IsWritable := by
  refine .obj fun field hfield => ?_
  simp only [List.mem_cons, List.not_mem_nil, or_false] at hfield
  rcases hfield with rfl | rfl | rfl | rfl | rfl | rfl | rfl | rfl | rfl | rfl
  all_goals first
    | exact .str _
    | exact .bool _

namespace Json

theorem required?_some {α β : Type} (read : α → Option β) (field : α) :
    required? read (some field) = read field := rfl

theorem orDefault?_some {α β : Type} (default : β) (read : α → Option β) (field : α) :
    orDefault? default read (some field) = read field := rfl

theorem natBelow?_ofNat {n bound : ℕ} (h : n < bound) : natBelow? bound (.ofNat n) = some n := by
  rw [ofNat, natBelow?, if_pos ⟨Int.natCast_nonneg n, Int.ofNat_lt.mpr h⟩]
  rfl

theorem fits_ofNat {n : ℕ} (h : n < UInt64.size) : Fits n := by
  have hsign : (0 : ℤ) ≤ Number.signBit := Int.natCast_nonneg _
  exact ⟨by omega, Int.ofNat_lt.mpr h⟩

theorem ofNumber_of_isFinite {x : Number} (h : x.isFinite = true) : ofNumber x = .float x :=
  if_pos h

theorem scores?_scoresToJson {scores : List (String × Number)} (hsorted : Assoc.Sorted scores)
    (hfinite : ∀ e ∈ scores, e.2.isFinite = true) :
    Reading.scores? (scoresToJson scores) = some scores := by
  have hentries : entries? number? (scoresToJson scores) = some scores := by
    refine mapM_map_eq_some fun e he => ?_
    dsimp only
    rw [ofNumber_of_isFinite (hfinite e he)]
    rfl
  rw [Reading.scores?, hentries, Option.map_some, Assoc.ofList_of_sorted hsorted]

end Json

namespace Value

variable {words : List Word} {offset : ℕ} {metas : List (String × Value)} {items : List Value}
  {model text : String} {scores : List (String × Number)} {part : Option Document} {k : InstanceKey}

theorem ofJson?_list (h : ∀ v ∈ items, ofJson? v.toJson = some v) :
    ofJson? (toJson (.list items)) = some (.list items) := by
  have hitems : (Reading.ofItems (listToJson items)).mapM Reading.value? = some items := by
    rw [listToJson_eq_map, Reading.ofItems_eq_map, List.map_map]
    exact Json.mapM_map_eq_some h
  rw [ofJson?, toJson, Reading.ofJson, Reading.ofArray, hitems]
  rfl

/-- A document that may be absent is read back if it is where any value may stand. -/
theorem documentOrNull?_optionToJson (h : ∀ d, part = some d → ofJson? (toJson (.doc d)) = some (.doc d)) :
    Reading.documentOrNull? (Reading.ofJson (Document.optionToJson part)) = some part := by
  cases part with
  | none => rfl
  | some d =>
      have hd : (Reading.ofJson (Document.toJson d)).document? = some d :=
        Document.ofJson?_of_value (h d rfl)
      have hnull : (Reading.ofJson (Document.toJson d)).json ≠ .null := by
        obtain ⟨words, offset, metas⟩ := d
        rw [Reading.json_ofJson, Document.toJson]
        exact Json.noConfusion
      rw [Reading.documentOrNull?, Document.optionToJson, hd]
      split
      · next hjson => exact absurd hjson hnull
      · rfl

section Metadata

variable (hmetas : ∀ e ∈ metas, ofJson? e.2.toJson = some e.2)

include hmetas

/-- Metadata that are read back one by one are read back. -/
theorem metas?_metasToJson (hsorted : Assoc.Sorted metas) :
    (Reading.ofJson (.obj (metasToJson metas))).metas? = some metas := by
  have hread : (Reading.ofFields (metasToJson metas)).mapM
      (fun f : String × Reading => f.2.value?.map (f.1, ·)) = some metas := by
    rw [metasToJson_eq_map, Reading.ofFields_eq_map, List.map_map]
    refine Json.mapM_map_eq_some fun e he => ?_
    exact congrArg (Option.map (e.1, ·)) (hmetas e he)
  rw [Reading.ofJson, Reading.ofObject, hread]
  exact congrArg some (Assoc.ofList_of_sorted hsorted)

theorem isReadable_metasToJson : (Json.obj (metasToJson metas)).isReadable = true := by
  rw [Json.isReadable_obj, metasToJson_eq_map]
  exact List.forall_mem_map.mpr fun e he => isReadable_of_ofJson? (hmetas e he)

theorem isReadable_documentToJson : (Document.toJson ⟨words, offset, metas⟩).isReadable = true := by
  have hwords : (Json.arr (words.map Word.toJson)).isReadable = true :=
    Json.isReadable_arr.mpr (List.forall_mem_map.mpr fun w _ => w.isReadable_toJson)
  rw [Document.toJson, Json.isReadable_obj]
  simp only [List.forall_mem_cons, hwords, isReadable_metasToJson hmetas, List.not_mem_nil,
    false_imp_iff, implies_true, and_true, true_and]
  rfl

theorem isReadable_labelToJson (hfinite : ∀ e ∈ scores, e.2.isFinite = true)
    (hpart : ∀ d, part = some d → ofJson? (toJson (.doc d)) = some (.doc d)) :
    (Label.toJson ⟨model, text, scores, part, metas⟩).isReadable = true := by
  have hscore : (scoresToJson scores).isReadable = true := by
    refine Json.isReadable_obj.mpr (List.forall_mem_map.mpr fun e he => ?_)
    dsimp only
    rw [Json.ofNumber_of_isFinite (hfinite e he)]
    rfl
  have hdoc : (Document.optionToJson part).isReadable = true := by
    cases part with
    | none => rfl
    | some d => exact isReadable_of_ofJson? (hpart d rfl)
  rw [Label.toJson, Json.isReadable_obj]
  simp only [List.forall_mem_cons, hscore, hdoc, isReadable_metasToJson hmetas, List.not_mem_nil,
    false_imp_iff, implies_true, and_true]
  exact ⟨rfl, rfl⟩

theorem ofJson?_doc (hoffset : offset < UInt64.size) (hsorted : Assoc.Sorted metas) :
    ofJson? (toJson (.doc ⟨words, offset, metas⟩)) = some (.doc ⟨words, offset, metas⟩) := by
  have hwords : Json.array? Word.ofJson? (.arr (words.map Word.toJson)) = some words :=
    Json.mapM_map_eq_some fun w _ => w.ofJson?_toJson
  refine Reading.handle?_document (isReadable_documentToJson hmetas) ?_
  change Reading.documentOfFields? [some (Reading.ofJson (.arr (words.map Word.toJson))),
    some (Reading.ofJson (.ofNat offset)), some (Reading.ofJson (.obj (metasToJson metas)))] = _
  rw [Reading.documentOfFields?, Json.required?_some, Json.orDefault?_some, Json.orDefault?_some,
    Reading.json_ofJson, hwords, Reading.json_ofJson, Json.nat?, Json.natBelow?_ofNat hoffset,
    metas?_metasToJson hmetas hsorted]
  rfl

theorem ofJson?_label (hscores : Assoc.Sorted scores) (hsorted : Assoc.Sorted metas)
    (hfinite : ∀ e ∈ scores, e.2.isFinite = true)
    (hpart : ∀ d, part = some d → ofJson? (toJson (.doc d)) = some (.doc d)) :
    ofJson? (toJson (.label ⟨model, text, scores, part, metas⟩)) =
      some (.label ⟨model, text, scores, part, metas⟩) := by
  -- A label has no words, so it is not read as a document.
  refine Reading.handle?_label (isReadable_labelToJson hmetas hfinite hpart) rfl ?_
  change Reading.labelOfFields? [some (Reading.ofJson (.str model)), some (Reading.ofJson (.str text)),
    some (Reading.ofJson (scoresToJson scores)), some (Reading.ofJson (Document.optionToJson part)),
    some (Reading.ofJson (.obj (metasToJson metas)))] = _
  rw [Reading.labelOfFields?, Json.required?_some, Json.required?_some, Json.orDefault?_some,
    Json.orDefault?_some, Json.orDefault?_some, Reading.json_ofJson, Reading.json_ofJson,
    Reading.json_ofJson, Json.scores?_scoresToJson hscores hfinite,
    documentOrNull?_optionToJson hpart, metas?_metasToJson hmetas hsorted]
  rfl

end Metadata

theorem ofJson?_key (h : k.vid < vidBound) : ofJson? (toJson (.key k)) = some (.key k) := by
  have hfields : Json.byName? InstanceKey.fieldNames
      (Reading.ofFields [("qid", .str k.qid), ("vid", .ofNat k.vid)]) =
        some [some (Reading.ofJson (.str k.qid)), some (Reading.ofJson (.ofNat k.vid))] := rfl
  have hkey : InstanceKey.ofFields? [some (.str k.qid), some (.ofNat k.vid)] = some k := by
    rw [InstanceKey.ofFields?, Json.required?_some, Json.required?_some, Json.natBelow?_ofNat h]
    rfl
  rw [ofJson?, toJson, InstanceKey.toJson, Reading.ofJson, Reading.ofObject]
  dsimp only
  -- A key has neither words nor a model.
  refine Reading.handle?_key rfl rfl rfl ?_
  rw [hfields, Option.bind_some]
  exact hkey

/-- **Values of finite numbers are read back from JSON.** -/
theorem ofJson?_toJson {v : Value} (hv : v.IsWellFormed)
    (hfinite : ∀ x, v.HasNumber x → x.isFinite = true) : ofJson? v.toJson = some v := by
  induction hv with
  | null => rfl
  | bool b => rfl
  | num x =>
      rw [toJson, Json.ofNumber_of_isFinite (hfinite x (.num x))]
      rfl
  | str s => rfl
  | list h ih => exact ofJson?_list fun v hmem => ih v hmem fun x hx => hfinite x (.item hmem hx)
  | doc hoffset hsorted hmetas ih =>
      refine ofJson?_doc (fun e hmem => ?_) hoffset hsorted
      exact ih e hmem fun x hx => hfinite x (.documentMeta hmem hx)
  | label hscores hsorted hpart hmetas ihpart ihmetas =>
      refine ofJson?_label (fun e hmem => ?_) hscores hsorted (fun e hmem => ?_) fun d hd => ?_
      · exact ihmetas e hmem fun x hx => hfinite x (.labelMeta hmem hx)
      · exact hfinite e.2 (.score hmem)
      · exact ihpart d hd fun x hx => hfinite x (.part hd hx)
  | key h => exact ofJson?_key h

/-! ### Texts -/

theorem isWritable_metasToJson (h : ∀ e ∈ metas, e.2.toJson.IsWritable) :
    (Json.obj (metasToJson metas)).IsWritable := by
  rw [metasToJson_eq_map]
  exact .obj (List.forall_mem_map.mpr h)

/-- Every part of a value has a text that is read as that part if the numbers do. -/
theorem isWritable_toJson {v : Value} (hv : v.IsWellFormed)
    (hnumber : ∀ x, v.HasNumber x → (Json.ofNumber x).IsWritable) : v.toJson.IsWritable := by
  induction hv with
  | null => exact .null
  | bool b => exact .bool b
  | num x => exact hnumber x (.num x)
  | str s => exact .str s
  | list h ih =>
      rw [toJson, listToJson_eq_map]
      exact .arr (List.forall_mem_map.mpr fun v hmem =>
        ih v hmem fun x hx => hnumber x (.item hmem hx))
  | @doc words offset metas hoffset hsorted hmetas ih =>
      have hwords : (Json.arr (words.map Word.toJson)).IsWritable :=
        .arr (List.forall_mem_map.mpr fun w _ => w.isWritable_toJson)
      have hmetas : (Json.obj (metasToJson metas)).IsWritable :=
        isWritable_metasToJson fun e hmem => ih e hmem fun x hx => hnumber x (.documentMeta hmem hx)
      rw [toJson, Document.toJson]
      refine .obj (List.forall_mem_cons.mpr ⟨hwords, List.forall_mem_cons.mpr ⟨?_,
        List.forall_mem_singleton.mpr hmetas⟩⟩)
      exact .int (Json.fits_ofNat hoffset)
  | @label model text scores part metas hscores hsorted hpart hmetas ihpart ihmetas =>
      have hscores : (scoresToJson scores).IsWritable :=
        .obj (List.forall_mem_map.mpr fun e hmem => hnumber e.2 (.score hmem))
      have hdoc : (Document.optionToJson part).IsWritable := by
        cases part with
        | none => exact .null
        | some d => exact ihpart d rfl fun x hx => hnumber x (.part rfl hx)
      have hmetas : (Json.obj (metasToJson metas)).IsWritable :=
        isWritable_metasToJson fun e hmem => ihmetas e hmem fun x hx =>
          hnumber x (.labelMeta hmem hx)
      rw [toJson, Label.toJson]
      exact .obj (List.forall_mem_cons.mpr ⟨.str model, List.forall_mem_cons.mpr ⟨.str text,
        List.forall_mem_cons.mpr ⟨hscores, List.forall_mem_cons.mpr ⟨hdoc,
          List.forall_mem_singleton.mpr hmetas⟩⟩⟩⟩)
  | @key k h =>
      rw [toJson, InstanceKey.toJson]
      exact .obj (List.forall_mem_cons.mpr ⟨.str k.qid, List.forall_mem_singleton.mpr
        (.int (Json.fits_ofNat (h.trans (by decide))))⟩)

/-- What is nested too deep is not read as a value. -/
theorem ofJson?_cut_eq_none {j : Json} {depth : ℕ} (h : depth < j.nesting) :
    ofJson? (Json.cut depth j) = none := by
  cases hread : ofJson? (Json.cut depth j) with
  | none => rfl
  | some v =>
      have hle := Json.nesting_le_of_isReadable_cut (isReadable_of_ofJson? hread)
      omega

/-- A value is read back from its text if the reader goes deep enough, and nothing is read otherwise. -/
theorem ofJson?_cut {v : Value} (depth : ℕ) (h : ofJson? v.toJson = some v) :
    ofJson? (Json.cut depth v.toJson) = if v.toJson.nesting ≤ depth then some v else none := by
  by_cases hdepth : v.toJson.nesting ≤ depth
  · rw [if_pos hdepth, Json.cut_eq_self hdepth, h]
  · rw [if_neg hdepth, ofJson?_cut_eq_none (not_le.mp hdepth)]

/-- **Values of finite numbers are read back from their texts iff the reader goes deep enough**; from a
deeper text nothing is read at all. They are read back from JSON whatever their depth. -/
theorem readBack {v : Value} (hv : v.IsWellFormed)
    (hfinite : ∀ x, v.HasNumber x → x.isFinite = true) :
    ofJson? v.toJson = some v ∧
      ((∀ x, v.HasNumber x → Json.parse? (Json.ofNumber x).compact = some (Json.ofNumber x)) →
        ∀ text ∈ [v.toJson.compact, v.toJson.pretty],
          (Json.parse? text).bind ofJson? =
            if v.toJson.nesting ≤ Json.maxDepth then some v else none) := by
  have hvalue := ofJson?_toJson hv hfinite
  refine ⟨hvalue, fun hback => ?_⟩
  have hwritable : v.toJson.IsWritable := by
    refine isWritable_toJson hv fun x hx => ?_
    have hnumber := hback x hx
    rw [Json.ofNumber_of_isFinite (hfinite x hx)]
    exact .float (hfinite x hx) hnumber
  simp only [List.forall_mem_cons, Json.parse?_compact hwritable, Json.parse?_pretty hwritable,
    Option.bind_some, ofJson?_cut Json.maxDepth hvalue, List.not_mem_nil, false_imp_iff, implies_true,
    and_true]

/-- The number of binary64 that is one half. -/
def half : Number := ⟨0x3FE0000000000000⟩

/-- An answer with a score, in its context and with metadata of its own. -/
def scoredAnswer : Value :=
  .label
    { model := "bidaf"
      text := "Paris"
      perform := [("f1", half)]
      doc := some ⟨[{ text := "Paris" }], 3, [("score", .list [.num half, .null])]⟩
      metas := [("origin", .key ⟨"q1", 1⟩)] }

theorem isWellFormed_scoredAnswer : scoredAnswer.IsWellFormed := by
  have hscore : (Value.list [.num half, .null]).IsWellFormed :=
    .list (List.forall_mem_cons.mpr ⟨.num half, List.forall_mem_singleton.mpr .null⟩)
  refine .label (List.pairwise_singleton _ _) (List.pairwise_singleton _ _) ?_
    (List.forall_mem_singleton.mpr (.key (by decide)))
  rintro d ⟨⟩
  exact .doc (by decide) (List.pairwise_singleton _ _) (List.forall_mem_singleton.mpr hscore)

theorem eq_half_of_hasNumber {x : Number} (h : scoredAnswer.HasNumber x) : x = half := by
  rcases h with _ | _ | _ | hscore | ⟨⟨⟩, hpart⟩ | ⟨hmeta, horigin⟩
  · rw [List.mem_singleton.mp hscore]
  · rcases hpart with _ | _ | ⟨hmeta, hlist⟩
    rw [List.mem_singleton.mp hmeta] at hlist
    rcases hlist with _ | ⟨hmem, hitem⟩
    rcases List.mem_cons.mp hmem with rfl | hnull
    · cases hitem
      rfl
    · rw [List.mem_singleton.mp hnull] at hitem
      cases hitem
  · rw [List.mem_singleton.mp hmeta] at horigin
    cases horigin

/-- One half is read back from its text, in which it is five divided by ten. -/
theorem parse?_half : Json.parse? (Json.ofNumber half).compact = some (Json.ofNumber half) := by
  have htext : (Json.ofNumber half).compact = "0.5" := by decide +kernel
  have hliteral : Json.parse? "0.5" = some (Json.Literal.value ⟨false, ['0'], some ['5'], none⟩) := rfl
  have hparts : Json.significand ['0'] ['5'] = (5, -1) := by decide +kernel
  have hscale : Json.scale? (Number.ofNat 5) (-1) = some half := by decide +kernel
  rw [htext, hliteral, Json.ofNumber_of_isFinite (by decide)]
  simp [Json.Literal.value, hparts, hscale]

/-- An answer with a score of one half is read back from its texts. -/
theorem readBack_scoredAnswer :
    ofJson? scoredAnswer.toJson = some scoredAnswer ∧
      ∀ text ∈ [scoredAnswer.toJson.compact, scoredAnswer.toJson.pretty],
        (Json.parse? text).bind ofJson? = some scoredAnswer := by
  have hread := readBack isWellFormed_scoredAnswer fun x hx => by
    rw [eq_half_of_hasNumber hx]
    decide
  have hback : ∀ x, scoredAnswer.HasNumber x →
      Json.parse? (Json.ofNumber x).compact = some (Json.ofNumber x) := fun x hx => by
    rw [eq_half_of_hasNumber hx]
    exact parse?_half
  refine ⟨hread.1, fun text htext => ?_⟩
  rw [hread.2 hback text htext, if_pos (by decide)]

/-- A list in a list and so on, `n` times around the empty list. -/
def nestedList : ℕ → Value
  | 0 => .list []
  | n + 1 => .list [nestedList n]

theorem isWellFormed_nestedList (n : ℕ) : (nestedList n).IsWellFormed := by
  induction n with
  | zero => exact .list (by simp)
  | succ n ih => exact .list (List.forall_mem_singleton.mpr ih)

theorem not_hasNumber_nestedList (n : ℕ) (x : Number) : ¬ (nestedList n).HasNumber x := by
  induction n with
  | zero =>
      rintro ⟨⟩
      contradiction
  | succ n ih =>
      rintro ⟨⟩
      next hmem h =>
        rw [List.mem_singleton.mp hmem] at h
        exact ih h

theorem nesting_nestedList (n : ℕ) : (nestedList n).toJson.nesting = n + 1 := by
  induction n with
  | zero => rfl
  | succ n ih =>
      rw [nestedList, toJson, listToJson, listToJson, Json.nesting, Json.itemsNesting,
        Json.itemsNesting, ih, Nat.max_zero]

/-- A list that goes one level deeper than the reader is not read back from its text, though it has no
numbers at all. -/
theorem nestedList_unread :
    (nestedList 127).IsWellFormed ∧ (∀ x, ¬ (nestedList 127).HasNumber x) ∧
      (Json.parse? (nestedList 127).toJson.compact).bind ofJson? = none := by
  refine ⟨isWellFormed_nestedList 127, not_hasNumber_nestedList 127, ?_⟩
  have hwritable := isWritable_toJson (isWellFormed_nestedList 127) fun x hx =>
    absurd hx (not_hasNumber_nestedList 127 x)
  rw [Json.parse?_compact hwritable, Option.bind_some]
  exact ofJson?_cut_eq_none (by rw [nesting_nestedList]; decide)

end Value

end ErrorAnalysis
