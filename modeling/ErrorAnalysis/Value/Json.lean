import ErrorAnalysis.Document.WordJson
import ErrorAnalysis.Json.Number
import ErrorAnalysis.Value.Basic

/-!
# Values in JSON

Values are written without a mark of their kind. A reader takes the first kind that fits, in the
order null, truth value, number, text, list, document, label, key. Documents and labels hold
values in their metadata, so a JSON tree is read from the leaves up, and every node is read in
each way in which the node above it may need it.

## Main definitions

* `Value.toJson`: a value as JSON.
* `Reading`: the readings of one JSON value.
* `Value.ofJson?`, `Document.ofJson?`: a value or a document from JSON.
-/

namespace ErrorAnalysis

/-! ### Writing -/

/-- A key as JSON. -/
def InstanceKey.toJson (k : InstanceKey) : Json :=
  .obj [("qid", .str k.qid), ("vid", .ofNat k.vid)]

/-- Scores as JSON. -/
def scoresToJson (scores : List (String × Number)) : Json :=
  .obj (scores.map fun (metric, x) => (metric, Json.ofNumber x))

mutual

/-- A value as JSON. -/
def Value.toJson : Value → Json
  | .null => .null
  | .bool b => .bool b
  | .num x => Json.ofNumber x
  | .str s => .str s
  | .list items => .arr (Value.listToJson items)
  | .doc d => Document.toJson d
  | .label l => Label.toJson l
  | .key k => k.toJson

/-- The items of a list as JSON. -/
def Value.listToJson : List Value → List Json
  | [] => []
  | v :: vs => Value.toJson v :: Value.listToJson vs

/-- Metadata as the fields of an object. -/
def Value.metasToJson : List (String × Value) → List (String × Json)
  | [] => []
  | (name, v) :: vs => (name, Value.toJson v) :: Value.metasToJson vs

/-- A document as JSON. -/
def Document.toJson : Document → Json
  | ⟨words, offset, metas⟩ =>
    .obj
      [("tokens", .arr (words.map Word.toJson)),
        ("offset", .ofNat offset),
        ("metas", .obj (Value.metasToJson metas))]

/-- A document that may be absent as JSON. -/
def Document.optionToJson : Option Document → Json
  | none => .null
  | some d => Document.toJson d

/-- A label as JSON. -/
def Label.toJson : Label → Json
  | ⟨model, text, scores, part, metas⟩ =>
    .obj
      [("model", .str model),
        ("text", .str text),
        ("perform", scoresToJson scores),
        ("doc", Document.optionToJson part),
        ("metas", .obj (Value.metasToJson metas))]

end

/-! ### Reading -/

/-- The readings of one JSON value: as a value, as a document, and as metadata. -/
structure Reading where
  json : Json
  value? : Option Value
  document? : Option Document
  metas? : Option (Assoc String Value)

/-- The greatest number of a variant, and one. -/
def vidBound : Nat := UInt32.size

/-- A key from the fields of its record. -/
def InstanceKey.ofFields? : List (Option Json) → Option InstanceKey
  | [qid, vid] => do
    pure ⟨← Json.required? Json.text? qid, ← Json.required? (Json.natBelow? vidBound) vid⟩
  | _ => none

/-- The names of the fields of a key. -/
def InstanceKey.fieldNames : List String := ["qid", "vid"]

/-- A key from JSON. -/
def InstanceKey.ofJson? (j : Json) : Option InstanceKey := do
  InstanceKey.ofFields? (← j.record? InstanceKey.fieldNames)

namespace Reading

/-- A reading of a scalar. -/
def ofScalar (json : Json) (value? : Option Value) : Reading :=
  ⟨json, value?, none, none⟩

/-- A document from the fields of its record. -/
def documentOfFields? : List (Option Reading) → Option Document
  | [words, offset, metas] => do
    pure {
      words := ← Json.required? (fun r => Json.array? Word.ofJson? r.json) words
      offset := ← Json.orDefault? 0 (fun r => Json.nat? r.json) offset
      metas := ← Json.orDefault? [] (·.metas?) metas }
  | _ => none

/-- A document that may be absent. -/
def documentOrNull? (r : Reading) : Option (Option Document) :=
  match r.json with
  | .null => some none
  | _ => r.document?.map some

/-- Scores from JSON. -/
def scores? (j : Json) : Option (Assoc String Number) :=
  (Json.entries? Json.number? j).map Assoc.ofList

/-- A label from the fields of its record. -/
def labelOfFields? : List (Option Reading) → Option Label
  | [model, text, perform, doc, metas] => do
    pure {
      model := ← Json.required? (fun r => Json.text? r.json) model
      text := ← Json.required? (fun r => Json.text? r.json) text
      perform := ← Json.orDefault? [] (fun r => scores? r.json) perform
      doc := ← Json.orDefault? none documentOrNull? doc
      metas := ← Json.orDefault? [] (·.metas?) metas }
  | _ => none

/-- The names of the fields of a document. -/
def documentFields : List String := ["tokens", "offset", "metas"]

/-- The names of the fields of a label. -/
def labelFields : List String := ["model", "text", "perform", "doc", "metas"]

/-- The first of the record types that fits: document, label, key. A value is read whole before its
kind is known, so a part that denotes nothing spoils it even where a record would pass it over. -/
def handle? (json : Json) (fields? : List String → Option (List (Option Reading))) :
    Option Value :=
  if json.isReadable then
    ((fields? documentFields).bind documentOfFields?).map Value.doc
      <|> ((fields? labelFields).bind labelOfFields?).map Value.label
      <|> ((fields? InstanceKey.fieldNames).bind fun fields =>
          InstanceKey.ofFields? (fields.map (·.map (·.json)))).map Value.key
  else
    none

/-- The readings of an array by those of its items. -/
def ofArray (json : Json) (items : List Reading) : Reading :=
  let fields? (names : List String) := Json.byPosition? names items
  { json
    value? := (items.mapM Reading.value?).map Value.list <|> handle? json fields?
    document? := (fields? documentFields).bind documentOfFields?
    metas? := none }

/-- The readings of an object by those of its fields. -/
def ofObject (json : Json) (fields : List (String × Reading)) : Reading :=
  let fields? (names : List String) := Json.byName? names fields
  { json
    value? := handle? json fields?
    document? := (fields? documentFields).bind documentOfFields?
    metas? := (fields.mapM fun f : String × Reading => f.2.value?.map (f.1, ·)).map Assoc.ofList }

mutual

/-- The readings of a JSON value. -/
def ofJson : Json → Reading
  | .null => ofScalar .null (some .null)
  | .bool b => ofScalar (.bool b) (some (.bool b))
  | .int i => ofScalar (.int i) (some (.num (Number.ofInt i)))
  | .float x => ofScalar (.float x) (some (.num x))
  | .unreadable => ofScalar .unreadable none
  | .str s => ofScalar (.str s) (some (.str s))
  | .arr items => ofArray (.arr items) (ofItems items)
  | .obj fields => ofObject (.obj fields) (ofFields fields)

/-- The readings of the items of an array. -/
def ofItems : List Json → List Reading
  | [] => []
  | j :: js => ofJson j :: ofItems js

/-- The readings of the fields of an object. -/
def ofFields : List (String × Json) → List (String × Reading)
  | [] => []
  | (name, j) :: fields => (name, ofJson j) :: ofFields fields

end

end Reading

/-- A value from JSON: the first kind that fits. -/
def Value.ofJson? (j : Json) : Option Value :=
  (Reading.ofJson j).value?

/-- A document from JSON. -/
def Document.ofJson? (j : Json) : Option Document :=
  (Reading.ofJson j).document?

/-- A label from JSON. -/
def Label.ofJson? (j : Json) : Option Label := do
  match Reading.ofJson j with
  | ⟨.obj fields, _, _, _⟩ =>
    Reading.labelOfFields? (← Json.byName? Reading.labelFields (Reading.ofFields fields))
  | ⟨.arr items, _, _, _⟩ =>
    Reading.labelOfFields? (← Json.byPosition? Reading.labelFields (Reading.ofItems items))
  | _ => none

end ErrorAnalysis
