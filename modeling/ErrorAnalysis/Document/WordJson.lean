import ErrorAnalysis.Document.Word
import ErrorAnalysis.Json.Record

/-!
# Words in JSON

A word is a record whose only required field is its text.

## Main definitions

* `Word.toJson`, `Word.ofJson?`: a word as JSON and back.
-/

namespace ErrorAnalysis

namespace Word

/-- A word as JSON. -/
def toJson (w : Word) : Json :=
  .obj
    [("text", .str w.text),
      ("lemma", .str w.baseForm),
      ("pos", .str w.pos),
      ("tag", .str w.tag),
      ("ent_type", .str w.entType),
      ("dep", .str w.dep),
      ("whitespace", .bool w.spaceAfter),
      ("is_punct", .bool w.isPunct),
      ("is_stop", .bool w.isStop),
      ("is_sent_start", .bool w.opensSentence)]

/-- The names of the fields in order. -/
def fieldNames : List String :=
  ["text", "lemma", "pos", "tag", "ent_type", "dep", "whitespace", "is_punct", "is_stop",
    "is_sent_start"]

/-- A word from JSON. -/
def ofJson? (j : Json) : Option Word := do
  match ← j.record? fieldNames with
  | [text, baseForm, pos, tag, entType, dep, spaceAfter, isPunct, isStop, opensSentence] =>
    pure {
      text := ← Json.required? Json.text? text
      baseForm := ← Json.orDefault? "" Json.text? baseForm
      pos := ← Json.orDefault? "" Json.text? pos
      tag := ← Json.orDefault? "" Json.text? tag
      entType := ← Json.orDefault? "" Json.text? entType
      dep := ← Json.orDefault? "" Json.text? dep
      spaceAfter := ← Json.orDefault? true Json.bool? spaceAfter
      isPunct := ← Json.orDefault? false Json.bool? isPunct
      isStop := ← Json.orDefault? false Json.bool? isStop
      opensSentence := ← Json.orDefault? false Json.bool? opensSentence }
  | _ => none

end Word

end ErrorAnalysis
