import ErrorAnalysis.Block.Create
import ErrorAnalysis.Block.Json
import ErrorAnalysis.CommandLine.Options
import ErrorAnalysis.Dataset.Json

/-!
# The command line

What can be asked for on the command line: the value of a query for one question, the summary of
an attribute or of a group, and the list of functions. The answer is JSON with two fields, the
output and a message, one of which is null.

## Main definitions

* `Invocation`, `Invocation.read?`: a request, read from arguments.
* `Invocation.run`: the answer to a request, given the texts of the files that it names.
* `Report`: what is printed, and the exit code.
-/

namespace ErrorAnalysis

/-! ### Requests -/

/-- The files that a request is about. -/
structure DataFiles where
  data : String
  attrs? : Option String := none
  groups? : Option String := none

/-- A request for a block. -/
structure BlockRequest where
  files : DataFiles
  name : String
  description : String := ""
  testSize? : Option Nat := none
  force : Bool := false
  cmd : String

/-- What is asked for. -/
inductive Task where
  | eval (files : DataFiles) (qid cmd : String)
  | attr (request : BlockRequest)
  | group (request : BlockRequest)
  | functions

/-- A request with the settings that it is made under. -/
structure Invocation where
  configFile? : Option String := none
  model? : Option String := none
  task : Task

/-! ### Reading requests -/

namespace DataFiles

/-- The options for files. -/
def options : List OptionSpec :=
  [⟨"data", some 'd', true⟩, ⟨"attrs", none, true⟩, ⟨"groups", none, true⟩]

/-- The name of a file, which is not empty. -/
def path? (s : String) : Option String :=
  if s.isEmpty then none else some s

/-- The file of an option that may be left out. -/
def optionalPath? (a : Arguments) (long : String) : Option (Option String) :=
  match a.value? long with
  | none => some none
  | some s => (path? s).map some

/-- The files that options name. -/
def ofArguments? (a : Arguments) : Option DataFiles := do
  let data ← path? (← a.value? "data")
  let attrs? ← optionalPath? a "attrs"
  let groups? ← optionalPath? a "groups"
  pure { data, attrs?, groups? }

end DataFiles

/-- A count: digits of 64 bits, with or without a plus sign. -/
def readCount? (s : String) : Option Nat :=
  let digits :=
    match s.toList with
    | '+' :: cs => cs
    | cs => cs
  if !digits.isEmpty && digits.all Char.isDigit then
    some (digitsValue digits) |>.filter fun n => decide (n < UInt64.size)
  else none

namespace BlockRequest

/-- The options of a request for a block. -/
def options : List OptionSpec :=
  DataFiles.options ++
    [⟨"name", some 'n', true⟩, ⟨"description", none, true⟩, ⟨"test-size", none, true⟩,
      ⟨"force", none, false⟩]

/-- The count of an option that may be left out. -/
def testSize?? (a : Arguments) : Option (Option Nat) :=
  match a.value? "test-size" with
  | none => some none
  | some s => (readCount? s).map some

/-- A request for a block. -/
def ofArguments? (a : Arguments) : Option BlockRequest := do
  let files ← DataFiles.ofArguments? a
  let name ← a.value? "name"
  let testSize? ← testSize?? a
  match a.positional with
  | [cmd] =>
    pure {
      files
      name
      description := (a.value? "description").getD ""
      testSize?
      force := a.has "force"
      cmd }
  | _ => none

/-- How the block is made. -/
def createOptions (r : BlockRequest) (sampling : Sampling) : CreateOptions :=
  { testSize? := r.testSize?, force := r.force, sampling }

/-- What the block is made from. -/
def definition (r : BlockRequest) : Definition :=
  ⟨r.name, r.description, r.cmd⟩

end BlockRequest

namespace Task

/-- A task from its name and its arguments. -/
def read? (name : String) (arguments : List String) : Option Task :=
  match name with
  | "eval" => do
    let a ← Arguments.read? (DataFiles.options ++ [⟨"qid", some 'q', true⟩]) arguments
    let files ← DataFiles.ofArguments? a
    let qid ← a.value? "qid"
    match a.positional with
    | [cmd] => some (.eval files qid cmd)
    | _ => none
  | "attr" => ((Arguments.read? BlockRequest.options arguments).bind
      BlockRequest.ofArguments?).map .attr
  | "group" => ((Arguments.read? BlockRequest.options arguments).bind
      BlockRequest.ofArguments?).map .group
  | "functions" => do
    let a ← Arguments.read? [] arguments
    if a.positional.isEmpty then some .functions else none
  | _ => none

end Task

namespace Invocation

/-- The options in front of the name of a task. -/
def options : List OptionSpec :=
  [⟨"config", some 'c', true⟩, ⟨"model", some 'm', true⟩, ⟨"verbose", some 'v', false⟩]

/-- A request from the arguments of the program. There is no task after two dashes by
themselves. -/
def read? (arguments : List String) : Option Invocation := do
  let (front, rest) := Arguments.splitAtPositional options arguments
  guard !front.contains "--"
  let a ← Arguments.read? options front
  let configFile? ← DataFiles.optionalPath? a "config"
  match a.positional, rest with
  | [], name :: arguments =>
    pure { configFile?, model? := a.value? "model", task := ← Task.read? name arguments }
  | _, _ => none

/-! ### Answering requests -/

/-- The texts of files by their names. -/
abbrev Files := String → Option String

/-- What items are drawn by while a request is answered: for the blocks that are defined in files, one
after the other, and for a new one. -/
structure Chance where
  attributes : Nat → Sampling := fun _ => {}
  groups : Nat → Sampling := fun _ => {}
  block : Sampling := {}

/-- The text of a file that has to be there. -/
def fileText (files : Files) (path : String) : Except AnalysisError String :=
  (files path).elim (.error .missingFile) .ok

/-- The definitions in a file. -/
def readDefinitions (files : Files) (path : String) : Except AnalysisError (List Definition) := do
  (Definition.importText? (← fileText files path)).elim (.error .unreadable) .ok

/-- The registry with the attributes that are defined in a file. -/
def loadAttributes (files : Files) (chance : Chance) (d : Dataset) (r : Registry) :
    Option String → Except AnalysisError Registry
  | none => .ok r
  | some path => do
    let (made, r) := r.importAttributes d chance.attributes (← readDefinitions files path)
    made.map fun _ => r

/-- The registry with the groups that are defined in a file. -/
def loadGroups (files : Files) (chance : Chance) (d : Dataset) (r : Registry) :
    Option String → Except AnalysisError Registry
  | none => .ok r
  | some path => do
    let (made, r) := r.importGroups d chance.groups (← readDefinitions files path)
    made.map fun _ => r

/-- The dataset of a request, and the registry with the blocks that are defined in files. -/
def load (files : Files) (chance : Chance) (r : Registry) (data : DataFiles) :
    Except AnalysisError (Dataset × Registry) := do
  let d ← (Dataset.ofText? (← fileText files data.data)).elim (.error .unreadable) .ok
  let r ← loadAttributes files chance d (r.loadFrequencies d) data.attrs?
  let r ← loadGroups files chance d r data.groups?
  pure (d, r)

/-- The value of a query for a question. -/
def evalTask (files : Files) (chance : Chance) (r : Registry) (data : DataFiles) (qid cmd : String) :
    Except AnalysisError Json := do
  let (d, r) ← load files chance r data
  let q ← r.compile cmd
  let item ← (d.item? qid).elim (.error (.unknownQuestion qid)) .ok
  match (r.valueOn q.root item).result with
  | .ok v => pure v.toJson
  | .error e => .error (.eval e)

/-- The summary of a new attribute. -/
def attrTask (files : Files) (chance : Chance) (r : Registry) (request : BlockRequest) :
    Except AnalysisError Json := do
  let (d, r) ← load files chance r request.files
  let (a, r) ← r.createAttribute d request.definition (request.createOptions chance.block)
  pure (a.record d r.ambient.defaultModel? r.config.metric none).toJson

/-- The summary of a new group. -/
def groupTask (files : Files) (chance : Chance) (r : Registry) (request : BlockRequest) :
    Except AnalysisError Json := do
  let (d, r) ← load files chance r request.files
  let (g, r) ← r.createGroup d request.definition (request.createOptions chance.block)
  pure (g.record d r.ambient.defaultModel? r.config.metric).toJson

/-- The parameters of all functions. -/
def functionsTask (r : Registry) : Json :=
  .obj (r.functions.signatures.map fun (name, params) => (name, .arr (params.map .str)))

/-- The settings of a request. -/
def config (files : Files) (i : Invocation) : Except AnalysisError Config :=
  match i.configFile? with
  | none => .ok {}
  | some path => do Config.ofText (← fileText files path)

/-- The answer to a request. -/
def run (files : Files) (i : Invocation) (chance : Chance := {}) : Except AnalysisError Json := do
  let r := Registry.ofConfig (← i.config files)
  let r := if i.model?.isSome then r.setModel i.model? else r
  match i.task with
  | .eval data qid cmd => evalTask files chance r data qid cmd
  | .attr request => attrTask files chance r request
  | .group request => groupTask files chance r request
  | .functions => .ok (functionsTask r)

/-- The files that a task names. -/
def taskPaths : Task → List String
  | .eval files _ _ => dataPaths files
  | .attr request | .group request => dataPaths request.files
  | .functions => []
where
  /-- The files that a request is about. -/
  dataPaths (files : DataFiles) : List String :=
    files.data :: (files.attrs?.toList ++ files.groups?.toList)

/-- The files that a request names. -/
def paths (i : Invocation) : List String :=
  i.configFile?.toList ++ taskPaths i.task

end Invocation

/-! ### Printing answers -/

/-- What is printed, and the exit code. -/
structure Report where
  exitCode : Nat
  output : String := ""

namespace Report

/-- The answer with its output and its message, one of which is null. -/
def envelope : Except AnalysisError Json → Json
  | .ok output => .obj [("output", output), ("message", .null)]
  | .error e => .obj [("output", .null), ("message", .str e.message)]

/-- What is printed for arguments that are no request: nothing. -/
def misuse : Report :=
  { exitCode := 2 }

/-- What is printed for an answer. -/
def ofAnswer (answer : Except AnalysisError Json) : Report where
  exitCode := if answer.toBool then 0 else 1
  output := (envelope answer).pretty ++ "\n"

end Report

end ErrorAnalysis
