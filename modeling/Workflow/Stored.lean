import Workflow.Document.Parser
import Workflow.Options
import Workflow.Process

/-!
# Stored forms

A process is stored as an object of its state, its visited states and its
reference; the checkpoint is not stored. Options are stored as an object of the
failure handling.

Decoding takes the members of an object in the order of the document and skips
those it does not know; of a text it does not even read their values, but looks for
the end of them. The first wrong member is the answer; a member that is
missing is found last. An object may also be given as the array of its members
in the order of the fields, where those that have a default may be left out at
the end.

A variant is a name, or an object whose one member is the name with `null`. An
object of several members is refused in either form of document, but reading a
text finds a name it does not know before it finds the second member.
-/

namespace Workflow

/-- How a document came to its decoder. -/
inductive Document.Source
  /-- Read from a text, member by member. -/
  | text
  /-- Given as a whole. -/
  | tree
  deriving DecidableEq

/-- Why a document does not decode. -/
inductive DecodeError
  /-- A part has the wrong type or the wrong number of elements. -/
  | mismatch
  | missingField (name : String)
  | duplicateField (name : String)
  | unknownVariant (name : String)
  deriving DecidableEq

/-- Why a text does not decode. -/
inductive ReadError
  /-- The text is not one document. -/
  | syntactic
  | data (error : DecodeError)
  deriving DecidableEq

/-- The text of a decode error. A mismatch has none of its own. -/
def DecodeError.message? : DecodeError → Option String
  | .mismatch => none
  | .missingField name => some ("missing field " ++ ticked name)
  | .duplicateField name => some ("duplicate field " ++ ticked name)
  | .unknownVariant name =>
    some ("unknown variant " ++ ticked name ++
      ", expected one of `halt`, `chain_of_command`, `continue`")

namespace Document

/-- The text of a string. -/
def asString : Document → Except DecodeError String
  | .string text => .ok text
  | _ => .error .mismatch

/-- The texts of an array of strings. -/
def asStrings : Document → Except DecodeError (List String)
  | .array items => items.mapM asString
  | _ => .error .mismatch

/-- The text of a string, or none for `null`. -/
def asOptionalString : Document → Except DecodeError (Option String)
  | .null => .ok none
  | .string text => .ok (some text)
  | _ => .error .mismatch

/-- The value of a field that was not decoded before. -/
def once {α : Type} (name : String) (earlier : Option α) (value : Except DecodeError α) :
    Except DecodeError (Option α) :=
  match earlier with
  | some _ => .error (.duplicateField name)
  | none => value.map some

end Document

/-! ## Names -/

def StateName.toDocument (state : StateName) : Document := .string state.text

def StateName.ofDocument (document : Document) : Except DecodeError StateName :=
  document.asString.map StateName.mk

def Signal.toDocument (signal : Signal) : Document := .string signal.text

def Signal.ofDocument (document : Document) : Except DecodeError Signal := document.asString.map Signal.mk

/-! ## Options -/

namespace FailureHandling

/-- The name under which a mode is stored. -/
def name : FailureHandling → String
  | .halt => "halt"
  | .chainOfCommand => "chain_of_command"

/-- The mode of a name; `continue` is another name of the chain of command. -/
def ofName (name : String) : Except DecodeError FailureHandling :=
  if name = "halt" then .ok .halt
  else if name = "chain_of_command" ∨ name = "continue" then .ok .chainOfCommand
  else .error (.unknownVariant name)

def toDocument (mode : FailureHandling) : Document := .string mode.name

def ofDocument (source : Document.Source) : Document → Except DecodeError FailureHandling
  | .string name => ofName name
  | .object [(name, content)] => do
    let mode ← ofName name
    match content with
    | .null => .ok mode
    | _ => .error .mismatch
  | .object ((name, _) :: _ :: _) =>
    match source with
    | .text => do
      let _ ← ofName name
      .error .mismatch
    | .tree => .error .mismatch
  | _ => .error .mismatch

theorem ofName_name (mode : FailureHandling) : ofName mode.name = .ok mode := by
  cases mode <;> rfl

end FailureHandling

namespace Options

def toDocument (options : Options) : Document :=
  .object [("failure_handling", options.failureHandling.toDocument)]

/-- Takes one more member of an object. -/
def member (source : Document.Source) (found : Option FailureHandling) (member : String × Document) :
    Except DecodeError (Option FailureHandling) :=
  if member.1 = "failure_handling" then
    Document.once member.1 found (FailureHandling.ofDocument source member.2)
  else .ok found

def ofDocument (source : Document.Source) : Document → Except DecodeError Options
  | .object members => do
    let found ← members.foldlM (member source) none
    .ok { failureHandling := found.getD .halt }
  | .array [] => .ok {}
  | .array [mode] => do
    let mode ← FailureHandling.ofDocument source mode
    .ok { failureHandling := mode }
  | .array (mode :: _ :: _) => do
    let _ ← FailureHandling.ofDocument source mode
    .error .mismatch
  | _ => .error .mismatch

end Options

/-! ## Processes -/

namespace Cursor

def toDocument (cursor : Cursor) : Document :=
  .object
    [ ("state", cursor.state.toDocument)
    , ("visited", .array (cursor.visited.map StateName.toDocument))
    , ("reference",
        match cursor.reference with
        | none => .null
        | some reference => .string reference) ]

/-- The fields of a cursor found so far. -/
structure Fields where
  state : Option String := none
  visited : Option (List String) := none
  reference : Option (Option String) := none

/-- Takes one more member of an object. -/
def Fields.member (fields : Fields) (member : String × Document) : Except DecodeError Fields :=
  if member.1 = "state" then do
    let state ← Document.once member.1 fields.state member.2.asString
    .ok { fields with state }
  else if member.1 = "visited" then do
    let visited ← Document.once member.1 fields.visited member.2.asStrings
    .ok { fields with visited }
  else if member.1 = "reference" then do
    let reference ← Document.once member.1 fields.reference member.2.asOptionalString
    .ok { fields with reference }
  else .ok fields

/-- The cursor of the fields found; only the state has no default. -/
def Fields.cursor (fields : Fields) : Except DecodeError Cursor :=
  match fields.state with
  | none => .error (.missingField "state")
  | some state =>
    .ok
      { state := ⟨state⟩
        visited := (fields.visited.getD []).map StateName.mk
        reference := fields.reference.getD none }

def ofDocument : Document → Except DecodeError Cursor
  | .object members => do
    let fields ← members.foldlM Fields.member {}
    fields.cursor
  | .array [state] => do
    let state ← state.asString
    Fields.cursor { state := some state }
  | .array [state, visited] => do
    let state ← state.asString
    let visited ← visited.asStrings
    Fields.cursor { state := some state, visited := some visited }
  | .array [state, visited, reference] => do
    let state ← state.asString
    let visited ← visited.asStrings
    let reference ← reference.asOptionalString
    Fields.cursor { state := some state, visited := some visited, reference := some reference }
  | _ => .error .mismatch

/-- The text in which a cursor is stored. -/
def toText (cursor : Cursor) : String := cursor.toDocument.print

/-- The names of the members in which a cursor is stored. -/
def fieldNames : List String := ["state", "visited", "reference"]

/-- The cursor that a text stores. -/
def ofText (text : String) : Except ReadError Cursor :=
  match Document.parseKnown? fieldNames text with
  | none => .error .syntactic
  | some document => (ofDocument document).mapError .data

end Cursor

namespace Process

variable {σ : Type}

/-- The process at a cursor, without a checkpoint. -/
def ofCursor (cursor : Cursor) : Process σ := { toCursor := cursor }

/-- The process that a document stores. -/
def ofDocument (document : Document) : Except DecodeError (Process σ) :=
  (Cursor.ofDocument document).map ofCursor

/-- The process that a text stores. -/
def ofText (text : String) : Except ReadError (Process σ) :=
  (Cursor.ofText text).map ofCursor

end Process

end Workflow
