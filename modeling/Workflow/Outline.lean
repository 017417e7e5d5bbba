import Workflow.Text.Quoted

/-!
# Outlines

An outline is the text by which a value shows itself to a developer. It is
built as a tree, so that it can be written on one line (`Outline.flat`) or with
every item on a line of its own (`Outline.pretty`).
-/

namespace Workflow

/-- How a group of items is enclosed. -/
inductive Enclosure
  /-- The parts of a wrapped value: `Name(a, b)`. -/
  | parts
  /-- The fields of a record, with blanks inside the braces. -/
  | fields
  /-- The elements of a list: `[a, b]`. -/
  | elements
  /-- The rows of a table, without blanks inside the braces. -/
  | rows
  deriving DecidableEq

/-- What a value shows of itself. -/
inductive Outline
  /-- Written as it stands. -/
  | word (text : String)
  /-- Written between quotes. -/
  | quoted (text : String)
  /-- A field with its value, or a row of a table. -/
  | pair (key value : Outline)
  /-- Items behind a name, which may be empty. -/
  | group (name : String) (enclosure : Enclosure) (items : List Outline)

/-- The mark before the items of a group. -/
def Enclosure.opener : Enclosure → String
  | .parts => "("
  | .fields => " \x7b"
  | .elements => "["
  | .rows => "\x7b"

/-- The mark after the items of a group. -/
def Enclosure.closer : Enclosure → String
  | .parts => ")"
  | .fields | .rows => "\x7d"
  | .elements => "]"

/-- What separates the marks from the items on one line. -/
def Enclosure.padding : Enclosure → String
  | .fields => " "
  | _ => ""

namespace Outline

/-! ## Building outlines -/

/-- A record with named fields. -/
def record (name : String) (fields : List (String × Outline)) : Outline :=
  .group name .fields (fields.map fun field => .pair (.word field.1) field.2)

/-- A value wrapped in a name. -/
def wrap (name : String) (content : Outline) : Outline :=
  .group name .parts [content]

/-- The elements of a list. -/
def list (items : List Outline) : Outline := .group "" .elements items

/-- The rows of a table. -/
def table (rows : List (Outline × Outline)) : Outline :=
  .group "" .rows (rows.map fun row => .pair row.1 row.2)

/-- A truth value. -/
def ofBool (b : Bool) : Outline := .word (if b then "true" else "false")

/-- A value that may be absent. -/
def ofOption : Option Outline → Outline
  | none => .word "None"
  | some content => .wrap "Some" content

/-! ## Writing outlines -/

mutual

/-- An outline on one line. -/
def flat : Outline → String
  | .word text => text
  | .quoted text => Text.quote text
  | .pair key value => key.flat ++ ": " ++ value.flat
  | .group name enclosure items =>
    name ++ enclosure.opener ++ enclosure.padding ++
      ", ".intercalate (flatAll items) ++ enclosure.padding ++ enclosure.closer

/-- Several outlines on one line each. -/
def flatAll : List Outline → List String
  | [] => []
  | item :: items => item.flat :: flatAll items

end

/-- Indents the rest of a line whose start was already indented or not. -/
def indentFrom : Bool → List Char → List Char
  | _, [] => []
  | fresh, c :: rest =>
    (if fresh then [' ', ' ', ' ', ' '] else []) ++ c :: indentFrom (c == '\n') rest

/-- Every line of a text moved in by one level. -/
def indent (text : String) : String := String.ofList (indentFrom true text.toList)

mutual

/-- An outline with every item on a line of its own, ended by a comma. -/
def pretty : Outline → String
  | .word text => text
  | .quoted text => Text.quote text
  | .pair key value => key.pretty ++ ": " ++ value.pretty
  | .group name enclosure items =>
    name ++ enclosure.opener ++ (if items.isEmpty then "" else "\n") ++
      prettyLines items ++ enclosure.closer

/-- The lines of several items, moved in by one level. -/
def prettyLines : List Outline → String
  | [] => ""
  | item :: items => indent (item.pretty ++ ",\n") ++ prettyLines items

end

end Outline

end Workflow
