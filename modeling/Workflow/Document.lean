/-!
# Documents

The stored form of processes and options is a document of nested values. An
object keeps its members in the order of the text and may name one twice, since
a reader has to tell these cases. A number is kept as it is written.

`Document.print` writes a document without blanks; `Workflow.Document.Parser` reads it.
-/

namespace Workflow

/-- A document. -/
inductive Document
  | null
  | bool (value : Bool)
  | number (text : String)
  | string (text : String)
  | array (items : List Document)
  | object (members : List (String × Document))

namespace Document

instance : Inhabited Document := ⟨.null⟩

/-! ## Strings -/

/-- The letter that stands for a character behind a backslash. -/
def escapeLetter? : Char → Option Char
  | '"' => some '"'
  | '\\' => some '\\'
  | '\x08' => some 'b'
  | '\x09' => some 't'
  | '\x0a' => some 'n'
  | '\x0c' => some 'f'
  | '\x0d' => some 'r'
  | _ => none

/-- A digit of a number below sixteen. -/
def hexDigit (n : Nat) : Char := Char.ofNat (if n < 10 then 48 + n else 87 + n)

/-- The form of one character inside quotes. Controls without a letter are
written by number, all else as it is. -/
def escape (c : Char) : List Char :=
  match escapeLetter? c with
  | some letter => ['\\', letter]
  | none =>
    if c.toNat < 0x20 then
      ['\\', 'u', '0', '0', hexDigit (c.toNat / 16), hexDigit (c.toNat % 16)]
    else [c]

/-- A text between quotes. -/
def quote (text : String) : List Char := '"' :: text.toList.flatMap escape ++ ['"']

/-! ## Printing -/

/-- The parts with a comma between each two. -/
def commas : List (List Char) → List Char
  | [] => []
  | [part] => part
  | part :: parts => part ++ ',' :: commas parts

mutual

/-- The text of a document, without blanks. -/
def chars : Document → List Char
  | .null => ['n', 'u', 'l', 'l']
  | .bool true => ['t', 'r', 'u', 'e']
  | .bool false => ['f', 'a', 'l', 's', 'e']
  | .number text => text.toList
  | .string text => quote text
  | .array items => '[' :: commas (charsOfItems items) ++ [']']
  | .object members => '\x7b' :: commas (charsOfMembers members) ++ ['\x7d']

/-- The texts of the items of an array. -/
def charsOfItems : List Document → List (List Char)
  | [] => []
  | item :: items => item.chars :: charsOfItems items

/-- The texts of the members of an object. -/
def charsOfMembers : List (String × Document) → List (List Char)
  | [] => []
  | (name, value) :: members => (quote name ++ ':' :: value.chars) :: charsOfMembers members

end

/-- The text of a document. -/
def print (document : Document) : String := String.ofList document.chars

end Document

end Workflow
