import Workflow.Document
import Workflow.Document.Number

/-!
# Reading documents

`Document.parse?` reads a text that is one document with blanks around it. Strings
hold no bare controls, a character outside the first plane may be written as a
pair of surrogates but a lone one is refused, numbers are read by
`Workflow.Document.Number`, and containers nest at most `nesting` deep.

`Document.parseKnown?` reads a text for which only some members of an object
matter. The values of the others are skipped: they have to be well formed, but
surrogates may be alone in them, numbers of any size, and containers nested to
any depth.

Each reader takes the rest of the text and answers what it read together with
what follows. Loops are bounded by the length of the text.
-/

namespace Workflow

namespace Document

/-- How deep arrays and objects may nest. -/
def nesting : Nat := 127

/-! ## Blanks and characters -/

/-- The characters that may stand between the parts of a document. -/
def isBlank (c : Char) : Bool := c = ' ' || c = '\n' || c = '\t' || c = '\r'

/-- A text without the blanks it starts with. -/
def skipBlanks (cs : List Char) : List Char := cs.dropWhile isBlank

/-- The value of a hexadecimal digit. -/
def hexValue? (c : Char) : Option Nat :=
  if '0' ≤ c ∧ c ≤ '9' then some (c.toNat - 48)
  else if 'a' ≤ c ∧ c ≤ 'f' then some (c.toNat - 87)
  else if 'A' ≤ c ∧ c ≤ 'F' then some (c.toNat - 55)
  else none

/-- Reads four hexadecimal digits. -/
def codeUnit? : List Char → Option (Nat × List Char)
  | a :: b :: c :: d :: rest => do
    let a ← hexValue? a
    let b ← hexValue? b
    let c ← hexValue? c
    let d ← hexValue? d
    some (((a * 16 + b) * 16 + c) * 16 + d, rest)
  | _ => none

/-- Reads a character given by number: one code unit, or a pair of surrogates. -/
def numbered? (cs : List Char) : Option (Char × List Char) := do
  let (high, rest) ← codeUnit? cs
  if high < 0xD800 ∨ 0xDFFF < high then some (Char.ofNat high, rest)
  else if high ≤ 0xDBFF then
    match rest with
    | '\\' :: 'u' :: rest =>
      let (low, rest) ← codeUnit? rest
      if 0xDC00 ≤ low ∧ low ≤ 0xDFFF then
        some (Char.ofNat (0x10000 + (high - 0xD800) * 0x400 + (low - 0xDC00)), rest)
      else none
    | _ => none
  else none

/-- Reads what follows a backslash. In a string that is skipped a surrogate on its own
counts as a character, too. -/
def escaped? (reading : Reading) : List Char → Option (Char × List Char)
  | '"' :: rest => some ('"', rest)
  | '\\' :: rest => some ('\\', rest)
  | '/' :: rest => some ('/', rest)
  | 'b' :: rest => some ('\x08', rest)
  | 't' :: rest => some ('\x09', rest)
  | 'n' :: rest => some ('\x0a', rest)
  | 'f' :: rest => some ('\x0c', rest)
  | 'r' :: rest => some ('\x0d', rest)
  | 'u' :: rest =>
    match reading with
    | .kept => numbered? rest
    | .skipped => (numbered? rest).or <|
        (codeUnit? rest).map fun (unit, rest) => (Char.ofNat unit, rest)
  | _ => none

/-- Reads the rest of a string up to its closing quote. -/
def stringRest? (reading : Reading) : Nat → List Char → Option (List Char × List Char)
  | 0, _ | _, [] => none
  | bound + 1, c :: rest =>
    if c = '"' then some ([], rest)
    else if c = '\\' then do
      let (c, rest) ← escaped? reading rest
      let (cs, rest) ← stringRest? reading bound rest
      some (c :: cs, rest)
    else if c.toNat < 0x20 then none
    else do
      let (cs, rest) ← stringRest? reading bound rest
      some (c :: cs, rest)

/-- Reads a string. -/
def string? (reading : Reading) : List Char → Option (String × List Char)
  | '"' :: rest => do
    let (cs, rest) ← stringRest? reading rest.length rest
    some (String.ofList cs, rest)
  | _ => none

/-! ## Values -/

/-- Reads a value that is not a container. -/
def scalar? (reading : Reading) (cs : List Char) : Option (Document × List Char) :=
  match cs with
  | 'n' :: 'u' :: 'l' :: 'l' :: rest => some (.null, rest)
  | 't' :: 'r' :: 'u' :: 'e' :: rest => some (.bool true, rest)
  | 'f' :: 'a' :: 'l' :: 's' :: 'e' :: rest => some (.bool false, rest)
  | '"' :: _ => do
    let (text, rest) ← string? reading cs
    some (.string text, rest)
  | _ => do
    let (text, rest) ← number? reading cs
    some (.number text, rest)

/-- Reads items up to the closing mark, at least one, with commas between. -/
def items? {α : Type} (item? : List Char → Option (α × List Char)) (close : Char) :
    Nat → List Char → Option (List α × List Char)
  | 0, _ => none
  | bound + 1, cs => do
    let (item, rest) ← item? (skipBlanks cs)
    match skipBlanks rest with
    | [] => none
    | c :: rest =>
      if c = close then some ([item], rest)
      else if c = ',' then do
        let (items, rest) ← items? item? close bound rest
        some (item :: items, rest)
      else none

/-- Reads the items of a container behind its opening mark. -/
def contents? {α : Type} (item? : List Char → Option (α × List Char)) (close : Char)
    (cs : List Char) : Option (List α × List Char) :=
  match skipBlanks cs with
  | [] => none
  | c :: rest => if c = close then some ([], rest) else items? item? close cs.length cs

/-- Reads a member of an object. How its value is read may depend on its name. -/
def member? (reading : Reading) (value? : String → List Char → Option (Document × List Char))
    (cs : List Char) : Option ((String × Document) × List Char) := do
  let (name, rest) ← string? reading cs
  match skipBlanks rest with
  | ':' :: rest =>
    let (value, rest) ← value? name (skipBlanks rest)
    some ((name, value), rest)
  | _ => none

/-- Reads a value whose containers nest at most as deep as given. -/
def value? (reading : Reading) : Nat → List Char → Option (Document × List Char)
  | 0, cs => scalar? reading cs
  | depth + 1, cs =>
    match cs with
    | '[' :: rest => do
      let (items, rest) ← contents? (value? reading depth) ']' rest
      some (.array items, rest)
    | '\x7b' :: rest => do
      let (members, rest) ←
        contents? (member? reading fun _ => value? reading depth) '\x7d' rest
      some (.object members, rest)
    | _ => scalar? reading cs

/-- Reads the value of a member of an object and skips it if its name is none of the given
ones. What is skipped may nest as deep as it is long, which is no bound. -/
def valueOf? (names : List String) (name : String) (cs : List Char) :
    Option (Document × List Char) :=
  if name ∈ names then value? .kept (nesting - 1) cs
  else value? .skipped (max nesting cs.length) cs

/-- Reads a value of which only the members of the given names matter, if it is an object. -/
def known? (names : List String) (cs : List Char) : Option (Document × List Char) :=
  match cs with
  | '\x7b' :: rest => do
    let (members, rest) ← contents? (member? .kept (valueOf? names)) '\x7d' rest
    some (.object members, rest)
  | _ => value? .kept nesting cs

/-! ## Whole texts -/

/-- What a reader of documents finds in a text that is one document. -/
def parseBy? (document? : List Char → Option (Document × List Char)) (text : String) :
    Option Document := do
  let (document, rest) ← document? (skipBlanks text.toList)
  if (skipBlanks rest).isEmpty then some document else none

/-- The document that a text holds. -/
def parse? (text : String) : Option Document := parseBy? (value? .kept nesting) text

/-- The document that a text holds, for a reader that takes only the members of the given
names from it. -/
def parseKnown? (names : List String) (text : String) : Option Document :=
  parseBy? (known? names) text

end Document

end Workflow
