import Workflow.Proofs.StoredGrammar

/-!
# Reading what was written

A document without numbers that is written as a text is read back as it was, and so is a
process.

* `stringRest?_escape` is one character of a string, and `string?_quote` a whole one: quotes,
  backslashes and controls are written in a form that the reader undoes.
* `items?_commas` is the parts between two marks, whatever they are made of, and
  `contents?_commas` adds the case that there are none.
* `Document.Plain` is a document without numbers whose containers nest only so deep.
  `value?_chars` is one inside a text, and `parse?_print` a whole text.
* `Cursor.ofText_toText` and `Cursor.ofDocument_toDocument`: a cursor comes back from a text
  and from a document.
* `Process.comes_back_intact` states it of processes.
-/

namespace Workflow

namespace Document

/-! ## Strings -/

theorem hexValue?_hexDigit : ∀ n < 16, hexValue? (hexDigit n) = some n := by decide

/-- The number of a control is read back. -/
theorem escaped?_control {c : Char} (hcontrol : c.toNat < 0x20) (rest : List Char) :
    escaped? .kept
        ('u' :: '0' :: '0' :: hexDigit (c.toNat / 16) :: hexDigit (c.toNat % 16) :: rest) =
      some (c, rest) := by
  have hhigh := hexValue?_hexDigit (c.toNat / 16) (by omega)
  have hlow := hexValue?_hexDigit (c.toNat % 16) (by omega)
  have hzero : hexValue? '0' = some 0 := rfl
  have hvalue : ((0 * 16 + 0) * 16 + c.toNat / 16) * 16 + c.toNat % 16 = c.toNat := by omega
  have hunit : c.toNat < 0xD800 ∨ 0xDFFF < c.toNat := by omega
  simp only [escaped?, numbered?, codeUnit?, hzero, hhigh, hlow, hvalue, Option.bind_eq_bind,
    Option.bind_some, hunit, if_true, Char.ofNat_toNat]

theorem escaped?_letter {c letter : Char} (h : escapeLetter? c = some letter) (rest : List Char) :
    escaped? .kept (letter :: rest) = some (c, rest) := by
  unfold escapeLetter? at h
  split at h <;> first | contradiction | (obtain rfl := Option.some.inj h; rfl)

theorem stringRest?_backslash (bound : Nat) {c : Char} {form rest : List Char}
    (h : escaped? .kept form = some (c, rest)) :
    stringRest? .kept (bound + 1) ('\\' :: form) =
      (stringRest? .kept bound rest).map fun read => (c :: read.1, read.2) := by
  show (escaped? .kept form).bind _ = _
  rw [h]
  show (stringRest? .kept bound rest).bind _ = _
  cases stringRest? .kept bound rest <;> rfl

/-- A character is read back from the form in which it is written. -/
theorem stringRest?_escape (bound : Nat) (c : Char) (rest : List Char) :
    stringRest? .kept (bound + 1) (escape c ++ rest) =
      (stringRest? .kept bound rest).map fun read => (c :: read.1, read.2) := by
  unfold escape
  cases hletter : escapeLetter? c with
  | some letter => exact stringRest?_backslash bound (escaped?_letter hletter rest)
  | none =>
    by_cases hcontrol : c.toNat < 0x20
    · simp only [hcontrol, if_true]
      exact stringRest?_backslash bound (escaped?_control hcontrol rest)
    · -- What stands for itself is neither a quote nor a backslash, since those have letters.
      have hquote : c ≠ '"' := by
        rintro rfl
        contradiction
      have hbackslash : c ≠ '\\' := by
        rintro rfl
        contradiction
      simp only [hcontrol, if_false, List.singleton_append, stringRest?, hquote, hbackslash]
      cases stringRest? .kept bound rest <;> rfl

theorem length_le_flatMap_escape (cs : List Char) : cs.length ≤ (cs.flatMap escape).length := by
  induction cs with
  | nil => exact Nat.le_refl 0
  | cons c cs ih =>
    have hpos : 0 < (escape c).length := by
      unfold escape
      split
      · exact Nat.succ_pos _
      · split <;> exact Nat.succ_pos _
    rw [List.flatMap_cons, List.length_append, List.length_cons]
    omega

theorem stringRest?_flatMap (cs rest : List Char) {bound : Nat} (hbound : cs.length < bound) :
    stringRest? .kept bound (cs.flatMap escape ++ '"' :: rest) = some (cs, rest) := by
  induction cs generalizing bound with
  | nil =>
    obtain ⟨bound, rfl⟩ : ∃ n, bound = n + 1 := ⟨bound - 1, by omega⟩
    rfl
  | cons c cs ih =>
    obtain ⟨bound, rfl⟩ : ∃ n, bound = n + 1 := ⟨bound - 1, by omega⟩
    rw [List.flatMap_cons, List.append_assoc, stringRest?_escape,
      ih (Nat.lt_of_succ_lt_succ hbound)]
    rfl

theorem string?_quote (text : String) (rest : List Char) :
    string? .kept (quote text ++ rest) = some (text, rest) := by
  have hbound : text.toList.length < (text.toList.flatMap escape ++ '"' :: rest).length := by
    rw [List.length_append, List.length_cons]
    have := length_le_flatMap_escape text.toList
    omega
  have hquote : quote text ++ rest = '"' :: (text.toList.flatMap escape ++ '"' :: rest) := by
    simp [quote]
  rw [hquote]
  show (stringRest? .kept _ _).bind _ = _
  rw [stringRest?_flatMap _ rest hbound]
  exact congrArg (fun text => some (text, rest)) String.ofList_toList

/-! ## The parts between two marks -/

theorem skipBlanks_cons {c : Char} (hblank : isBlank c = false) (cs : List Char) :
    skipBlanks (c :: cs) = c :: cs := by
  rw [skipBlanks, List.dropWhile_cons, hblank]
  rfl

section Parts

variable {α : Type} {item? : List Char → Option (α × List Char)} {close : Char}
  {render : α → List Char}

/-- The text of an item begins with a character that is neither a blank nor the closing mark,
and the item is read back from it, whatever follows. -/
structure Reads (item? : List Char → Option (α × List Char)) (close : Char)
    (render : α → List Char) (item : α) : Prop where
  begins : ∃ c cs, render item = c :: cs ∧ isBlank c = false ∧ c ≠ close
  reads : ∀ rest, item? (render item ++ rest) = some (item, rest)

theorem Reads.skipBlanks_eq {item : α} (h : Reads item? close render item) (rest : List Char) :
    skipBlanks (render item ++ rest) = render item ++ rest := by
  obtain ⟨c, cs, hrender, hblank, _⟩ := h.begins
  rw [hrender, List.cons_append, skipBlanks_cons hblank]

/-- A closing mark is neither a blank nor a comma. -/
structure Closes (close : Char) : Prop where
  blank : isBlank close = false
  comma : close ≠ ','

theorem items?_commas (hclose : Closes close) (item : α) (items : List α)
    (hitems : ∀ item' ∈ item :: items, Reads item? close render item') (rest : List Char)
    {bound : Nat} (hbound : items.length < bound) :
    items? item? close bound (commas ((item :: items).map render) ++ close :: rest) =
      some (item :: items, rest) := by
  induction items generalizing item bound with
  | nil =>
    obtain ⟨bound, rfl⟩ : ∃ n, bound = n + 1 := ⟨bound - 1, by omega⟩
    have hitem := hitems item List.mem_cons_self
    simp only [List.map_cons, List.map_nil, commas, items?, hitem.skipBlanks_eq, hitem.reads,
      Option.bind_eq_bind, Option.bind_some, skipBlanks_cons hclose.blank, if_true]
  | cons next items ih =>
    obtain ⟨bound, rfl⟩ : ∃ n, bound = n + 1 := ⟨bound - 1, by omega⟩
    obtain ⟨hitem, hitems⟩ := List.forall_mem_cons.mp hitems
    have hrest := ih next hitems (Nat.lt_of_succ_lt_succ hbound)
    have hcommas : commas ((item :: next :: items).map render) =
      render item ++ ',' :: commas ((next :: items).map render) := rfl
    have hskip : ∀ cs, skipBlanks (',' :: cs) = ',' :: cs := fun _ => rfl
    rw [hcommas, List.append_assoc, List.cons_append]
    simp only [items?, hitem.skipBlanks_eq, hitem.reads, Option.bind_eq_bind, Option.bind_some,
      hskip, hclose.comma.symm, if_false, if_true, hrest]

theorem length_le_commas (parts : List (List Char)) : parts.length ≤ (commas parts).length + 1 := by
  induction parts with
  | nil => exact Nat.zero_le _
  | cons part parts ih =>
    cases parts with
    | nil => exact Nat.succ_le_succ (Nat.zero_le _)
    | cons next parts =>
      have hcommas : commas (part :: next :: parts) = part ++ ',' :: commas (next :: parts) := rfl
      simp only [hcommas, List.length_append, List.length_cons] at ih ⊢
      omega

theorem contents?_commas (hclose : Closes close) (items : List α)
    (hitems : ∀ item ∈ items, Reads item? close render item) (rest : List Char) :
    contents? item? close (commas (items.map render) ++ close :: rest) = some (items, rest) := by
  cases items with
  | nil =>
    simp only [List.map_nil, commas, List.nil_append, contents?, skipBlanks_cons hclose.blank,
      if_true]
  | cons item items =>
    have hbound : items.length < (commas ((item :: items).map render) ++ close :: rest).length := by
      have := length_le_commas ((item :: items).map render)
      rw [List.length_map, List.length_cons] at this
      rw [List.length_append, List.length_cons]
      omega
    obtain ⟨c, cs, hcommas, hblank, hother⟩ :
        ∃ c cs, commas ((item :: items).map render) = c :: cs ∧ isBlank c = false ∧ c ≠ close := by
      obtain ⟨c, cs, hrender, hc⟩ := (hitems item List.mem_cons_self).begins
      cases items with
      | nil => exact ⟨c, cs, hrender, hc⟩
      | cons next items =>
        exact ⟨c, cs ++ ',' :: commas ((next :: items).map render), by
          rw [← List.cons_append, ← hrender]; rfl, hc⟩
    have hskip : skipBlanks (commas ((item :: items).map render) ++ close :: rest) =
        c :: (cs ++ close :: rest) := by
      rw [hcommas, List.cons_append, skipBlanks_cons hblank]
    simp only [contents?, hskip, hother, if_false]
    exact items?_commas hclose item items hitems rest hbound

end Parts

/-! ## Documents -/

/-- A document without numbers, whose containers nest at most as deep as given. -/
inductive Plain : Nat → Document → Prop
  | null {depth : Nat} : Plain depth .null
  | bool {depth : Nat} {value : Bool} : Plain depth (.bool value)
  | string {depth : Nat} {text : String} : Plain depth (.string text)
  | array {depth : Nat} {items : List Document} (hitems : ∀ item ∈ items, Plain depth item) :
      Plain (depth + 1) (.array items)
  | object {depth : Nat} {members : List (String × Document)}
      (hmembers : ∀ member ∈ members, Plain depth member.2) : Plain (depth + 1) (.object members)

theorem charsOfItems_eq (items : List Document) : charsOfItems items = items.map chars := by
  induction items with
  | nil => rfl
  | cons item items ih => rw [charsOfItems, ih, List.map_cons]

/-- The text of a member. -/
def charsOfMember (member : String × Document) : List Char :=
  quote member.1 ++ ':' :: member.2.chars

theorem charsOfMembers_eq (members : List (String × Document)) :
    charsOfMembers members = members.map charsOfMember := by
  induction members with
  | nil => rfl
  | cons member members ih => rw [charsOfMembers, ih]; rfl

theorem value?_quote (depth : Nat) (text : String) (rest : List Char) :
    value? .kept depth (quote text ++ rest) = some (.string text, rest) := by
  have hscalar : scalar? .kept (quote text ++ rest) = some (.string text, rest) := by
    show (string? .kept (quote text ++ rest)).bind _ = _
    rw [string?_quote]
    rfl
  cases depth <;> exact hscalar

/-- The text of such a document does not begin with a blank or a closing mark. -/
theorem Plain.begins {depth : Nat} {document : Document} (h : Plain depth document) :
    ∃ c cs, document.chars = c :: cs ∧ isBlank c = false ∧ c ≠ ']' ∧ c ≠ '\x7d' := by
  cases h with
  | null | string => exact ⟨_, _, rfl, by decide⟩
  | @bool _ value => cases value <;> exact ⟨_, _, rfl, by decide⟩
  | array | object =>
    rw [chars]
    exact ⟨_, _, rfl, by decide⟩

/-- A member is read back if its value is. -/
theorem member?_chars {value? : String → List Char → Option (Document × List Char)}
    {member : String × Document} {depth : Nat} (hplain : Plain depth member.2)
    (hvalue : ∀ rest, value? member.1 (member.2.chars ++ rest) = some (member.2, rest))
    (rest : List Char) :
    member? .kept value? (charsOfMember member ++ rest) = some (member, rest) := by
  obtain ⟨c, cs, hchars, hblank, _⟩ := hplain.begins
  have hskip : skipBlanks (member.2.chars ++ rest) = member.2.chars ++ rest := by
    rw [hchars, List.cons_append, skipBlanks_cons hblank]
  have hcolon : ∀ cs, skipBlanks (':' :: cs) = ':' :: cs := fun _ => rfl
  rw [charsOfMember, List.append_assoc, List.cons_append]
  simp only [member?, string?_quote, Option.bind_eq_bind, Option.bind_some, hcolon, hskip, hvalue]

/-- The induction is on the document.  Within a container what follows an item is a comma or the
closing mark, so an item has to be read back whatever follows. -/
theorem value?_chars {depth : Nat} {document : Document} (h : Plain depth document) :
    ∀ rest, value? .kept depth (document.chars ++ rest) = some (document, rest) := by
  induction h with
  | @null depth => intro rest; cases depth <;> rfl
  | @bool depth value => intro rest; cases depth <;> cases value <;> rfl
  | string => exact fun rest => value?_quote _ _ rest
  | @array depth items hitems ih =>
    intro rest
    have hreads : ∀ item ∈ items, Reads (value? .kept depth) ']' chars item := by
      intro item hitem
      obtain ⟨c, cs, hchars, hblank, hclose, _⟩ := (hitems item hitem).begins
      exact ⟨⟨c, cs, hchars, hblank, hclose⟩, ih item hitem⟩
    have hchars : (array items).chars ++ rest =
        '[' :: (commas (items.map chars) ++ ']' :: rest) := by
      simp [chars, charsOfItems_eq]
    rw [hchars]
    show (contents? (value? .kept depth) ']' _).bind _ = _
    rw [contents?_commas ⟨by decide, by decide⟩ items hreads rest]
    rfl
  | @object depth members hmembers ih =>
    intro rest
    have hreads : ∀ member ∈ members,
        Reads (member? .kept fun _ => value? .kept depth) '\x7d' charsOfMember member :=
      fun member hmember =>
      ⟨⟨'"', _, rfl, by decide, by decide⟩,
        member?_chars (hmembers member hmember) (ih member hmember)⟩
    have hchars : (object members).chars ++ rest =
        '\x7b' :: (commas (members.map charsOfMember) ++ '\x7d' :: rest) := by
      simp [chars, charsOfMembers_eq]
    rw [hchars]
    show (contents? (member? .kept fun _ => value? .kept depth) '\x7d' _).bind _ = _
    rw [contents?_commas ⟨by decide, by decide⟩ members hreads rest]
    rfl

/-- A text that was written is read back. -/
theorem parse?_print {document : Document} (h : Plain nesting document) :
    parse? document.print = some document := by
  obtain ⟨c, cs, hchars, hblank, _⟩ := h.begins
  have hread := value?_chars h []
  rw [List.append_nil] at hread
  have hskip : skipBlanks document.chars = document.chars := by
    rw [hchars, skipBlanks_cons hblank]
  simp only [parse?, parseBy?, print, String.toList_ofList, hskip, hread, Option.bind_eq_bind,
    Option.bind_some]
  rfl

end Document

/-! ## Processes -/

namespace Cursor

theorem plain_toDocument (cursor : Cursor) : Document.Plain Document.nesting cursor.toDocument := by
  refine .object (List.forall_mem_cons.mpr ⟨.string, List.forall_mem_cons.mpr
    ⟨.array ?_, List.forall_mem_singleton.mpr ?_⟩⟩)
  · intro item hitem
    obtain ⟨state, _, rfl⟩ := List.mem_map.mp hitem
    exact .string
  · cases cursor.reference with
    | none => exact .null
    | some reference => exact .string

/-- A cursor comes back from the document in which it is stored. -/
theorem ofDocument_toDocument (cursor : Cursor) : ofDocument cursor.toDocument = .ok cursor := by
  refine ofDocument_eq_ok_iff.mpr (.object rfl (.inr rfl) (.inr ⟨_, rfl, ?_⟩))
  cases cursor.reference with
  | none => exact .null
  | some reference => exact .string

/-- A cursor comes back from the text in which it is stored, whatever its strings are. -/
theorem ofText_toText (cursor : Cursor) : ofText cursor.toText = .ok cursor := by
  rw [ofText, toText, Document.parseKnown?_of_parse?
    (Document.parse?_print cursor.plain_toDocument)]
  show (ofDocument cursor.toDocument).mapError ReadError.data = _
  rw [ofDocument_toDocument]
  rfl

end Cursor

namespace Process

variable {σ : Type}

/-- A stored process comes back intact, whatever the strings in it are, and whether or not it
stands at the state that it visited last: from its document, from the text of it, and from any
other text with that document.  Only its checkpoint is not stored.  So a text that decodes to
a process, whichever of the members it leaves out, may be replaced by the text of that
process. -/
theorem comes_back_intact :
    (∀ process : Process σ, ∃ restored : Process σ,
      ofText process.toCursor.toText = .ok restored ∧
        ofDocument process.toCursor.toDocument = .ok restored ∧
        (∀ text, Document.parse? text = some process.toCursor.toDocument →
          ofText text = .ok restored) ∧
        restored.state = process.state ∧ restored.visited = process.visited ∧
        restored.reference = process.reference ∧ restored.checkpoint = none) ∧
    ∀ (text : String) (process : Process σ), ofText text = .ok process →
      ofText process.toCursor.toText = .ok process := by
  constructor
  · intro process
    have hdocument := process.toCursor.ofDocument_toDocument
    refine ⟨ofCursor process.toCursor, ?_, ?_, fun text htext => ?_, rfl, rfl, rfl, rfl⟩
    · exact ofText_eq_ok_iff.mpr ⟨process.toCursor.ofText_toText, rfl⟩
    · rw [ofDocument, hdocument]
      rfl
    · refine ofText_eq_ok_iff.mpr ⟨?_, rfl⟩
      simp only [Cursor.ofText, Document.parseKnown?_of_parse? htext, hdocument]
      rfl
  · intro text process hread
    obtain ⟨_, hnone⟩ := ofText_eq_ok_iff.mp hread
    exact ofText_eq_ok_iff.mpr ⟨process.toCursor.ofText_toText, hnone⟩

/-- A process that was put at a state without a name after it had visited others, and that has
an empty reference. -/
def misplaced : Process Unit where
  state := ⟨""⟩
  visited := [⟨"say \"hi\"\\\x01\n"⟩, ⟨"größe ∞ 𝄞"⟩, ⟨"wait"⟩]
  reference := some ""

/-- It comes back.  So does one that was stored with its members in another order and with blanks
between them, without a history and with `null` for the reference. -/
theorem misplaced_comes_back :
    (∃ restored : Process Unit, ofText misplaced.toCursor.toText = .ok restored ∧
      restored.state = ⟨""⟩ ∧ restored.visited = misplaced.visited ∧
      restored.reference = some "" ∧ restored.checkpoint = none) ∧
    ∃ process : Process Unit,
      ofText "\x7b \"reference\": null, \"state\": \"wait\" \x7d" = .ok process ∧
        process.toCursor = { state := .wait } ∧
        ofText process.toCursor.toText = .ok process := by
  obtain ⟨restored, hrestored, _, _, hstate, hvisited, hreference, hnone⟩ :=
    comes_back_intact.1 misplaced
  have hread : ofText "\x7b \"reference\": null, \"state\": \"wait\" \x7d" =
      .ok (ofCursor { state := .wait } : Process Unit) :=
    ofText_eq_ok_iff.mpr ⟨rfl, rfl⟩
  exact ⟨⟨restored, hrestored, hstate, hvisited, hreference, hnone⟩, _, hread, rfl,
    comes_back_intact.2 _ _ hread⟩

end Process

end Workflow
