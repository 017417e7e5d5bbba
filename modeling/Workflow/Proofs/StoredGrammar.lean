import Mathlib.Data.List.Basic
import Workflow.Proofs.Skipping
import Workflow.Stored

/-!
# Which documents store a process

A reader of a process goes over the members of an object one by one.  What it accepts is
described here without that order.

* `Cursor.StoredAs` is the grammar: an object that has each field as often as it may, or an
  array of the values of the fields.
* `Document.Taken` is what the reader knows of one field after some members.
  `foldlM_member_eq_ok_iff`: the three fields do not depend on each other.
* `ofDocument_eq_ok_iff`: a document decodes to a cursor just if the grammar says so.
* `Process.decodes_iff_storedAs` states it of processes, and of the order of the members.
-/

namespace Workflow

theorem Except.bind_eq_ok_iff {ε α β : Type} {first : Except ε α} {next : α → Except ε β}
    {value : β} : first >>= next = .ok value ↔ ∃ a, first = .ok a ∧ next a = .ok value := by
  cases first with
  | error => simp [bind, Except.bind]
  | ok a => simp [bind, Except.bind]

/-! ## The grammar -/

namespace Document

/-- The values of the members of a name, in order. -/
def valuesOf (name : String) (members : List (String × Document)) : List Document :=
  (members.filter (·.1 = name)).map (·.2)

/-- The documents that stand for a reference. -/
inductive IsReference : Document → Option String → Prop
  | null : IsReference .null none
  | string {text : String} : IsReference (.string text) (some text)

/-- The array of the names of states. -/
def ofStates (states : List StateName) : Document :=
  .array (states.map fun state => .string state.text)

end Document

namespace Cursor

open Document

/-- A cursor is stored as an object with its state as a string, at most one array of strings
for the visited states, and at most one string or `null` for the reference.  Other members
do not count.  Or it is stored as the array of these values, where the last ones may be
left out. -/
inductive StoredAs : Cursor → Document → Prop
  | object {cursor : Cursor} {members : List (String × Document)}
      (hstate : valuesOf "state" members = [.string cursor.state.text])
      (hvisited : valuesOf "visited" members = [] ∧ cursor.visited = [] ∨
        valuesOf "visited" members = [ofStates cursor.visited])
      (hreference : valuesOf "reference" members = [] ∧ cursor.reference = none ∨
        ∃ document, valuesOf "reference" members = [document] ∧
          IsReference document cursor.reference) :
      StoredAs cursor (.object members)
  | state {state : StateName} : StoredAs { state } (.array [.string state.text])
  | visited {state : StateName} {visited : List StateName} :
      StoredAs { state, visited } (.array [.string state.text, ofStates visited])
  | reference {state : StateName} {visited : List StateName} {reference : Option String}
      {document : Document} (hreference : IsReference document reference) :
      StoredAs { state, visited, reference }
        (.array [.string state.text, ofStates visited, document])

end Cursor

/-! ## The values of the fields -/

namespace Document

theorem asString_eq_ok_iff {document : Document} {text : String} :
    document.asString = .ok text ↔ document = .string text := by
  cases document <;> simp [asString]

theorem mapM_asString_eq_ok_iff {items : List Document} {texts : List String} :
    items.mapM asString = .ok texts ↔ items = texts.map .string := by
  induction items generalizing texts with
  | nil => simp [pure, Except.pure, eq_comm]
  | cons item items ih =>
    rw [List.mapM_cons, Except.bind_eq_ok_iff]
    simp only [Except.bind_eq_ok_iff, asString_eq_ok_iff, ih]
    cases texts with
    | nil => simp [pure, Except.pure]
    | cons text texts => simp [pure, Except.pure, and_comm, eq_comm]

theorem map_mk_map_text (states : List StateName) :
    (states.map StateName.text).map StateName.mk = states := by
  rw [List.map_map]
  exact List.map_id states

/-- The names of the states that an array of strings stands for. -/
theorem asStrings_eq_ok_iff {document : Document} {states : List StateName} :
    (∃ names, document.asStrings = .ok names ∧ states = names.map StateName.mk) ↔
      document = ofStates states := by
  constructor
  · rintro ⟨names, hnames, rfl⟩
    cases document with
    | array items =>
      rw [mapM_asString_eq_ok_iff.mp hnames, ofStates, List.map_map]
      rfl
    | _ => contradiction
  · rintro rfl
    refine ⟨states.map StateName.text, mapM_asString_eq_ok_iff.mpr ?_, (map_mk_map_text _).symm⟩
    rw [List.map_map]
    rfl

theorem asOptionalString_eq_ok_iff {document : Document} {reference : Option String} :
    document.asOptionalString = .ok reference ↔ IsReference document reference := by
  constructor
  · intro h
    cases document with
    | null => obtain rfl := Except.ok.inj h; exact .null
    | string text => obtain rfl := Except.ok.inj h; exact .string
    | _ => contradiction
  · rintro (_ | _) <;> rfl

/-! ## One field -/

variable {α : Type} {decode : Document → Except DecodeError α} {earlier found : Option α}

/-- The reader had found the first value of a field or none, came upon the given ones, and has
found the second value now.  A field that stands twice is an error. -/
def Taken (decode : Document → Except DecodeError α) (earlier found : Option α)
    (values : List Document) : Prop :=
  values = [] ∧ found = earlier ∨
    ∃ document value, values = [document] ∧ earlier = none ∧ decode document = .ok value ∧
      found = some value

theorem taken_nil : Taken decode earlier found [] ↔ found = earlier := by simp [Taken]

theorem taken_singleton {document : Document} (name : String) :
    Taken decode earlier found [document] ↔ once name earlier (decode document) = .ok found := by
  cases earlier with
  | none => cases hvalue : decode document <;> simp [Taken, once, Except.map, hvalue, eq_comm]
  | some value => simp [Taken, once]

theorem taken_append {first rest : List Document} :
    Taken decode earlier found (first ++ rest) ↔
      ∃ between, Taken decode earlier between first ∧ Taken decode between found rest := by
  cases first with
  | nil => simp [taken_nil]
  | cons document first =>
    constructor
    · rintro (⟨h, _⟩ | ⟨_, value, h, rfl, hvalue, rfl⟩)
      · contradiction
      · obtain ⟨rfl, hnil⟩ := List.cons.inj h
        obtain ⟨rfl, rfl⟩ := List.append_eq_nil_iff.mp hnil
        exact ⟨some value, .inr ⟨_, value, rfl, rfl, hvalue, rfl⟩, .inl ⟨rfl, rfl⟩⟩
    · rintro ⟨between, ⟨h, _⟩ | ⟨_, value, h, rfl, hvalue, rfl⟩, hrest⟩
      · contradiction
      · obtain ⟨rfl, rfl⟩ := List.cons.inj h
        rcases hrest with ⟨rfl, rfl⟩ | ⟨_, _, _, h, _⟩
        · exact .inr ⟨_, value, rfl, rfl, hvalue, rfl⟩
        · contradiction

/-- What a reader makes of a field, once it has come to the end. -/
theorem exists_taken_iff {values : List Document} {meets : Option α → Prop} :
    (∃ found, Taken decode none found values ∧ meets found) ↔
      values = [] ∧ meets none ∨
        ∃ document value, values = [document] ∧ decode document = .ok value ∧
          meets (some value) := by
  constructor
  · rintro ⟨found, ⟨hnil, rfl⟩ | ⟨document, value, hvalues, _, hvalue, rfl⟩, hmeets⟩
    · exact .inl ⟨hnil, hmeets⟩
    · exact .inr ⟨document, value, hvalues, hvalue, hmeets⟩
  · rintro (⟨hnil, hmeets⟩ | ⟨document, value, hvalues, hvalue, hmeets⟩)
    · exact ⟨none, .inl ⟨hnil, rfl⟩, hmeets⟩
    · exact ⟨some value, .inr ⟨document, value, hvalues, rfl, hvalue, rfl⟩, hmeets⟩

theorem valuesOf_cons (name : String) (member : String × Document)
    (members : List (String × Document)) :
    valuesOf name (member :: members) = valuesOf name [member] ++ valuesOf name members := by
  rw [valuesOf, ← List.singleton_append, List.filter_append, List.map_append]
  rfl

end Document

/-! ## All fields -/

namespace Cursor

open Document

/-- A member is the value of the field of its name and of no other. -/
theorem member_eq_ok_iff {fields next : Fields} {member : String × Document} :
    fields.member member = .ok next ↔
      Taken asString fields.state next.state (valuesOf "state" [member]) ∧
        Taken asStrings fields.visited next.visited (valuesOf "visited" [member]) ∧
        Taken asOptionalString fields.reference next.reference
          (valuesOf "reference" [member]) := by
  obtain ⟨name, document⟩ := member
  obtain ⟨state, visited, reference⟩ := next
  have hself : valuesOf name [(name, document)] = [document] := by simp [valuesOf]
  have hother {other : String} (hne : name ≠ other) : valuesOf other [(name, document)] = [] := by
    simp [valuesOf, hne]
  unfold Fields.member
  by_cases hstate : name = "state"
  · rw [if_pos hstate, Except.bind_eq_ok_iff, ← hstate, hself,
      hother (by rw [hstate]; decide), hother (by rw [hstate]; decide),
      taken_singleton name, taken_nil, taken_nil]
    simp [eq_comm]
  rw [if_neg hstate, hother hstate, taken_nil]
  by_cases hvisited : name = "visited"
  · rw [if_pos hvisited, Except.bind_eq_ok_iff, ← hvisited, hself,
      hother (by rw [hvisited]; decide), taken_singleton name, taken_nil]
    simp [eq_comm, and_left_comm]
  rw [if_neg hvisited, hother hvisited, taken_nil]
  by_cases hreference : name = "reference"
  · rw [if_pos hreference, Except.bind_eq_ok_iff, ← hreference, hself, taken_singleton name]
    simp [eq_comm, and_left_comm]
  · rw [if_neg hreference, hother hreference, taken_nil]
    obtain ⟨_, _, _⟩ := fields
    simp [eq_comm]

/-- The induction is on the members.  What was found between two of them splits into what was
found of each field. -/
theorem foldlM_member_eq_ok_iff {members : List (String × Document)} {fields found : Fields} :
    members.foldlM Fields.member fields = .ok found ↔
      Taken asString fields.state found.state (valuesOf "state" members) ∧
        Taken asStrings fields.visited found.visited (valuesOf "visited" members) ∧
        Taken asOptionalString fields.reference found.reference
          (valuesOf "reference" members) := by
  induction members generalizing fields with
  | nil =>
    obtain ⟨_, _, _⟩ := fields
    obtain ⟨_, _, _⟩ := found
    simp [valuesOf, taken_nil, pure, Except.pure, eq_comm]
  | cons member members ih =>
    rw [List.foldlM_cons, Except.bind_eq_ok_iff, valuesOf_cons "state",
      valuesOf_cons "visited", valuesOf_cons "reference", taken_append, taken_append, taken_append]
    simp only [member_eq_ok_iff, ih]
    constructor
    · rintro ⟨next, ⟨hstate, hvisited, hreference⟩, hstates, hvisiteds, hreferences⟩
      exact ⟨⟨_, hstate, hstates⟩, ⟨_, hvisited, hvisiteds⟩, ⟨_, hreference, hreferences⟩⟩
    · rintro ⟨⟨state, hstate, hstates⟩, ⟨visited, hvisited, hvisiteds⟩,
        ⟨reference, hreference, hreferences⟩⟩
      exact ⟨{ state, visited, reference }, ⟨hstate, hvisited, hreference⟩, hstates, hvisiteds,
        hreferences⟩

theorem cursor_eq_ok_iff {fields : Fields} {cursor : Cursor} :
    fields.cursor = .ok cursor ↔
      fields.state = some cursor.state.text ∧
        cursor.visited = (fields.visited.getD []).map StateName.mk ∧
        cursor.reference = fields.reference.getD none := by
  obtain ⟨state, visited, reference⟩ := fields
  obtain ⟨⟨text⟩, names, other⟩ := cursor
  cases state with
  | none => simp [Fields.cursor]
  | some name => simp [Fields.cursor, eq_comm]

theorem storedAs_object_iff {members : List (String × Document)} {cursor : Cursor} :
    cursor.StoredAs (.object members) ↔
      valuesOf "state" members = [.string cursor.state.text] ∧
      (valuesOf "visited" members = [] ∧ cursor.visited = [] ∨
        valuesOf "visited" members = [ofStates cursor.visited]) ∧
      (valuesOf "reference" members = [] ∧ cursor.reference = none ∨
        ∃ document, valuesOf "reference" members = [document] ∧
          IsReference document cursor.reference) := by
  constructor
  · rintro ⟨hstate, hvisited, hreference⟩
    exact ⟨hstate, hvisited, hreference⟩
  · rintro ⟨hstate, hvisited, hreference⟩
    exact .object hstate hvisited hreference

theorem ofDocument_object_eq_ok_iff {members : List (String × Document)} {cursor : Cursor} :
    ofDocument (.object members) = .ok cursor ↔ cursor.StoredAs (.object members) := by
  have hfields : ofDocument (.object members) = .ok cursor ↔
      (∃ found, Taken asString none found (valuesOf "state" members) ∧
        found = some cursor.state.text) ∧
      (∃ found, Taken asStrings none found (valuesOf "visited" members) ∧
        cursor.visited = (found.getD []).map StateName.mk) ∧
      ∃ found, Taken asOptionalString none found (valuesOf "reference" members) ∧
        cursor.reference = found.getD none := by
    show members.foldlM Fields.member {} >>= Fields.cursor = .ok cursor ↔ _
    rw [Except.bind_eq_ok_iff]
    simp only [foldlM_member_eq_ok_iff, cursor_eq_ok_iff]
    constructor
    · rintro ⟨fields, ⟨hstate, hvisited, hreference⟩, hname, hstates, hother⟩
      exact ⟨⟨_, hstate, hname⟩, ⟨_, hvisited, hstates⟩, ⟨_, hreference, hother⟩⟩
    · rintro ⟨⟨state, hstate, hname⟩, ⟨visited, hvisited, hstates⟩,
        ⟨reference, hreference, hother⟩⟩
      exact ⟨{ state, visited, reference }, ⟨hstate, hvisited, hreference⟩, hname, hstates, hother⟩
  rw [hfields, storedAs_object_iff, exists_taken_iff, exists_taken_iff, exists_taken_iff]
  simp only [asString_eq_ok_iff, asOptionalString_eq_ok_iff, Option.getD_some, Option.getD_none,
    exists_and_left, asStrings_eq_ok_iff]
  simp

/-! ## Both forms -/

/-- The array form is read as the object of its values in the order of the fields. -/
theorem ofDocument_array_state (state : Document) :
    ofDocument (.array [state]) = ofDocument (.object [("state", state)]) := by
  show state.asString >>= _ = once "state" none state.asString >>= _ >>= _ >>= _
  cases state.asString <;> rfl

theorem ofDocument_array_visited (state visited : Document) :
    ofDocument (.array [state, visited]) =
      ofDocument (.object [("state", state), ("visited", visited)]) := by
  show state.asString >>= _ = once "state" none state.asString >>= _ >>= _ >>= _
  cases state.asString with
  | error => rfl
  | ok text =>
    show visited.asStrings >>= _ = once "visited" none visited.asStrings >>= _ >>= _ >>= _
    cases visited.asStrings <;> rfl

theorem ofDocument_array_reference (state visited reference : Document) :
    ofDocument (.array [state, visited, reference]) =
      ofDocument (.object [("state", state), ("visited", visited), ("reference", reference)]) := by
  show state.asString >>= _ = once "state" none state.asString >>= _ >>= _ >>= _
  cases state.asString with
  | error => rfl
  | ok text =>
    show visited.asStrings >>= _ = once "visited" none visited.asStrings >>= _ >>= _ >>= _
    cases visited.asStrings with
    | error => rfl
    | ok texts =>
      show reference.asOptionalString >>= _ =
        once "reference" none reference.asOptionalString >>= _ >>= _ >>= _
      cases reference.asOptionalString <;> rfl

/-- A document decodes to a cursor just if it is one of the forms in which the cursor is
stored. -/
theorem ofDocument_eq_ok_iff {document : Document} {cursor : Cursor} :
    ofDocument document = .ok cursor ↔ cursor.StoredAs document := by
  obtain ⟨state, visited, reference⟩ := cursor
  cases document with
  | object members => exact ofDocument_object_eq_ok_iff
  | array items =>
    match items with
    | [] => exact ⟨fun h => by contradiction, fun h => by cases h⟩
    | [first] =>
      rw [ofDocument_array_state, ofDocument_object_eq_ok_iff]
      constructor
      · intro h
        obtain ⟨rfl, rfl, rfl⟩ : first = .string state.text ∧ visited = [] ∧ reference = none := by
          simpa [valuesOf] using storedAs_object_iff.mp h
        exact .state
      · rintro ⟨⟩
        exact .object rfl (.inl ⟨rfl, rfl⟩) (.inl ⟨rfl, rfl⟩)
    | [first, second] =>
      rw [ofDocument_array_visited, ofDocument_object_eq_ok_iff]
      constructor
      · intro h
        obtain ⟨rfl, rfl, rfl⟩ :
            first = .string state.text ∧ second = ofStates visited ∧ reference = none := by
          simpa [valuesOf] using storedAs_object_iff.mp h
        exact .visited
      · rintro ⟨⟩
        exact .object rfl (.inr rfl) (.inl ⟨rfl, rfl⟩)
    | [first, second, third] =>
      rw [ofDocument_array_reference, ofDocument_object_eq_ok_iff]
      constructor
      · intro h
        obtain ⟨rfl, rfl, hreference⟩ : first = .string state.text ∧ second = ofStates visited ∧
            IsReference third reference := by
          simpa [valuesOf] using storedAs_object_iff.mp h
        exact .reference hreference
      · intro h
        cases h with
        | reference hreference => exact .object rfl (.inr rfl) (.inr ⟨_, rfl, hreference⟩)
    | _ :: _ :: _ :: _ :: _ => exact ⟨fun h => by contradiction, fun h => by cases h⟩
  | _ => exact ⟨fun h => by contradiction, fun h => by cases h⟩

theorem ofText_eq_ok_iff {text : String} {cursor : Cursor} :
    ofText text = .ok cursor ↔
      ∃ document, parseKnown? fieldNames text = some document ∧ cursor.StoredAs document := by
  rw [ofText]
  cases parseKnown? fieldNames text with
  | none => simp
  | some document =>
    simp only [Option.some.injEq, exists_eq_left', ← ofDocument_eq_ok_iff]
    cases ofDocument document <;> simp [Except.mapError]

/-! ## The order of the members -/

/-- The members that a reader knows. -/
def known (members : List (String × Document)) : List (String × Document) :=
  members.filter fun member => member.1 ∈ fieldNames

theorem valuesOf_known {name : String} (hname : name ∈ fieldNames)
    (members : List (String × Document)) : valuesOf name (known members) = valuesOf name members := by
  rw [valuesOf, known, List.filter_filter, valuesOf]
  refine congrArg _ (List.filter_congr fun member _ => ?_)
  by_cases h : member.1 = name
  · simp [h, hname]
  · simp [h]

/-- Neither the order of the members that a reader knows nor the other members matter. -/
theorem storedAs_object_of_perm {members others : List (String × Document)} {cursor : Cursor}
    (hperm : (known members).Perm (known others)) (h : cursor.StoredAs (.object members)) :
    cursor.StoredAs (.object others) := by
  have hvalues {name : String} (hname : name ∈ fieldNames) :
      (valuesOf name others).Perm (valuesOf name members) := by
    rw [← valuesOf_known hname others, ← valuesOf_known hname members]
    exact ((hperm.filter _).map _).symm
  obtain ⟨hstate, hvisited, hreference⟩ := storedAs_object_iff.mp h
  have hstates : (valuesOf "state" others).Perm (valuesOf "state" members) := hvalues (by decide)
  have hvisiteds : (valuesOf "visited" others).Perm (valuesOf "visited" members) :=
    hvalues (by decide)
  have hreferences : (valuesOf "reference" others).Perm (valuesOf "reference" members) :=
    hvalues (by decide)
  refine .object ?_ ?_ ?_
  · rw [hstate] at hstates
    exact List.perm_singleton.mp hstates
  · rcases hvisited with ⟨hnil, hdefault⟩ | hone
    · rw [hnil] at hvisiteds
      exact .inl ⟨List.perm_nil.mp hvisiteds, hdefault⟩
    · rw [hone] at hvisiteds
      exact .inr (List.perm_singleton.mp hvisiteds)
  · rcases hreference with ⟨hnil, hdefault⟩ | ⟨document, hone, hvalue⟩
    · rw [hnil] at hreferences
      exact .inl ⟨List.perm_nil.mp hreferences, hdefault⟩
    · rw [hone] at hreferences
      exact .inr ⟨document, List.perm_singleton.mp hreferences, hvalue⟩

end Cursor

namespace Process

open Document

variable {σ : Type}

theorem ofDocument_eq_ok_iff {document : Document} {process : Process σ} :
    ofDocument document = .ok process ↔
      process.toCursor.StoredAs document ∧ process.checkpoint = none := by
  obtain ⟨cursor, checkpoint⟩ := process
  rw [ofDocument, ← Cursor.ofDocument_eq_ok_iff]
  cases Cursor.ofDocument document with
  | error error => simp [Except.map]
  | ok read => simp [Except.map, ofCursor, eq_comm]

/-- What is read is a process without a checkpoint. -/
theorem ofText_eq_ok_iff {text : String} {process : Process σ} :
    ofText text = .ok process ↔
      Cursor.ofText text = .ok process.toCursor ∧ process.checkpoint = none := by
  obtain ⟨cursor, checkpoint⟩ := process
  rw [ofText]
  cases Cursor.ofText text with
  | error error => simp [Except.map]
  | ok read => simp [Except.map, ofCursor, eq_comm]

/-- Which documents decode to which processes.  A document decodes if, and only if, it is of
the grammar, and the process is the one that the grammar says, without a checkpoint; so is the
text of a document.  A text also decodes if only the values of members that the reader does not
know keep it from being one, since these are skipped.  Neither the order of the members matters
nor members that the reader does not know, and the array form is read as the object of the same
values. -/
theorem decodes_iff_storedAs :
    (∀ (document : Document) (process : Process σ), ofDocument document = .ok process ↔
      process.toCursor.StoredAs document ∧ process.checkpoint = none) ∧
    (∀ (text : String) (document : Document), parse? text = some document →
      ∀ process : Process σ, ofText text = .ok process ↔
        process.toCursor.StoredAs document ∧ process.checkpoint = none) ∧
    (∀ (text : String) (process : Process σ), ofText text = .ok process ↔
      ∃ document, parseKnown? Cursor.fieldNames text = some document ∧
        process.toCursor.StoredAs document ∧ process.checkpoint = none) ∧
    (∀ members others : List (String × Document),
      (Cursor.known members).Perm (Cursor.known others) → ∀ process : Process σ,
        (ofDocument (.object members) = .ok process ↔ ofDocument (.object others) = .ok process)) ∧
    ∀ state visited reference : Document,
      (ofDocument (.array [state]) : Except _ (Process σ)) =
          ofDocument (.object [("state", state)]) ∧
        (ofDocument (.array [state, visited]) : Except _ (Process σ)) =
          ofDocument (.object [("state", state), ("visited", visited)]) ∧
        (ofDocument (.array [state, visited, reference]) : Except _ (Process σ)) =
          ofDocument (.object
            [("state", state), ("visited", visited), ("reference", reference)]) := by
  have htext (text : String) (process : Process σ) : ofText text = .ok process ↔
      ∃ document, parseKnown? Cursor.fieldNames text = some document ∧
        process.toCursor.StoredAs document ∧ process.checkpoint = none := by
    rw [ofText_eq_ok_iff, Cursor.ofText_eq_ok_iff]
    simp only [exists_and_right, ← and_assoc]
  refine ⟨fun _ _ => ofDocument_eq_ok_iff, fun text document hparse process => ?_, htext, ?_, ?_⟩
  · simp only [htext, parseKnown?_of_parse? hparse, Option.some.injEq, exists_eq_left']
  · intro members others hperm process
    rw [ofDocument_eq_ok_iff, ofDocument_eq_ok_iff]
    exact and_congr_left fun _ =>
      ⟨Cursor.storedAs_object_of_perm hperm, Cursor.storedAs_object_of_perm hperm.symm⟩
  · intro state visited reference
    exact ⟨congrArg (Except.map ofCursor) (Cursor.ofDocument_array_state state),
      congrArg (Except.map ofCursor) (Cursor.ofDocument_array_visited state visited),
      congrArg (Except.map ofCursor) (Cursor.ofDocument_array_reference state visited reference)⟩

/-- A process that docked and waits. -/
def ashore : Process Unit where
  state := .wait
  visited := [⟨"dock"⟩, .wait]
  reference := some "north"

/-- The members of the object in which it is stored, out of order and with one that no reader
knows, and which stands twice. -/
def shuffled : List (String × Document) :=
  [ ("crew", .array [.bool true]), ("visited", .array [.string "dock", .string "wait"])
  , ("reference", .string "north"), ("crew", .null), ("state", .string "wait") ]

/-- A text that is no document, but only because of the crew in it: the number is too large, and
the string has half a character. -/
def smudged : String := "\x7b\"crew\": [1e999, \"\\ud800\"], \"state\": \"wait\"\x7d"

/-- It decodes from these members, from their text, from the members in order and from the array
of their values; it does not once a member that the reader knows stands twice.  The smudged text
decodes to a process without a history. -/
theorem ashore_decodes :
    ofDocument (.object shuffled) = .ok ashore ∧
    ofText ("\x7b\"visited\": [\"dock\", \"wait\"], \"crew\": \x7b\x7d, " ++
      "\"reference\": \"north\", \"state\": \"wait\"\x7d") = .ok ashore ∧
    parse? smudged = none ∧ ofText smudged = .ok (ofCursor { state := .wait } : Process Unit) ∧
    ofDocument ashore.toDocument = .ok ashore ∧
    ofDocument (.array [.string "wait", .array [.string "dock", .string "wait"],
      .string "north"]) = .ok ashore ∧
    ofDocument (.object (("state", .string "wait") :: shuffled)) ≠ .ok ashore := by
  obtain ⟨hdocument, htext, _, horder, hforms⟩ := decodes_iff_storedAs (σ := Unit)
  have hshuffled : ofDocument (.object shuffled) = .ok ashore :=
    (hdocument _ _).mpr ⟨.object rfl (.inr rfl) (.inr ⟨_, rfl, .string⟩), rfl⟩
  have hperm : (Cursor.known [("state", .string "wait"),
      ("visited", .array [.string "dock", .string "wait"]), ("reference", .string "north")]).Perm
      (Cursor.known shuffled) :=
    (List.perm_append_singleton _ [_, _]).symm
  have hsorted := (horder _ _ hperm ashore).mpr hshuffled
  have hsmudged : (parse? smudged).isNone := by decide +kernel
  refine ⟨hshuffled, ?_, Option.isNone_iff_eq_none.mp hsmudged, ?_, hsorted, ?_, fun htwice => ?_⟩
  · refine (htext _ (.object [("visited", .array [.string "dock", .string "wait"]),
      ("crew", .object []), ("reference", .string "north"), ("state", .string "wait")])
      (by cbv) _).mpr ?_
    exact ⟨.object rfl (.inr rfl) (.inr ⟨_, rfl, .string⟩), rfl⟩
  · exact ofText_eq_ok_iff.mpr ⟨by decide +kernel, rfl⟩
  · exact (hforms _ _ _).2.2.trans hsorted
  · obtain ⟨hgrammar, _⟩ := (hdocument _ _).mp htwice
    have hone := (Cursor.storedAs_object_iff.mp hgrammar).1
    cases congrArg List.length hone

end Process

end Workflow
