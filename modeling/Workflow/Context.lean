import Workflow.Table
import Workflow.Value

/-!
# Contexts

A context is what a run works on: typed data by name, and the record of the
last failure. The two are independent: `data_recordFailure` and
`failure_insert` with their companions. A failed context stays failed
(`isFailure_recordFailure`, `isFailure_takeException`), and a later failure
replaces the record of an earlier one, its exception included.

* `get_insert`, `get_erase`: what writing and removing do to reading.
* `missing`: which of the required keys a context lacks, in the order given.
-/

namespace Workflow

/-- The record of a failure: its message, and the fault attached to it. -/
structure Failure where
  message : String
  exception : Option Fault := none
  deriving DecidableEq

/-- The data of a run and its outcome so far. -/
structure Context (σ : Type) where
  data : Table (Value σ) := ∅
  failure : Option Failure := none

namespace Context

variable {σ : Type}

/-- The context without data, not failed. -/
def empty : Context σ := {}

instance : Inhabited (Context σ) := ⟨empty⟩

/-! ## Data -/

/-- Sets the value of a key. -/
def insert (context : Context σ) (key : String) (value : Value σ) : Context σ :=
  { context with data := context.data.insert key value }

/-- The content under a key, if it is of the given kind. -/
def get (context : Context σ) (kind : Kind) (key : String) : Option (kind.Content σ) :=
  (context.data.get? key).bind (·.as? kind)

/-- Changes the content under a key, if it is of the given kind. -/
def modify (context : Context σ) (kind : Kind) (key : String)
    (change : kind.Content σ → kind.Content σ) : Context σ :=
  match context.get kind key with
  | some content => context.insert key ⟨kind, change content⟩
  | none => context

/-- Drops a key with its value. -/
def erase (context : Context σ) (key : String) : Context σ :=
  { context with data := context.data.erase key }

/-- Drops a key and answers its content. The value of a key is dropped also when
it is of another kind, and then there is no answer. -/
def remove (context : Context σ) (kind : Kind) (key : String) :
    Option (kind.Content σ) × Context σ :=
  (context.get kind key, context.erase key)

/-- Whether a key has a value of any kind. -/
def contains (context : Context σ) (key : String) : Bool := context.data.contains key

/-- The keys that have a value. -/
def keys (context : Context σ) : List String := context.data.keys

/-- The number of keys that have a value. -/
def size (context : Context σ) : Nat := context.data.size

/-- The required keys that have no value, in the order given. -/
def missing (context : Context σ) (required : List String) : List String :=
  required.filter fun key => !context.contains key

/-! ## Outcome -/

/-- Whether the context was failed. -/
def isFailure (context : Context σ) : Bool := context.failure.isSome

/-- Whether the context was never failed. -/
def isSuccess (context : Context σ) : Bool := !context.isFailure

/-- The message of the last failure. -/
def message (context : Context σ) : Option String := context.failure.map (·.message)

/-- The fault attached to the last failure. -/
def exception (context : Context σ) : Option Fault := context.failure.bind (·.exception)

/-- Takes the attached fault out; the context stays failed. -/
def takeException (context : Context σ) : Option Fault × Context σ :=
  (context.exception,
    { context with failure := context.failure.map ({ · with exception := none }) })

/-- Records a failure over an earlier one. -/
def recordFailure (context : Context σ) (message : String) (exception : Option Fault) :
    Context σ :=
  { context with failure := some { message, exception } }

/-- Fails the context and answers the halt to stop with. An exception attached
earlier is cleared. -/
def fail (context : Context σ) (message : String) : Halt × Context σ :=
  ({ message }, context.recordFailure message none)

/-- Fails the context with the fault that caused the failure. -/
def failWith (context : Context σ) (message : String) (exception : Fault) :
    Halt × Context σ :=
  ({ message }, context.recordFailure message (some exception))

/-- The context shows the names of its data, not the values. -/
def outline (context : Context σ) : Outline :=
  .record "Context"
    [ ("keys", .list (context.keys.map fun key => (ContextKey.mk key).outline))
    , ("failure", .ofBool context.isFailure)
    , ("message", .ofOption (context.message.map .quoted))
    , ("exception", .ofOption (context.exception.map Fault.outline)) ]

/-! ## How the operations act on each other -/

theorem get_insert (context : Context σ) (key other : String) (value : Value σ)
    (kind : Kind) :
    (context.insert key value).get kind other =
      if key = other then value.as? kind else context.get kind other := by
  simp only [get, insert, Table.get?_insert]
  split <;> rfl

@[simp]
theorem get_insert_self (context : Context σ) (key : String) (kind : Kind)
    (content : kind.Content σ) :
    (context.insert key ⟨kind, content⟩).get kind key = some content := by
  simp [get_insert]

theorem get_erase (context : Context σ) (key other : String) (kind : Kind) :
    (context.erase key).get kind other =
      if key = other then none else context.get kind other := by
  simp only [get, erase, Table.get?_erase]
  split <;> rfl

theorem insert_insert (context : Context σ) (key : String) (value later : Value σ) :
    (context.insert key value).insert key later = context.insert key later := by
  refine congrArg (Context.mk · context.failure) (Table.ext_get? fun other => ?_)
  simp only [insert, Table.get?_insert]
  split <;> rfl

theorem insert_of_get {context : Context σ} {key : String} {kind : Kind}
    {content : kind.Content σ} (h : context.get kind key = some content) :
    context.insert key ⟨kind, content⟩ = context := by
  obtain ⟨value, hvalue, hkind⟩ := Option.bind_eq_some_iff.mp h
  refine congrArg (Context.mk · context.failure) (Table.ext_get? fun other => ?_)
  rw [Table.get?_insert]
  split
  · rename_i hother
    rw [← hother, hvalue, Value.as?_eq_some_iff.mp hkind]
  · rfl

/-- A change and its inverse, one after the other, leave a context as it was. -/
theorem modify_modify {context : Context σ} {kind : Kind} {key : String}
    {change undo : kind.Content σ → kind.Content σ}
    (hundo : ∀ content, undo (change content) = content) :
    (context.modify kind key change).modify kind key undo = context := by
  cases hcontent : context.get kind key with
  | none => simp only [modify, hcontent]
  | some content =>
    simp only [modify, hcontent, get_insert_self, hundo]
    rw [insert_insert, insert_of_get hcontent]

@[simp]
theorem failure_insert (context : Context σ) (key : String) (value : Value σ) :
    (context.insert key value).failure = context.failure := rfl

@[simp]
theorem failure_erase (context : Context σ) (key : String) :
    (context.erase key).failure = context.failure := rfl

@[simp]
theorem failure_modify (context : Context σ) (kind : Kind) (key : String)
    (change : kind.Content σ → kind.Content σ) :
    (context.modify kind key change).failure = context.failure := by
  unfold modify
  split <;> rfl

@[simp]
theorem data_recordFailure (context : Context σ) (message : String)
    (exception : Option Fault) :
    (context.recordFailure message exception).data = context.data := rfl

@[simp]
theorem data_takeException (context : Context σ) :
    context.takeException.2.data = context.data := rfl

@[simp]
theorem isFailure_recordFailure (context : Context σ) (message : String)
    (exception : Option Fault) :
    (context.recordFailure message exception).isFailure := rfl

@[simp]
theorem isFailure_takeException (context : Context σ) :
    context.takeException.2.isFailure = context.isFailure := by
  simp [takeException, isFailure]

end Context

end Workflow
