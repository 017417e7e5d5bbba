import Workflow.Process

/-!
# Values

The entries of a context are typed. A `Value` carries its kind, and its content
can be had under that kind only: `as?_same` and `as?_other`.
-/

namespace Workflow

/-- The types of value that a context can hold. A program may put values of any type into one;
these stand for its types. Only the process of a nested run has a meaning to the engine, and
apart from that all that is stated of kinds is uniform in them: it asks of two kinds whether
they are the same, and no more. -/
inductive Kind
  | int64
  | int32
  | uint8
  | uint64
  | bool
  /-- A text. -/
  | text
  /-- A text fixed in the program; not a `text`. -/
  | label
  | unit
  /-- A list of texts. -/
  | list
  /-- The process of a run, such as that of a nested graph. -/
  | process
  deriving DecidableEq

/-- The contents of a kind. -/
@[reducible]
def Kind.Content (σ : Type) : Kind → Type
  | .int64 => Int64
  | .int32 => Int32
  | .uint8 => UInt8
  | .uint64 => UInt64
  | .bool => Bool
  | .text | .label => String
  | .unit => Unit
  | .list => List String
  | .process => Process σ

/-- A content together with its kind. -/
structure Value (σ : Type) where
  kind : Kind
  content : kind.Content σ

namespace Value

variable {σ : Type}

/-- The content of a value of the given kind. -/
def as? (value : Value σ) (kind : Kind) : Option (kind.Content σ) :=
  if h : value.kind = kind then some (h ▸ value.content) else none

@[simp]
theorem as?_same (kind : Kind) (content : kind.Content σ) :
    (Value.mk kind content).as? kind = some content := by simp [as?]

theorem as?_other {value : Value σ} {kind : Kind} (h : value.kind ≠ kind) :
    value.as? kind = none := by simp [as?, h]

theorem as?_eq_some_iff {value : Value σ} {kind : Kind} {content : kind.Content σ} :
    value.as? kind = some content ↔ value = ⟨kind, content⟩ := by
  obtain ⟨k, c⟩ := value
  constructor
  · intro h
    by_cases hkind : k = kind
    · subst hkind; simpa using h
    · simp [as?, hkind] at h
  · intro h
    cases h
    exact as?_same _ _

end Value

end Workflow
