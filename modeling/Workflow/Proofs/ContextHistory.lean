import Mathlib.Data.List.Basic
import Mathlib.Data.List.Induction
import Workflow.Context

/-!
# The history of a context

What a context holds is told by the calls that were made on it since it was new.

* `Context.Change` names these calls, and `Context.after` is the context that some of them leave.
* `LastSet` is how the last write wins: something was set, and since then it was at most changed
  in place.  `foldl_overwrite_eq_some_iff` finds it in what the calls leave.
* `Context.Holds` is that for the value under a key, and `Context.Records` for the failure.
  `get?_after` and `failure_after`: they are what the context has.
* `data_after_filter` and `failure_after_filter`: each of the two depends on its own calls.
* `Context.last_write_wins` states it all.
-/

namespace Workflow

variable {σ : Type}

/-! ## The last write -/

section LastSet

variable {α β : Type} {sets : α → Option (Option β)} {update : β → α → β}

/-- What is there after a change: what the change sets, if it does, or drops, and otherwise what
was there, changed in place. -/
def overwrite (sets : α → Option (Option β)) (update : β → α → β) (old : Option β) (change : α) :
    Option β :=
  (sets change).getD (old.map (update · change))

/-- A change set something, no later one set or dropped it, and with their changes in place it is
the given value. -/
def LastSet (sets : α → Option (Option β)) (update : β → α → β) (changes : List α) (value : β) :
    Prop :=
  ∃ earlier change later first, changes = earlier ++ change :: later ∧
    sets change = some (some first) ∧ (∀ other ∈ later, sets other = none) ∧
    later.foldl update first = value

theorem not_lastSet_nil {value : β} : ¬ LastSet sets update [] value := by
  rintro ⟨earlier, change, later, _, hsplit, _⟩
  simp at hsplit

theorem lastSet_concat {changes : List α} {last : α} {value : β} :
    LastSet sets update (changes ++ [last]) value ↔
      sets last = some (some value) ∨
        sets last = none ∧ ∃ old, LastSet sets update changes old ∧ update old last = value := by
  constructor
  · rintro ⟨earlier, change, later, first, hsplit, hset, hlater, rfl⟩
    rcases List.eq_nil_or_concat' later with rfl | ⟨later, other, rfl⟩
    · obtain ⟨rfl, hlast⟩ := List.append_inj' hsplit rfl
      obtain rfl := List.singleton_inj.mp hlast
      exact .inl hset
    · rw [← List.cons_append, ← List.append_assoc] at hsplit
      obtain ⟨rfl, hlast⟩ := List.append_inj' hsplit rfl
      obtain rfl := List.singleton_inj.mp hlast
      rw [List.forall_mem_append, List.forall_mem_singleton] at hlater
      exact .inr ⟨hlater.2, _, ⟨earlier, change, later, first, rfl, hset, hlater.1, rfl⟩,
        by rw [List.foldl_append]; rfl⟩
  · rintro (hset | ⟨hkeeps, old, ⟨earlier, change, later, first, rfl, hset, hlater, rfl⟩, rfl⟩)
    · exact ⟨changes, last, [], value, rfl, hset, List.forall_mem_nil _, rfl⟩
    · refine ⟨earlier, change, later ++ [last], first, List.append_assoc .., hset, ?_, ?_⟩
      · exact List.forall_mem_append.mpr ⟨hlater, List.forall_mem_singleton.mpr hkeeps⟩
      · rw [List.foldl_append]
        rfl

/-- After all changes there is what was last set. -/
theorem foldl_overwrite_eq_some_iff {changes : List α} {value : β} :
    changes.foldl (overwrite sets update) none = some value ↔
      LastSet sets update changes value := by
  induction changes using List.reverseRecOn generalizing value with
  | nil => simp [not_lastSet_nil]
  | append_singleton changes last ih =>
    rw [List.foldl_append, List.foldl_cons, List.foldl_nil, lastSet_concat]
    cases hset : sets last with
    | some set => simp [overwrite, hset]
    | none => simp [overwrite, hset, ih]

end LastSet

/-- The value after a change in place, which can be made to contents of one kind only. -/
def Value.modify (value : Value σ) (kind : Kind) (change : kind.Content σ → kind.Content σ) :
    Value σ :=
  match value.as? kind with
  | some content => ⟨kind, change content⟩
  | none => value

namespace Context

/-! ## Calls on a context -/

/-- A call that may change a context. -/
inductive Change (σ : Type)
  | insert (key : String) (value : Value σ)
  /-- A write in place, through access to the content. -/
  | modify (kind : Kind) (key : String) (change : kind.Content σ → kind.Content σ)
  | remove (kind : Kind) (key : String)
  | fail (message : String)
  | failWith (message : String) (exception : Fault)
  | takeException

/-- What a call leaves. -/
def apply (context : Context σ) : Change σ → Context σ
  | .insert key value => context.insert key value
  | .modify kind key change => context.modify kind key change
  | .remove kind key => (context.remove kind key).2
  | .fail message => (context.fail message).2
  | .failWith message exception => (context.failWith message exception).2
  | .takeException => context.takeException.2

/-- What the calls leave of a new context. -/
def after (changes : List (Change σ)) : Context σ := changes.foldl apply .empty

namespace Change

/-- Whether a call is about the data. -/
def isData : Change σ → Bool
  | .insert .. | .modify .. | .remove .. => true
  | .fail _ | .failWith .. | .takeException => false

/-- What a call puts under the key; a removal puts nothing there, whatever the kind. -/
def puts (key : String) : Change σ → Option (Option (Value σ))
  | .insert other value => if other = key then some (some value) else none
  | .remove _ other => if other = key then some none else none
  | .modify .. | .fail _ | .failWith .. | .takeException => none

/-- What a call makes of the value under the key in place. -/
def rewrites (key : String) (value : Value σ) : Change σ → Value σ
  | .modify kind other change => if other = key then value.modify kind change else value
  | .insert .. | .remove .. | .fail _ | .failWith .. | .takeException => value

/-- The failure that a call records. -/
def failure? : Change σ → Option Failure
  | .fail message => some { message }
  | .failWith message exception => some { message, exception := some exception }
  | .insert .. | .modify .. | .remove .. | .takeException => none

/-- A failure that a call records takes the place of an earlier one. -/
def marks (change : Change σ) : Option (Option Failure) := change.failure?.map some

/-- What a call leaves of the record of a failure. -/
def strips (failure : Failure) : Change σ → Failure
  | .takeException => { failure with exception := none }
  | .insert .. | .modify .. | .remove .. | .fail _ | .failWith .. => failure

end Change

variable {context : Context σ} {changes : List (Change σ)}

theorem get?_modify (context : Context σ) (kind : Kind) (key other : String)
    (change : kind.Content σ → kind.Content σ) :
    (context.modify kind key change).data.get? other =
      if key = other then (context.data.get? other).map (·.modify kind change)
      else context.data.get? other := by
  by_cases hkey : key = other
  · subst hkey
    rw [if_pos rfl, modify, get]
    cases hvalue : context.data.get? key with
    | none => simp [hvalue]
    | some value =>
      rw [Option.bind_some, Option.map_some, Value.modify]
      cases value.as? kind with
      | none => exact hvalue
      | some content => exact Table.get?_insert_self ..
  · rw [if_neg hkey, modify]
    split
    · exact (Table.get?_insert ..).trans (if_neg hkey)
    · rfl

theorem get?_apply (context : Context σ) (change : Change σ) (key : String) :
    (context.apply change).data.get? key =
      overwrite (Change.puts key) (Change.rewrites key) (context.data.get? key) change := by
  cases change with
  | insert other value =>
    simp only [apply, insert, Table.get?_insert, overwrite, Change.puts]
    split <;> simp [Change.rewrites]
  | modify kind other change =>
    simp only [apply, get?_modify, overwrite, Change.puts, Option.getD_none, Change.rewrites]
    split <;> simp
  | remove kind other =>
    simp only [apply, remove, erase, Table.get?_erase, overwrite, Change.puts]
    split <;> simp [Change.rewrites]
  | fail | failWith | takeException =>
    simp [apply, fail, failWith, overwrite, Change.puts, Change.rewrites]

theorem failure_apply (context : Context σ) (change : Change σ) :
    (context.apply change).failure =
      overwrite Change.marks Change.strips context.failure change := by
  cases change with
  | insert | modify | remove =>
    simp [apply, remove, overwrite, Change.marks, Change.failure?, Change.strips]
  | fail | failWith | takeException =>
    simp [apply, fail, failWith, takeException, recordFailure, overwrite, Change.marks,
      Change.failure?, Change.strips]

/-! ## What is there in the end -/

/-- The value is under the key: a call put a value there, no later one put another there or
removed it, and with what the later ones made of it in place it is this value. -/
def Holds (changes : List (Change σ)) (key : String) (value : Value σ) : Prop :=
  LastSet (Change.puts key) (Change.rewrites key) changes value

/-- The failure is recorded: it is what the last call to fail recorded, and what the later ones
left of it. -/
def Records (changes : List (Change σ)) (failure : Failure) : Prop :=
  LastSet Change.marks Change.strips changes failure

theorem get?_after {key : String} {value : Value σ} :
    (after changes).data.get? key = some value ↔ Holds changes key value := by
  have hfold : (after changes).data.get? key =
      changes.foldl (overwrite (Change.puts key) (Change.rewrites key)) none :=
    (List.foldl_hom (fun context : Context σ => context.data.get? key) fun context change =>
      (get?_apply context change key).symm).symm
  rw [hfold, foldl_overwrite_eq_some_iff, Holds]

theorem failure_after {failure : Failure} :
    (after changes).failure = some failure ↔ Records changes failure := by
  have hfold : (after changes).failure =
      changes.foldl (overwrite Change.marks Change.strips) none :=
    (List.foldl_hom (fun context : Context σ => context.failure) fun context change =>
      (failure_apply context change).symm).symm
  rw [hfold, foldl_overwrite_eq_some_iff, Records]

/-! ## Reading a context -/

theorem get_after {kind : Kind} {key : String} {content : kind.Content σ} :
    (after changes).get kind key = some content ↔ Holds changes key ⟨kind, content⟩ := by
  simp only [get, Option.bind_eq_some_iff, Value.as?_eq_some_iff, exists_eq_right, get?_after]

theorem contains_after {key : String} :
    (after changes).contains key ↔ ∃ value, Holds changes key value := by
  simp only [contains, Table.contains, Option.isSome_iff_exists, get?_after]

theorem missing_eq (context : Context σ) (required : List String) :
    context.missing required = required.filter fun key => decide (key ∉ context.keys) := by
  refine List.filter_congr fun key _ => ?_
  rw [decide_not, keys, contains, Table.contains]
  simp only [Table.mem_keys_iff, Bool.decide_eq_true]

/-! ## The two halves -/

theorem failure_apply_of_isData {change : Change σ} (hdata : change.isData) (context : Context σ) :
    (context.apply change).failure = context.failure := by
  cases change with
  | insert | remove => rfl
  | modify kind key change => exact failure_modify ..
  | _ => contradiction

theorem data_apply_of_not_isData {change : Change σ} (hdata : ¬ change.isData)
    (context : Context σ) : (context.apply change).data = context.data := by
  cases change with
  | fail | failWith | takeException => rfl
  | _ => exact absurd rfl hdata

/-- What a call does to the data depends on the data alone. -/
theorem data_apply_congr {other : Context σ} (hdata : context.data = other.data)
    (change : Change σ) : (context.apply change).data = (other.apply change).data := by
  refine Table.ext_get? fun key => ?_
  rw [get?_apply, get?_apply, hdata]

/-- What a call does to the record of a failure depends on that record alone. -/
theorem failure_apply_congr {other : Context σ} (hfailure : context.failure = other.failure)
    (change : Change σ) : (context.apply change).failure = (other.apply change).failure := by
  rw [failure_apply, failure_apply, hfailure]

theorem after_concat (changes : List (Change σ)) (last : Change σ) :
    after (changes ++ [last]) = (after changes).apply last := by
  rw [after, List.foldl_append]
  rfl

/-- Without the other calls the data would be the same. -/
theorem data_after_filter (changes : List (Change σ)) :
    (after (changes.filter (·.isData))).data = (after changes).data := by
  induction changes using List.reverseRecOn with
  | nil => rfl
  | append_singleton changes last ih =>
    rw [after_concat, List.filter_append]
    by_cases hlast : last.isData
    · rw [List.filter_cons_of_pos hlast, List.filter_nil, after_concat]
      exact data_apply_congr ih last
    · rw [List.filter_cons_of_neg hlast, List.filter_nil, List.append_nil, ih]
      exact (data_apply_of_not_isData hlast _).symm

/-- Without the calls on the data the record of a failure would be the same. -/
theorem failure_after_filter (changes : List (Change σ)) :
    (after (changes.filter (!·.isData))).failure = (after changes).failure := by
  induction changes using List.reverseRecOn with
  | nil => rfl
  | append_singleton changes last ih =>
    rw [after_concat, List.filter_append]
    by_cases hlast : last.isData
    · rw [List.filter_cons_of_neg (by simp [hlast]), List.filter_nil, List.append_nil, ih]
      exact (failure_apply_of_isData hlast _).symm
    · rw [List.filter_cons_of_pos (by simp [hlast]), List.filter_nil, after_concat]
      exact failure_apply_congr ih last

/-! ## The last failure -/

theorem isFailure_apply (context : Context σ) (change : Change σ) :
    (context.apply change).isFailure = (context.isFailure || change.failure?.isSome) := by
  rw [isFailure, failure_apply, overwrite, Change.marks]
  cases change.failure? <;> simp [isFailure]

theorem isFailure_after :
    (after changes).isFailure ↔ ∃ change ∈ changes, change.failure?.isSome := by
  induction changes using List.reverseRecOn with
  | nil => simp [after, empty, isFailure]
  | append_singleton changes last ih =>
    rw [after_concat, isFailure_apply, Bool.or_eq_true, ih]
    simp [or_and_right, exists_or]

theorem message_foldl_strips (later : List (Change σ)) (failure : Failure) :
    (later.foldl Change.strips failure).message = failure.message := by
  induction later generalizing failure with
  | nil => rfl
  | cons change later ih =>
    rw [List.foldl_cons, ih]
    cases change <;> rfl

theorem exception_foldl_strips_of_none {later : List (Change σ)} {failure : Failure}
    (hnone : failure.exception = none) : (later.foldl Change.strips failure).exception = none := by
  induction later generalizing failure with
  | nil => exact hnone
  | cons change later ih =>
    refine ih ?_
    cases change with
    | takeException => rfl
    | _ => exact hnone

theorem exception_foldl_strips_of_taken {later : List (Change σ)} {failure : Failure}
    (htaken : .takeException ∈ later) : (later.foldl Change.strips failure).exception = none := by
  obtain ⟨before, behind, rfl⟩ := List.append_of_mem htaken
  rw [List.foldl_append, List.foldl_cons]
  exact exception_foldl_strips_of_none rfl

theorem foldl_strips_of_not_taken {later : List (Change σ)} {failure : Failure}
    (htaken : .takeException ∉ later) : later.foldl Change.strips failure = failure := by
  induction later with
  | nil => rfl
  | cons change later ih =>
    rw [List.mem_cons, not_or] at htaken
    cases change with
    | takeException => exact absurd rfl htaken.1
    | _ => exact ih htaken.2

theorem failure_of_last {earlier later : List (Change σ)} {change : Change σ} {record : Failure}
    (hsplit : changes = earlier ++ change :: later) (hrecord : change.failure? = some record)
    (hlater : ∀ other ∈ later, other.failure? = none) :
    (after changes).failure = some (later.foldl Change.strips record) := by
  refine failure_after.mpr ⟨earlier, change, later, record, hsplit, ?_, fun other hother => ?_, rfl⟩
  · exact congrArg (Option.map some) hrecord
  · exact congrArg (Option.map some) (hlater other hother)

/-- What a context holds after any calls on it since it was new.  Under a key there is the value
that was put there last, with the changes made in place, unless a removal came later; it can be
had as its own kind only, and all that tells which keys there are agrees on them.  The context is
failed just if some call failed it.  Then the last of them gave the message, and also the
exception, if that was not taken since.  The data and the failure have nothing to do with each
other: without the calls on the one, the other would be the same. -/
theorem last_write_wins (changes : List (Change σ)) :
    let context := after changes
    (∀ {kind : Kind} {key : String} {content : kind.Content σ},
      context.get kind key = some content ↔ Holds changes key ⟨kind, content⟩) ∧
    (∀ key, (context.contains key ↔ ∃ value, Holds changes key value) ∧
      (key ∈ context.keys ↔ ∃ value, Holds changes key value)) ∧
    context.keys.Nodup ∧ context.size = context.keys.length ∧
    (∀ required, context.missing required =
      required.filter fun key => decide (key ∉ context.keys)) ∧
    (context.isFailure ↔ ∃ change ∈ changes, change.failure?.isSome) ∧
    (¬ context.isFailure → context.message = none ∧ context.exception = none) ∧
    (∀ {earlier later : List (Change σ)} {change : Change σ} {record : Failure},
      changes = earlier ++ change :: later → change.failure? = some record →
      (∀ other ∈ later, other.failure? = none) →
        context.message = some record.message ∧
          (.takeException ∉ later → context.exception = record.exception) ∧
          (.takeException ∈ later → context.exception = none)) ∧
    (after (changes.filter (·.isData))).data = context.data ∧
    (after (changes.filter (!·.isData))).failure = context.failure ∧
    ∀ change : Change σ, (change.isData → (context.apply change).failure = context.failure) ∧
      (¬ change.isData → (context.apply change).data = context.data) := by
  intro context
  refine ⟨get_after, fun key => ⟨contains_after, ?keys⟩, context.data.keys_nodup, ?size,
    context.missing_eq, isFailure_after, ?success, ?last, data_after_filter changes,
    failure_after_filter changes,
    fun change => ⟨fun hdata => failure_apply_of_isData hdata context,
      fun hdata => data_apply_of_not_isData hdata context⟩⟩
  case keys => exact Table.mem_keys_iff.trans contains_after
  case size => exact (List.length_map _).symm
  case success =>
    intro hsuccess
    have hnone : context.failure = none := by simpa [isFailure] using hsuccess
    exact ⟨by rw [message, hnone]; rfl, by rw [exception, hnone]; rfl⟩
  case last =>
    intro earlier later change record hsplit hrecord hlater
    have hfailure : context.failure = some (later.foldl Change.strips record) :=
      failure_of_last hsplit hrecord hlater
    rw [message, exception, hfailure, Option.map_some, message_foldl_strips, Option.bind_some]
    exact ⟨rfl, fun htaken => by rw [foldl_strips_of_not_taken htaken],
      exception_foldl_strips_of_taken⟩

/-- The pot is heated as its own kind says, and the lid is gone whatever it was taken for. -/
example :
    let pot : Context Unit := after
      [ .insert "heat" ⟨.int64, 1⟩, .failWith "boils over" (.text "steam"), .takeException
      , .insert "lid" ⟨.bool, true⟩, .modify .int64 "heat" (· + 1), .modify .int32 "heat" (· + 5)
      , .remove .text "lid" ]
    pot.get .int64 "heat" = some 2 ∧ pot.keys = ["heat"] ∧ pot.missing ["lid", "heat"] = ["lid"] ∧
      pot.failure = some { message := "boils over" } := by decide

end Context

end Workflow
