import Workflow.Document.Parser

/-!
# Skipping what can be read

What a reader can read it can also skip, and it finds the same there.  So a reader that takes
only some members from a text finds the whole document, if the text is one.

* `Extends` says that one reader reads whatever another one does.
* `stringRest?_extends`, `number?_extends` and `scalar?_extends`: skipping extends reading for
  the parts that have no parts.
* `contents?_extends` and `member?_extends`: a reader of a container extends another one if its
  reader of the parts does.  `value?_extends`: so skipping extends reading for all values.
* `parseKnown?_of_parse?` states it of whole texts.
-/

namespace Workflow.Document

variable {α β : Type}

/-- Whatever the first reader reads, the second one reads it, too, and in the same way. -/
def Extends (first second : List Char → Option α) : Prop :=
  ∀ ⦃cs read⦄, first cs = some read → second cs = some read

theorem Extends.refl (read? : List Char → Option α) : Extends read? read? := fun _ _ => id

theorem bind_of_bind {first second : Option α} {next next' : α → Option β} {read : β}
    (h : first.bind next = some read) (hfirst : ∀ a, first = some a → second = some a)
    (hnext : ∀ a, next a = some read → next' a = some read) : second.bind next' = some read := by
  obtain ⟨a, ha, hread⟩ := Option.bind_eq_some_iff.mp h
  exact Option.bind_eq_some_iff.mpr ⟨a, hfirst a ha, hnext a hread⟩

theorem ite_of_ite {cond : Prop} [Decidable cond] {yes yes' no no' : Option α} {read : α}
    (h : (if cond then yes else no) = some read)
    (hyes : cond → yes = some read → yes' = some read)
    (hno : ¬ cond → no = some read → no' = some read) :
    (if cond then yes' else no') = some read := by
  split at h <;> rename_i hcond
  · rw [if_pos hcond, hyes hcond h]
  · rw [if_neg hcond, hno hcond h]

/-! ## Parts without parts -/

theorem unsigned?_extends : Extends (unsigned? .kept) (unsigned? .skipped) := by
  intro cs read h
  refine bind_of_bind h (fun _ => id) fun (whole, rest) h => ?_
  refine bind_of_bind h (fun _ => id) fun (fraction, rest) h => ?_
  refine bind_of_bind h (fun _ => id) fun (exponent, rest) h => ?_
  obtain ⟨_, hread⟩ := Option.ite_none_right_eq_some.mp h
  exact Option.ite_none_right_eq_some.mpr ⟨.inl rfl, hread⟩

theorem number?_extends : Extends (number? .kept) (number? .skipped) := by
  intro cs read h
  unfold number? at h ⊢
  split at h <;>
    exact bind_of_bind h (fun _ hunsigned => unsigned?_extends hunsigned) fun _ => id

theorem escaped?_extends : Extends (escaped? .kept) (escaped? .skipped) := by
  intro cs read h
  unfold escaped? at h ⊢
  split at h <;> try exact h
  exact Option.or_eq_some_iff.mpr (.inl h)

theorem stringRest?_extends (bound : Nat) :
    Extends (stringRest? .kept bound) (stringRest? .skipped bound) := by
  induction bound with
  | zero =>
    intro cs read h
    contradiction
  | succ bound ih =>
    intro cs read h
    cases cs with
    | nil => contradiction
    | cons c rest =>
      refine ite_of_ite h (fun _ => id) fun _ h => ite_of_ite h (fun _ h => ?_) fun _ h => ?_
      · refine bind_of_bind h (fun _ hescaped => escaped?_extends hescaped) fun _ h => ?_
        exact bind_of_bind h (fun _ hrest => ih hrest) fun _ => id
      · refine ite_of_ite h (fun _ => id) fun _ h => ?_
        exact bind_of_bind h (fun _ hrest => ih hrest) fun _ => id

theorem string?_extends : Extends (string? .kept) (string? .skipped) := by
  intro cs read h
  unfold string? at h ⊢
  split at h
  · exact bind_of_bind h (fun _ hrest => stringRest?_extends _ hrest) fun _ => id
  · contradiction

theorem scalar?_extends : Extends (scalar? .kept) (scalar? .skipped) := by
  intro cs read h
  unfold scalar? at h ⊢
  split at h <;> try exact h
  · exact bind_of_bind h (fun _ hstring => string?_extends hstring) fun _ => id
  · exact bind_of_bind h (fun _ hnumber => number?_extends hnumber) fun _ => id

/-! ## Containers -/

section Parts

variable {item? item?' : List Char → Option (α × List Char)}

theorem items?_extends (h : Extends item? item?') (close : Char) (bound : Nat) :
    Extends (items? item? close bound) (items? item?' close bound) := by
  induction bound with
  | zero =>
    intro cs read hread
    contradiction
  | succ bound ih =>
    intro cs read hread
    refine bind_of_bind hread (fun _ hitem => h hitem) fun (item, rest) hread => ?_
    simp only at hread ⊢
    split at hread
    · contradiction
    · refine ite_of_ite hread (fun _ => id) fun _ hread => ite_of_ite hread (fun _ hread => ?_)
        fun _ => id
      exact bind_of_bind hread (fun _ hrest => ih hrest) fun _ => id

theorem contents?_extends (h : Extends item? item?') (close : Char) :
    Extends (contents? item? close) (contents? item?' close) := by
  intro cs read hread
  unfold contents? at hread ⊢
  split at hread
  · contradiction
  · exact ite_of_ite hread (fun _ => id) fun _ hread => items?_extends h close _ hread

end Parts

/-- The values may be read by the extended reader under some names only. -/
theorem member?_extends {reading reading' : Reading}
    {value? value?' : String → List Char → Option (Document × List Char)}
    (hnames : Extends (string? reading) (string? reading'))
    (hvalues : ∀ name, Extends (value? name) (value?' name)) :
    Extends (member? reading value?) (member? reading' value?') := by
  intro cs read h
  refine bind_of_bind h (fun _ hname => hnames hname) fun (name, rest) h => ?_
  simp only at h ⊢
  split at h
  · exact bind_of_bind h (fun _ hvalue => hvalues name hvalue) fun _ => id
  · contradiction

/-- The induction is on the depth, which may be larger for what is skipped. -/
theorem value?_extends {depth larger : Nat} (hle : depth ≤ larger) :
    Extends (value? .kept depth) (value? .skipped larger) := by
  induction depth generalizing larger with
  | zero =>
    intro cs read h
    cases larger with
    | zero => exact scalar?_extends h
    | succ larger =>
      -- what is no container does not begin as one
      unfold value? at h ⊢
      split
      · contradiction
      · contradiction
      · exact scalar?_extends h
  | succ depth ih =>
    obtain ⟨larger, rfl⟩ : ∃ n, larger = n + 1 := ⟨larger - 1, by omega⟩
    have hbelow := ih (Nat.le_of_succ_le_succ hle)
    intro cs read h
    unfold value? at h ⊢
    split at h
    · exact bind_of_bind h (fun _ hitems => contents?_extends hbelow _ hitems) fun _ => id
    · refine bind_of_bind h (fun _ hmembers => ?_) fun _ => id
      exact contents?_extends (member?_extends string?_extends fun _ => hbelow) _ hmembers
    · exact scalar?_extends h

theorem known?_extends (names : List String) : Extends (value? .kept nesting) (known? names) := by
  have hvalues : ∀ name, Extends (value? .kept (nesting - 1)) (valueOf? names name) := by
    intro name cs read h
    unfold valueOf?
    split
    · exact h
    · exact value?_extends (Nat.le_trans (Nat.sub_le ..) (Nat.le_max_left ..)) h
  intro cs read h
  unfold known?
  split
  · refine bind_of_bind h (fun _ hmembers => ?_) fun _ => id
    exact contents?_extends (member?_extends (.refl _) hvalues) _ hmembers
  · exact h

/-! ## Whole texts -/

/-- If a text is a document, that is what a reader finds who takes only some members from it. -/
theorem parseKnown?_of_parse? {names : List String} {text : String} {document : Document}
    (h : parse? text = some document) : parseKnown? names text = some document :=
  bind_of_bind h (fun _ hread => known?_extends names hread) fun _ => id

end Workflow.Document
