import Workflow.Text.ByteOrder

/-!
# Tables of names

A `Table α` maps names to values. Its entries stand in strictly ascending byte
order of their names, so two tables with the same answers are equal
(`Table.ext_get?`) and what a table lists does not depend on its history.

* `get?_empty`, `get?_insert`, `get?_erase`: what each operation does to the
  answers of a table.
* `keys_ascending`, `mem_keys_iff`, `keys_nodup`: the names a table lists.
-/

namespace Workflow

open Text

/-- The entries of a table: ascending, so no name occurs twice. -/
structure Table (α : Type) where
  entries : List (String × α)
  ascending : entries.Pairwise fun a b => Before a.1 b.1

namespace Table

variable {α : Type}

/-- The table without entries. -/
def empty : Table α := ⟨[], .nil⟩

instance : EmptyCollection (Table α) := ⟨empty⟩

instance : Inhabited (Table α) := ⟨empty⟩

/-- The value of the first entry with this name. -/
def lookup (key : String) : List (String × α) → Option α
  | [] => none
  | (k, v) :: rest => if k = key then some v else lookup key rest

/-- The value a table holds for a name. -/
def get? (t : Table α) (key : String) : Option α := lookup key t.entries

/-- Whether a table holds a value for a name. -/
def contains (t : Table α) (key : String) : Bool := (t.get? key).isSome

/-- The names of a table, ascending. -/
def keys (t : Table α) : List String := t.entries.map (·.1)

/-- The number of names of a table. -/
def size (t : Table α) : Nat := t.entries.length

/-- Puts an entry at its place, over an older one of the same name. -/
def insertEntry (key : String) (value : α) :
    List (String × α) → List (String × α)
  | [] => [(key, value)]
  | (k, v) :: rest =>
    match order key k with
    | .lt => (key, value) :: (k, v) :: rest
    | .eq => (key, value) :: rest
    | .gt => (k, v) :: insertEntry key value rest

theorem mem_insertEntry {key : String} {value : α} {entry : String × α}
    {entries : List (String × α)}
    (h : entry ∈ insertEntry key value entries) :
    entry = (key, value) ∨ entry ∈ entries := by
  induction entries with
  | nil => simpa [insertEntry] using h
  | cons head rest ih =>
    obtain ⟨k, v⟩ := head
    simp only [insertEntry] at h
    split at h <;> simp only [List.mem_cons] at h ⊢
    · exact h
    · exact h.imp_right .inr
    · rcases h with h | h
      · exact .inr (.inl h)
      · exact (ih h).imp_right .inr

theorem ascending_insertEntry {key : String} {value : α}
    {entries : List (String × α)}
    (h : entries.Pairwise fun a b => Before a.1 b.1) :
    (insertEntry key value entries).Pairwise fun a b => Before a.1 b.1 := by
  induction entries with
  | nil => simp [insertEntry]
  | cons head rest ih =>
    obtain ⟨k, v⟩ := head
    have hrest := List.pairwise_cons.mp h
    simp only [insertEntry]
    split <;> rename_i horder
    · have hlt := order_eq_lt_iff.mp horder
      refine List.pairwise_cons.mpr ⟨fun entry hentry => ?_, h⟩
      rcases List.mem_cons.mp hentry with rfl | hentry
      · exact hlt
      · exact hlt.trans (hrest.1 entry hentry)
    · obtain rfl := order_eq_eq_iff.mp horder
      exact List.pairwise_cons.mpr ⟨hrest.1, hrest.2⟩
    · refine List.pairwise_cons.mpr ⟨fun entry hentry => ?_, ih hrest.2⟩
      rcases mem_insertEntry hentry with rfl | hentry
      · exact order_eq_gt_iff.mp horder
      · exact hrest.1 entry hentry

/-- Sets the value of a name. -/
def insert (t : Table α) (key : String) (value : α) : Table α :=
  ⟨insertEntry key value t.entries, ascending_insertEntry t.ascending⟩

/-- Drops a name with its value. -/
def erase (t : Table α) (key : String) : Table α :=
  ⟨t.entries.filter fun entry => !decide (entry.1 = key),
    t.ascending.filter _⟩

/-- Sets several names from left to right, so the last value of a name stays. -/
def insertAll (t : Table α) (entries : List (String × α)) : Table α :=
  entries.foldl (fun t entry => t.insert entry.1 entry.2) t

/-- The table of the given entries; of two with one name the later stays. -/
def ofList (entries : List (String × α)) : Table α := insertAll ∅ entries

/-! ## What the operations do to the answers -/

@[simp]
theorem get?_empty (key : String) : (∅ : Table α).get? key = none := rfl

theorem lookup_insertEntry (key other : String) (value : α)
    (entries : List (String × α)) :
    lookup other (insertEntry key value entries) =
      if key = other then some value else lookup other entries := by
  induction entries with
  | nil => simp [insertEntry, lookup]
  | cons head rest ih =>
    obtain ⟨k, v⟩ := head
    simp only [insertEntry]
    split <;> rename_i horder
    · simp [lookup]
    · obtain rfl := order_eq_eq_iff.mp horder
      by_cases h : key = other <;> simp [lookup, h]
    · have hne : k ≠ key := (order_eq_gt_iff.mp horder).ne
      by_cases hk : k = other
      · subst hk; simp [lookup, hne.symm]
      · simp [lookup, hk, ih]

theorem get?_insert (t : Table α) (key other : String) (value : α) :
    (t.insert key value).get? other =
      if key = other then some value else t.get? other :=
  lookup_insertEntry key other value t.entries

@[simp]
theorem get?_insert_self (t : Table α) (key : String) (value : α) :
    (t.insert key value).get? key = some value := by simp [get?_insert]

theorem contains_insert (t : Table α) (key other : String) (value : α) :
    (t.insert key value).contains other ↔ key = other ∨ t.contains other := by
  rw [contains, get?_insert, contains]
  split <;> simp_all

theorem lookup_filter_ne (key other : String) (entries : List (String × α)) :
    lookup other (entries.filter fun entry => !decide (entry.1 = key)) =
      if key = other then none else lookup other entries := by
  induction entries with
  | nil => simp [lookup]
  | cons head rest ih =>
    obtain ⟨k, v⟩ := head
    by_cases hk : k = key
    · subst hk
      by_cases h : k = other
      · subst h; simpa [lookup] using ih
      · simpa [lookup, h] using ih
    · by_cases h : k = other
      · subst h; simp [lookup, hk, Ne.symm hk]
      · simp [lookup, hk, h, ih]

theorem get?_erase (t : Table α) (key other : String) :
    (t.erase key).get? other = if key = other then none else t.get? other :=
  lookup_filter_ne key other t.entries

@[simp]
theorem get?_erase_self (t : Table α) (key : String) :
    (t.erase key).get? key = none := by simp [get?_erase]

/-! ## The names of a table -/

theorem keys_ascending (t : Table α) : t.keys.Pairwise Before :=
  List.pairwise_map.mpr t.ascending

theorem keys_nodup (t : Table α) : t.keys.Nodup :=
  t.keys_ascending.imp Before.ne

theorem lookup_isSome_iff {key : String} {entries : List (String × α)} :
    (lookup key entries).isSome ↔ key ∈ entries.map (·.1) := by
  induction entries with
  | nil => simp [lookup]
  | cons head rest ih =>
    obtain ⟨k, v⟩ := head
    by_cases h : k = key
    · simp [lookup, h]
    · simp [lookup, h, Ne.symm h, ih]

theorem mem_keys_iff {t : Table α} {key : String} :
    key ∈ t.keys ↔ (t.get? key).isSome := lookup_isSome_iff.symm

theorem mem_entries_iff {t : Table α} {key : String} {value : α} :
    (key, value) ∈ t.entries ↔ t.get? key = some value := by
  obtain ⟨entries, hascending⟩ := t
  show (key, value) ∈ entries ↔ lookup key entries = some value
  induction entries with
  | nil => simp [lookup]
  | cons head rest ih =>
    obtain ⟨k, v⟩ := head
    have hrest := List.pairwise_cons.mp hascending
    by_cases h : k = key
    · subst h
      have hnot : (k, value) ∉ rest := fun hmem => (hrest.1 _ hmem).ne rfl
      simp [lookup, hnot, eq_comm]
    · have hkey : key ≠ k := Ne.symm h
      simp [lookup, h, hkey, ih hrest.2]

/-- Tables that give the same answers are the same table. -/
theorem ext_get? {t u : Table α} (h : ∀ key, t.get? key = u.get? key) :
    t = u := by
  have hmem : ∀ entry, entry ∈ t.entries ↔ entry ∈ u.entries := fun entry => by
    rw [show entry = (entry.1, entry.2) from rfl, mem_entries_iff,
      mem_entries_iff, h]
  have hentries : t.entries = u.entries := by
    obtain ⟨es, hes⟩ := t
    obtain ⟨fs, hfs⟩ := u
    simp only at hmem ⊢
    clear h
    induction es generalizing fs with
    | nil =>
      cases fs with
      | nil => rfl
      | cons f fs => simpa using hmem f
    | cons e es ih =>
      cases fs with
      | nil => simpa using hmem e
      | cons f fs =>
        have hes' := List.pairwise_cons.mp hes
        have hfs' := List.pairwise_cons.mp hfs
        have hhead : e = f := by
          rcases List.mem_cons.mp ((hmem e).mp (.head _)) with h | he
          · exact h
          · rcases List.mem_cons.mp ((hmem f).mpr (.head _)) with h | hf
            · exact h.symm
            · exact absurd (hes'.1 _ hf) (hfs'.1 _ he).asymm
        subst hhead
        congr 1
        refine ih hes'.2 fs hfs'.2 fun entry => ?_
        have hentry := hmem entry
        simp only [List.mem_cons] at hentry
        constructor
        · intro h
          rcases hentry.mp (.inr h) with rfl | h'
          · exact absurd rfl (hes'.1 _ h).ne
          · exact h'
        · intro h
          rcases hentry.mpr (.inr h) with rfl | h'
          · exact absurd rfl (hfs'.1 _ h).ne
          · exact h'
  obtain ⟨es, hes⟩ := t
  obtain ⟨fs, hfs⟩ := u
  subst hentries
  rfl

end Table

end Workflow
