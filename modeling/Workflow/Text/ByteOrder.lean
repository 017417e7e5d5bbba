/-!
# Texts in byte order

Tables of names are kept in the order of the UTF-8 bytes of their keys.

* `bytes_injective`: the bytes determine the text.
* `Before` is a strict total order: `before_irrefl`, `Before.trans`,
  `Before.asymm` and `before_trichotomy`.
* `order_eq_eq_iff`, `order_eq_lt_iff` and `order_eq_gt_iff` read the
  three-way comparison back as the order.
-/

namespace Workflow.Text

/-- The bytes of the UTF-8 form of a text. -/
def bytes (text : String) : List UInt8 := text.toByteArray.data.toList

theorem bytes_injective {a b : String} (h : bytes a = bytes b) : a = b := by
  have hdata : a.toByteArray.data = b.toByteArray.data := Array.toList_inj.mp h
  exact String.toByteArray_inj.mp (ByteArray.ext hdata)

/-- The bytes of `a` come before those of `b` in lexicographic order. -/
def Before (a b : String) : Prop := bytes a < bytes b

instance (a b : String) : Decidable (Before a b) :=
  inferInstanceAs (Decidable (bytes a < bytes b))

theorem before_irrefl (a : String) : ¬ Before a a := List.lt_irrefl _

theorem Before.trans {a b c : String} (hab : Before a b) (hbc : Before b c) :
    Before a c := List.lt_trans hab hbc

theorem Before.asymm {a b : String} (h : Before a b) : ¬ Before b a :=
  List.lt_asymm h

theorem Before.ne {a b : String} (h : Before a b) : a ≠ b := by
  rintro rfl; exact before_irrefl _ h

theorem before_trichotomy (a b : String) : Before a b ∨ a = b ∨ Before b a := by
  by_cases hab : Before a b
  · exact .inl hab
  · by_cases hba : Before b a
    · exact .inr (.inr hba)
    · exact .inr (.inl (bytes_injective
        (List.le_antisymm (List.not_lt.mp hba) (List.not_lt.mp hab))))

/-- The three-way comparison of two texts in byte order. -/
def order (a b : String) : Ordering :=
  if Before a b then .lt else if a = b then .eq else .gt

theorem order_eq_lt_iff {a b : String} : order a b = .lt ↔ Before a b := by
  unfold order
  split
  · simp_all
  · split <;> simp_all

theorem order_eq_eq_iff {a b : String} : order a b = .eq ↔ a = b := by
  unfold order
  split
  · rename_i h; simp [h.ne]
  · split <;> simp_all

theorem order_eq_gt_iff {a b : String} : order a b = .gt ↔ Before b a := by
  unfold order
  split
  · rename_i h; simp [h.asymm]
  · split
    · rename_i h; subst h; simp [before_irrefl]
    · rename_i hlt hne
      simpa [hlt, hne] using before_trichotomy a b

end Workflow.Text
