import Workflow.Text.Hidden.Ranges

/-!
# Characters that do not show

Quoted texts write characters by number that a reader could not see or could
not tell from their neighbours. Which they are is a table of ranges
(`Workflow.Text.hiddenRanges`), searched in ascending order.

* `isHidden_iff`: the search finds every member of the table.
* `isHidden_eq_false_of_visible`: the visible characters of the first 128 show.
-/

namespace Workflow.Text

/-- Whether a number lies in one of the ranges, which ascend. -/
def inRanges (n : Nat) : List (Nat × Nat) → Bool
  | [] => false
  | (first, last) :: rest => if n < first then false else n ≤ last || inRanges n rest

/-- Whether ranges start at the bound or later, ascend and are apart. -/
def ascend : Nat → List (Nat × Nat) → Bool
  | _, [] => true
  | bound, (first, last) :: rest => bound ≤ first && first ≤ last && ascend (last + 2) rest

/-- Whether a character has to be written by number inside quotes. -/
def isHidden (c : Char) : Bool := inRanges c.toNat hiddenRanges

theorem le_of_ascend {bound : Nat} {ranges : List (Nat × Nat)} {range : Nat × Nat}
    (h : ascend bound ranges) (hmem : range ∈ ranges) : bound ≤ range.1 := by
  induction ranges generalizing bound with
  | nil => simp at hmem
  | cons head rest ih =>
    obtain ⟨first, last⟩ := head
    simp only [ascend, Bool.and_eq_true, decide_eq_true_eq] at h
    rcases List.mem_cons.mp hmem with rfl | hmem
    · exact h.1.1
    · have := ih h.2 hmem
      omega

theorem inRanges_iff {n bound : Nat} {ranges : List (Nat × Nat)} (h : ascend bound ranges) :
    inRanges n ranges ↔ ∃ range ∈ ranges, range.1 ≤ n ∧ n ≤ range.2 := by
  induction ranges generalizing bound with
  | nil => simp [inRanges]
  | cons head rest ih =>
    obtain ⟨first, last⟩ := head
    simp only [ascend, Bool.and_eq_true, decide_eq_true_eq] at h
    have hfirst : ascend first ((first, last) :: rest) := by simp [ascend, h]
    by_cases hn : n < first
    · simp only [inRanges, hn, if_true, Bool.false_eq_true, false_iff]
      rintro ⟨range, hmem, hle, -⟩
      exact absurd (Nat.le_trans (le_of_ascend hfirst hmem) hle) (Nat.not_le.mpr hn)
    · simp [inRanges, hn, ih h.2, Nat.not_lt.mp hn]

theorem ascend_hiddenRanges : ascend 0 hiddenRanges := by decide +kernel

theorem isHidden_iff {c : Char} :
    isHidden c ↔ ∃ range ∈ hiddenRanges, range.1 ≤ c.toNat ∧ c.toNat ≤ range.2 :=
  inRanges_iff ascend_hiddenRanges

/-- Every visible character of the first 128 is written as it is. -/
theorem isHidden_eq_false_of_visible {c : Char} (hlow : 0x20 ≤ c.toNat)
    (hhigh : c.toNat < 0x7F) : isHidden c = false := by
  have hnull : ¬ c.toNat < 0 := Nat.not_lt_zero _
  have hcontrols : ¬ c.toNat ≤ 0x1F := by omega
  unfold isHidden hiddenRanges
  rw [inRanges, if_neg hnull, inRanges, if_pos hhigh]
  simp [hcontrols]

end Workflow.Text
