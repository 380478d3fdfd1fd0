/-
# OrmpIndexer.Foundation.Tiling — lists of ranges without gap or overlap

A list of ranges tiles `[lo, hi)` if the first one starts at `lo`, each next one starts right after the
one before, none is empty, and the last one ends right before `hi`. A process that works through the
numbers range by range keeps this by appending (`Tiles.concat`), and a recursion on the rest of the numbers
by `Tiles.cons`; what it buys is that every number of `[lo, hi)` is in exactly one range
(`Tiles.countP_eq_one`).
-/
import Mathlib.Data.List.Chain
import Mathlib.Tactic.Common

namespace OrmpIndexer.Foundation

variable {ι : Type} {first last : ι → Nat} {lo hi : Nat} {l : List ι}

/-- The ranges `[first i, last i]` of the list tile `[lo, hi)`, in ascending order. -/
inductive Tiles (first last : ι → Nat) (lo : Nat) : List ι → Nat → Prop where
  | nil : Tiles first last lo [] lo
  | concat {l : List ι} {i : ι} (h : Tiles first last lo l (first i))
      (nonempty : first i ≤ last i) : Tiles first last lo (l ++ [i]) (last i + 1)

namespace Tiles

/-- One range is a tiling of itself. -/
theorem singleton {i : ι} (nonempty : first i ≤ last i) :
    Tiles first last (first i) [i] (last i + 1) :=
  concat nil nonempty

/-- A tiling of what comes after a range, with the range in front. -/
theorem cons {i : ι} (nonempty : first i ≤ last i) (h : Tiles first last (last i + 1) l hi) :
    Tiles first last (first i) (i :: l) hi := by
  induction h with
  | nil => exact singleton nonempty
  | concat _ hj ih => exact concat ih hj

theorem eq_of_nil (h : Tiles first last lo [] hi) : hi = lo := by
  generalize hl : ([] : List ι) = l at h
  cases h with
  | nil => rfl
  | concat _ _ => simp at hl

theorem le (h : Tiles first last lo l hi) : lo ≤ hi := by
  induction h with
  | nil => exact Nat.le_refl lo
  | concat _ nonempty ih => omega

/-- Every range is within the bounds. -/
theorem of_mem (h : Tiles first last lo l hi) {i : ι} (hi' : i ∈ l) :
    lo ≤ first i ∧ first i ≤ last i ∧ last i < hi := by
  induction h with
  | nil => cases hi'
  | @concat l j h nonempty ih =>
      rcases List.mem_append.mp hi' with hmem | hmem
      · obtain ⟨hlo, hle, hlt⟩ := ih hmem
        exact ⟨hlo, hle, by omega⟩
      · obtain rfl := List.mem_singleton.mp hmem
        exact ⟨h.le, nonempty, Nat.lt_succ_self _⟩

/-- The last range ends at the upper bound. -/
theorem of_getLast? (h : Tiles first last lo l hi) {i : ι} (hi' : l.getLast? = some i) :
    last i + 1 = hi := by
  cases h with
  | nil => cases hi'
  | concat _ _ =>
      rw [List.getLast?_concat] at hi'
      cases hi'
      rfl

/-- The first range starts at the lower bound. -/
theorem of_head? (h : Tiles first last lo l hi) {i : ι} (hi' : l.head? = some i) : first i = lo := by
  induction h with
  | nil => cases hi'
  | @concat l j h _ ih =>
      cases l with
      | nil =>
          cases hi'
          exact h.eq_of_nil
      | cons k l => exact ih hi'

/-- Each range starts right after the one before. -/
theorem isChain (h : Tiles first last lo l hi) : l.IsChain fun i j => first j = last i + 1 := by
  induction h with
  | nil => exact .nil
  | @concat l j h _ ih =>
      rw [List.isChain_append]
      refine ⟨ih, .singleton j, ?_⟩
      rintro i hlast k ⟨⟩
      exact (h.of_getLast? hlast).symm

/-- No gap: every number of `[lo, hi)` lies in a range. -/
theorem exists_mem (h : Tiles first last lo l hi) {n : Nat} (hlo : lo ≤ n) (hhi : n < hi) :
    ∃ i ∈ l, first i ≤ n ∧ n ≤ last i := by
  induction h with
  | nil => omega
  | @concat l i h nonempty ih =>
      rcases Nat.lt_or_ge n (first i) with hlt | hge
      · obtain ⟨j, hj, hn⟩ := ih hlt
        exact ⟨j, List.mem_append_left _ hj, hn⟩
      · exact ⟨i, by simp, hge, by omega⟩

/-- Nothing else: a number outside `[lo, hi)` lies in no range. -/
theorem countP_eq_zero (h : Tiles first last lo l hi) {n : Nat} (hn : n < lo ∨ hi ≤ n) :
    l.countP (fun i => first i ≤ n ∧ n ≤ last i) = 0 := by
  rw [List.countP_eq_zero]
  intro i hmem
  have := h.of_mem hmem
  rw [decide_eq_true_eq]
  omega

/-- No gap and no overlap: a number of `[lo, hi)` lies in one range. -/
theorem countP_eq_one (h : Tiles first last lo l hi) {n : Nat} (hlo : lo ≤ n) (hhi : n < hi) :
    l.countP (fun i => first i ≤ n ∧ n ≤ last i) = 1 := by
  induction h with
  | nil => omega
  | @concat l i h nonempty ih =>
      rw [List.countP_append, List.countP_singleton]
      rcases Nat.lt_or_ge n (first i) with hlt | hge
      · rw [ih hlt, if_neg (by simp; omega)]
      · rw [h.countP_eq_zero (Or.inr hge), if_pos (by simp; omega)]

end Tiles

end OrmpIndexer.Foundation
