/-
# OrmpIndexer.Foundation.Spacing — instants that keep a distance

A list of instants, the LATEST FIRST, in which each one comes at least `gap` after the one before it
(`Spaced`). The distance adds up along the list (`Spaced.add_mul_le`), so a window that is `k` gaps long
contains at most `k` of the instants (`Spaced.window`).
-/
import Mathlib.Algebra.GroupWithZero.Nat
import Mathlib.Data.List.Chain
import Mathlib.Tactic.Common
import Mathlib.Tactic.Ring

namespace OrmpIndexer.Foundation

/-- Each instant comes at least `gap` after the one before it. -/
def Spaced (gap : Nat) (instants : List Nat) : Prop :=
  instants.IsChain fun later earlier => earlier + gap ≤ later

variable {gap : Nat} {instants : List Nat}

theorem spaced_nil : Spaced gap [] := List.isChain_nil

theorem spaced_cons {instant : Nat} : Spaced gap (instant :: instants) ↔
    (∀ last, instants.head? = some last → last + gap ≤ instant) ∧ Spaced gap instants :=
  List.isChain_cons

theorem Spaced.tail {instant : Nat} (h : Spaced gap (instant :: instants)) : Spaced gap instants :=
  (spaced_cons.mp h).2

/-- The distances add up. -/
theorem Spaced.add_mul_le (h : Spaced gap instants) {i k later earlier : Nat}
    (hlater : instants[i]? = some later) (hearlier : instants[i + k]? = some earlier) :
    earlier + k * gap ≤ later := by
  induction instants generalizing i k later with
  | nil => cases hlater
  | cons instant instants ih =>
      cases i with
      | succ i =>
          rw [Nat.succ_add] at hearlier
          exact ih h.tail hlater hearlier
      | zero =>
          obtain rfl : instant = later := Option.some.inj hlater
          cases k with
          | zero =>
              obtain rfl : instant = earlier := Option.some.inj hearlier
              omega
          | succ k =>
              -- one gap down to the next instant, and `k` more from there
              rw [Nat.zero_add, List.getElem?_cons_succ] at hearlier
              cases instants with
              | nil => cases hearlier
              | cons next instants =>
                  have hfirst : next + gap ≤ instant := (spaced_cons.mp h).1 next rfl
                  have hrest : earlier + k * gap ≤ next :=
                    ih h.tail (i := 0) rfl (by rwa [Nat.zero_add])
                  calc earlier + (k + 1) * gap = (earlier + k * gap) + gap := by ring
                    _ ≤ next + gap := Nat.add_le_add_right hrest gap
                    _ ≤ instant := hfirst

/-- The instants from `start` on and before `stop`. -/
def within (start stop : Nat) (instants : List Nat) : List Nat :=
  instants.filter fun t => decide (start ≤ t ∧ t < stop)

theorem within_cons (start stop instant : Nat) : within start stop (instant :: instants) =
    if start ≤ instant ∧ instant < stop then instant :: within start stop instants
    else within start stop instants := by
  simp [within, List.filter_cons]

/-- If the latest instant lies before `stop + gap`, the others lie before `stop`. -/
theorem Spaced.within_tail {instant start stop : Nat} (h : Spaced gap (instant :: instants))
    (hstop : instant < stop + gap) :
    within start (stop + gap) instants = within start stop instants := by
  refine List.filter_congr fun t ht => ?_
  obtain ⟨k, hk⟩ := List.getElem?_of_mem ht
  have hadd : t + (k + 1) * gap ≤ instant :=
    h.add_mul_le (i := 0) rfl (by rwa [Nat.zero_add, List.getElem?_cons_succ])
  have hgap : t + gap ≤ instant := by
    refine (Nat.add_le_add_left ?_ t).trans hadd
    exact Nat.le_mul_of_pos_left gap (Nat.succ_pos k)
  refine decide_eq_decide.mpr (and_congr_right fun _ => ?_)
  omega

/-- A window of `k` gaps contains at most `k` of the instants. -/
theorem Spaced.window (h : Spaced gap instants) (start k : Nat) :
    (within start (start + k * gap) instants).length ≤ k := by
  induction instants generalizing k with
  | nil => exact Nat.zero_le k
  | cons instant instants ih =>
      rw [within_cons]
      split
      · rename_i hin
        -- the rest of the window ends a gap earlier
        obtain ⟨k, rfl⟩ : ∃ n, k = n + 1 := by
          refine Nat.exists_eq_succ_of_ne_zero fun hzero => ?_
          rw [hzero] at hin
          omega
        have hlength : start + (k + 1) * gap = start + k * gap + gap := by ring
        rw [hlength] at hin ⊢
        rw [List.length_cons, h.within_tail hin.2]
        exact Nat.succ_le_succ (ih h.tail k)
      · exact ih h.tail k

end OrmpIndexer.Foundation
