/-
# OrmpIndexer.Runner.Loop — the loop of a pass ends by itself

`runRanges` is the `while` loop of `run_chain_once` with fuel. A turn either ends the loop or moves the
checkpoint past its range, so any number that every range brings down is fuel enough: with more fuel the
loop is the same program (`runRanges_congr_fuel`). The blocks up to the target are such a number, and so are
the batches.
-/
import OrmpIndexer.Runner.Rules
import Mathlib.Algebra.Order.Floor.Div

namespace OrmpIndexer

open Foundation Foundation.Task

namespace Runner

variable {chain : ChainConfig} {dataset : String} {range : BlockRange}

/-- A range whose report does not end the poll was committed up to its last block, whatever was
answered. -/
theorem returns_processRange : Returns
    (fun report => report.stopPoll = false → report.nextBlock = range.toBlock + 1)
    (processRange chain dataset range) := by
  refine returns_bind.mpr (returns_mapError.mpr fun r => ?_)
  cases r with
  | error e => trivial
  | ok result =>
      show Returns _ (processSuccessfulRange chain dataset range result)
      unfold processSuccessfulRange
      split
      · intro hstop
        cases hstop
      rename_i servedEnd _
      refine returns_bind.mpr (returns_ofExcept fun servedStart _ => ?_)
      split
      · trivial
      refine returns_bind.mpr (returns_of_forall (fun events => ?_) _)
      refine returns_bind.mpr (returns_ofExcept fun nextBlock hnext => ?_)
      obtain ⟨rfl, _⟩ := checkedAdd_eq_some.mp (contextOption_eq_ok.mp hnext)
      refine returns_bind.mpr (returns_of_forall (fun anchors => ?_) _)
      cases anchors with
      | none =>
          intro hstop
          cases hstop
      | some anchors =>
          refine returns_bind.mpr (returns_of_forall (fun written hstop => ?_) _)
          have hend : decide (min servedEnd range.toBlock < range.toBlock) = false :=
            (Bool.or_eq_false_iff.mp hstop).2
          have := of_decide_eq_false hend
          show min servedEnd range.toBlock + 1 = range.toBlock + 1
          omega

variable {targetBlock : Nat}

/-- The poll is over. -/
theorem runRanges_stop (fuel : Nat) (checkpoint : Checkpoint) (report : ChainRunReport) :
    runRanges chain dataset targetBlock fuel checkpoint report true = return report := by
  cases fuel with
  | zero => rfl
  | succ fuel =>
      have hstop : ¬(checkpoint.nextBlock ≤ targetBlock ∧ (!true) = true) :=
        fun h => absurd h.2 (by decide)
      unfold runRanges
      rw [if_neg hstop]

/-- The target is reached. -/
theorem runRanges_caughtUp (fuel : Nat) {checkpoint : Checkpoint} (report : ChainRunReport)
    (stopPoll : Bool) (h : targetBlock < checkpoint.nextBlock) :
    runRanges chain dataset targetBlock fuel checkpoint report stopPoll = return report := by
  cases fuel with
  | zero => rfl
  | succ fuel =>
      unfold runRanges
      rw [if_neg (fun hturn => absurd hturn.1 (by omega))]

/-- Turns left, as a number that every range brings down: as long as there are any, the loop may go on, and
that many are fuel enough. -/
structure TurnsLeft (chain : ChainConfig) (targetBlock : Nat) (turns : Nat → Nat) : Prop where
  caughtUp : ∀ next, turns next = 0 → targetBlock < next
  decreases : ∀ next range, next ≤ targetBlock → Planned chain targetBlock next range →
    turns (range.toBlock + 1) < turns next

theorem runRanges_congr_fuel {turns : Nat → Nat} (hturns : TurnsLeft chain targetBlock turns)
    {fuel fuel' : Nat} {checkpoint : Checkpoint} (report : ChainRunReport) (stopPoll : Bool)
    (h : turns checkpoint.nextBlock ≤ fuel) (h' : turns checkpoint.nextBlock ≤ fuel') :
    runRanges chain dataset targetBlock fuel checkpoint report stopPoll =
      runRanges chain dataset targetBlock fuel' checkpoint report stopPoll := by
  induction fuel generalizing fuel' checkpoint report stopPoll with
  | zero =>
      have reached := hturns.caughtUp _ (Nat.le_zero.mp h)
      rw [runRanges_caughtUp 0 _ _ reached, runRanges_caughtUp fuel' _ _ reached]
  | succ fuel ih =>
      rcases Nat.lt_or_ge targetBlock checkpoint.nextBlock with reached | hle
      · rw [runRanges_caughtUp _ _ _ reached, runRanges_caughtUp fuel' _ _ reached]
      obtain ⟨fuel', rfl⟩ : ∃ n, fuel' = n + 1 := by
        refine Nat.exists_eq_succ_of_ne_zero fun hzero => ?_
        have := hturns.caughtUp _ (Nat.le_zero.mp (hzero ▸ h'))
        omega
      unfold runRanges
      split
      · refine Returns.bind_congr (returns_ofExcept fun planned hplanned => hplanned)
          fun planned hplanned => ?_
        have plan := planned_of_planNextRange (context_eq_ok.mp hplanned) hle
        refine Returns.bind_congr returns_processRange fun rangeReport hreport => ?_
        cases hstop : rangeReport.stopPoll with
        | true => rw [runRanges_stop, runRanges_stop]
        | false =>
            -- the range was committed to its end, so there are fewer turns left
            have hless := hturns.decreases _ _ hle plan
            rw [← hreport hstop] at hless
            refine ih _ _ ?_ ?_
            · show turns rangeReport.nextBlock ≤ fuel
              omega
            · show turns rangeReport.nextBlock ≤ fuel'
              omega
      · rfl

/-- The batches up to the target are fuel enough. -/
theorem turnsLeft_batches (hbatch : 0 < chain.batchSize) : TurnsLeft chain targetBlock
    fun next => (targetBlock + 1 - next) ⌈/⌉ chain.batchSize where
  caughtUp next h := by
    have hblocks := (ceilDiv_le_iff_le_mul hbatch).mp (Nat.le_of_eq h)
    omega
  decreases next range hle plan := by
    have hbatches := (ceilDiv_le_iff_le_mul (b := targetBlock + 1 - next) hbatch).mp le_rfl
    have hstop := plan.stop
    cases hceil : (targetBlock + 1 - next) ⌈/⌉ chain.batchSize with
    | zero =>
        rw [hceil, Nat.mul_zero] at hbatches
        omega
    | succ n =>
        -- a range is a whole batch, or it ends at the target
        rw [hceil, Nat.mul_succ] at hbatches
        refine Nat.lt_succ_of_le ((ceilDiv_le_iff_le_mul hbatch).mpr ?_)
        omega

end Runner

end OrmpIndexer
