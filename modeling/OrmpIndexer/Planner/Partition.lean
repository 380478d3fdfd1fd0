/-
# OrmpIndexer.Planner.Partition — the planned ranges cut the interval up

Two limits meet in the loop of `plan_evm_log_queries`: the last block, at which a range is cut off, and
`u64::MAX`, after which there is no block to go on from. The end of a range is a saturating sum, so the
second limit can come first, and the guard of the `while` stays true for good if the last block is
`u64::MAX`: only the `break` ends the loop there.

`planQueries` is the list the loop builds, with numbers that do not overflow. `planLoop` is the loop itself,
turn by turn and with the arithmetic of the machine; `planLoop_eq_some` says that it gets to the end of that
list, one turn for each plan, and that nothing overflows on the way.
-/
import OrmpIndexer.Foundation.Tiling
import OrmpIndexer.Planner

namespace OrmpIndexer

open Foundation

/-- The plan of one turn of the loop. -/
def plannedRange (chain : ChainConfig) (finalityMode : FinalityMode) (nextFrom rangeEnd : Nat) :
    PlannedDatalensLogQuery where
  dataset := EVM_LOGS_DATASET
  query := {
    chainId := chain.chainId, fromBlock := nextFrom, toBlock := rangeEnd
    contracts := chain.contracts, topics := chain.topics, finalityMode }

/-- The `while` loop with `next_from` and `plans` as its state. It is `none` if `max_range_len - 1` or
`range_end + 1` overflows, and if the loop is not over after so many turns. -/
def planLoop (chain : ChainConfig) (toBlock maxRangeLen : Nat) (finalityMode : FinalityMode) :
    Nat → Nat → List PlannedDatalensLogQuery → Option (List PlannedDatalensLogQuery)
  | 0, _, _ => none
  | turns + 1, nextFrom, plans =>
      if nextFrom ≤ toBlock then do
        let rangeEnd := min (saturatingAdd nextFrom (← checkedSub maxRangeLen 1)) toBlock
        let plans := plans ++ [plannedRange chain finalityMode nextFrom rangeEnd]
        if rangeEnd = u64Max then some plans
        else planLoop chain toBlock maxRangeLen finalityMode turns (← checkedAdd rangeEnd 1) plans
      else some plans

/-- The number of blocks of a plan. -/
def PlannedDatalensLogQuery.blocks (plan : PlannedDatalensLogQuery) : Nat :=
  plan.query.toBlock + 1 - plan.query.fromBlock

/-- The plan asks for the block. -/
def PlannedDatalensLogQuery.Covers (n : Nat) (plan : PlannedDatalensLogQuery) : Prop :=
  plan.query.fromBlock ≤ n ∧ n ≤ plan.query.toBlock

instance (n : Nat) (plan : PlannedDatalensLogQuery) : Decidable (plan.Covers n) :=
  inferInstanceAs (Decidable (_ ∧ _))

/-- The plans cut the blocks from `first` to `last` up, `len` at a time. -/
structure Partitions (first last len : Nat) (plans : List PlannedDatalensLogQuery) : Prop where
  nonempty : ∀ plan ∈ plans, plan.query.fromBlock ≤ plan.query.toBlock
  consecutive : plans.IsChain fun plan next => next.query.fromBlock = plan.query.toBlock + 1
  bounded : ∀ plan ∈ plans, plan.blocks ≤ len
  starts : plans.head?.map (·.query.fromBlock) = some first
  ends : plans.getLast?.map (·.query.toBlock) = some last
  once : ∀ n, first ≤ n → n ≤ last → plans.countP (·.Covers n) = 1
  noneElse : ∀ n, n < first ∨ last < n → plans.countP (·.Covers n) = 0
  /-- Only the last plan may be shorter. -/
  full : ∀ plan ∈ plans.dropLast, plan.blocks = len

section

variable {chain : ChainConfig} {toBlock maxRangeLen : Nat} {finalityMode : FinalityMode}

/-! ## One turn -/

/-- The end of a range, if the last block is in reach. -/
theorem rangeEnd_last {nextFrom : Nat} (hle : nextFrom ≤ toBlock) (hto : toBlock ≤ u64Max)
    (hlast : toBlock < nextFrom + maxRangeLen) :
    min (saturatingAdd nextFrom (maxRangeLen - 1)) toBlock = toBlock := by
  rw [saturatingAdd]
  generalize u64Max = limit at hto ⊢
  omega

/-- Otherwise neither limit is reached. -/
theorem rangeEnd_rest {nextFrom : Nat} (hto : toBlock ≤ u64Max) (hlen : 0 < maxRangeLen)
    (hrest : nextFrom + maxRangeLen ≤ toBlock) :
    min (saturatingAdd nextFrom (maxRangeLen - 1)) toBlock + 1 = nextFrom + maxRangeLen := by
  rw [saturatingAdd]
  generalize u64Max = limit at hto ⊢
  omega

theorem planQueries_of_lt {nextFrom : Nat} (h : toBlock < nextFrom) :
    planQueries chain toBlock maxRangeLen finalityMode nextFrom = [] := by
  rw [planQueries, if_neg (Nat.not_le.mpr h)]

/-- The range that reaches the last block is the last one, through the guard or through the `break`. -/
theorem planQueries_last {nextFrom : Nat} (hle : nextFrom ≤ toBlock) (hto : toBlock ≤ u64Max)
    (hlast : toBlock < nextFrom + maxRangeLen) :
    planQueries chain toBlock maxRangeLen finalityMode nextFrom =
      [plannedRange chain finalityMode nextFrom toBlock] := by
  rw [planQueries, if_pos hle, rangeEnd_last hle hto hlast]
  dsimp only
  split
  · rfl
  · rw [planQueries_of_lt (Nat.lt_succ_self toBlock)]
    rfl

/-- Any other range is a whole one, and the loop goes on after it. -/
theorem planQueries_rest {nextFrom : Nat} (hto : toBlock ≤ u64Max) (hlen : 0 < maxRangeLen)
    (hrest : nextFrom + maxRangeLen ≤ toBlock) :
    planQueries chain toBlock maxRangeLen finalityMode nextFrom =
      plannedRange chain finalityMode nextFrom (nextFrom + maxRangeLen - 1) ::
        planQueries chain toBlock maxRangeLen finalityMode (nextFrom + maxRangeLen) := by
  have hend := rangeEnd_rest hto hlen hrest
  have hbelow : min (saturatingAdd nextFrom (maxRangeLen - 1)) toBlock ≠ u64Max := by
    generalize u64Max = limit at hto hend ⊢
    omega
  rw [planQueries, if_pos (by omega)]
  simp only [if_neg hbelow]
  rw [hend, ← hend]
  rfl

/-- What holds of the last range, and of a whole range in front of plans that it holds of, holds of the
plans from any block up to the last one. -/
theorem planQueries_induction {motive : Nat → List PlannedDatalensLogQuery → Prop}
    (hto : toBlock ≤ u64Max) (hlen : 0 < maxRangeLen)
    (last : ∀ first, first ≤ toBlock → toBlock < first + maxRangeLen →
      motive first [plannedRange chain finalityMode first toBlock])
    (rest : ∀ first plans, first + maxRangeLen ≤ toBlock → motive (first + maxRangeLen) plans →
      motive first (plannedRange chain finalityMode first (first + maxRangeLen - 1) :: plans))
    (first : Nat) (hle : first ≤ toBlock) :
    motive first (planQueries chain toBlock maxRangeLen finalityMode first) := by
  rcases Nat.lt_or_ge toBlock (first + maxRangeLen) with hlast | hrest
  · rw [planQueries_last hle hto hlast]
    exact last first hle hlast
  · rw [planQueries_rest hto hlen hrest]
    exact rest first _ hrest (planQueries_induction hto hlen last rest (first + maxRangeLen) hrest)
termination_by toBlock - first

/-! ## The loop ends and does not overflow -/

/-- The turn of the last range: the loop breaks, or the guard of the next turn fails. -/
theorem planLoop_last {nextFrom : Nat} (hle : nextFrom ≤ toBlock) (hto : toBlock ≤ u64Max)
    (hlen : 0 < maxRangeLen) (hlast : toBlock < nextFrom + maxRangeLen) (turns : Nat)
    (plans : List PlannedDatalensLogQuery) :
    planLoop chain toBlock maxRangeLen finalityMode (turns + 2) nextFrom plans =
      some (plans ++ [plannedRange chain finalityMode nextFrom toBlock]) := by
  have hsub : checkedSub maxRangeLen 1 = some (maxRangeLen - 1) := checkedSub_eq_some.mpr ⟨hlen, rfl⟩
  rw [planLoop, if_pos hle, hsub]
  simp only [Option.bind_eq_bind, Option.bind_some, rangeEnd_last hle hto hlast]
  split
  · rfl
  · rename_i hmax
    have hadd : checkedAdd toBlock 1 = some (toBlock + 1) :=
      checkedAdd_eq_some.mpr ⟨rfl, Nat.lt_of_le_of_ne hto hmax⟩
    rw [hadd, Option.bind_some, planLoop, if_neg (Nat.not_le.mpr (Nat.lt_succ_self toBlock))]

/-- The turn of any other range. -/
theorem planLoop_rest {nextFrom : Nat} (hto : toBlock ≤ u64Max) (hlen : 0 < maxRangeLen)
    (hrest : nextFrom + maxRangeLen ≤ toBlock) (turns : Nat) (plans : List PlannedDatalensLogQuery) :
    planLoop chain toBlock maxRangeLen finalityMode (turns + 1) nextFrom plans =
      planLoop chain toBlock maxRangeLen finalityMode turns (nextFrom + maxRangeLen)
        (plans ++ [plannedRange chain finalityMode nextFrom (nextFrom + maxRangeLen - 1)]) := by
  have hend : min (saturatingAdd nextFrom (maxRangeLen - 1)) toBlock = nextFrom + maxRangeLen - 1 :=
    Nat.eq_sub_of_add_eq (rangeEnd_rest hto hlen hrest)
  have hsub : checkedSub maxRangeLen 1 = some (maxRangeLen - 1) := checkedSub_eq_some.mpr ⟨hlen, rfl⟩
  have hadd : checkedAdd (nextFrom + maxRangeLen - 1) 1 = some (nextFrom + maxRangeLen) :=
    checkedAdd_eq_some.mpr ⟨by omega, Nat.le_trans hrest hto⟩
  have hbelow : nextFrom + maxRangeLen - 1 ≠ u64Max := by
    generalize u64Max = limit at hto ⊢
    omega
  rw [planLoop, if_pos (by omega), hsub]
  simp only [Option.bind_eq_bind, Option.bind_some, hend, if_neg hbelow, hadd]

/-- The loop adds the plans of the rest to those it has, with one turn for each and one for the guard. -/
theorem planLoop_eq_some (hto : toBlock ≤ u64Max) (hlen : 0 < maxRangeLen) {first : Nat}
    (hle : first ≤ toBlock) (turns : Nat)
    (hturns : (planQueries chain toBlock maxRangeLen finalityMode first).length < turns)
    (plans : List PlannedDatalensLogQuery) :
    planLoop chain toBlock maxRangeLen finalityMode turns first plans =
      some (plans ++ planQueries chain toBlock maxRangeLen finalityMode first) := by
  revert turns plans
  apply planQueries_induction (motive := fun first rest => ∀ turns, rest.length < turns → ∀ plans,
    planLoop chain toBlock maxRangeLen finalityMode turns first plans = some (plans ++ rest))
    hto hlen _ _ first hle
  · intro first hle hlast turns hturns plans
    obtain ⟨turns, rfl⟩ : ∃ more, turns = more + 2 := ⟨turns - 2, by simp at hturns; omega⟩
    exact planLoop_last hle hto hlen hlast turns plans
  · intro first rest hrest ih turns hturns plans
    obtain ⟨turns, rfl⟩ : ∃ more, turns = more + 1 := ⟨turns - 1, by simp at hturns; omega⟩
    rw [planLoop_rest hto hlen hrest, ih turns (Nat.lt_of_succ_lt_succ hturns), List.append_assoc]
    rfl

/-! ## The plans are a partition -/

variable (chain finalityMode)

theorem length_planQueries (hto : toBlock ≤ u64Max) (hlen : 0 < maxRangeLen) {first : Nat}
    (hle : first ≤ toBlock) :
    (planQueries chain toBlock maxRangeLen finalityMode first).length =
      (toBlock - first) / maxRangeLen + 1 := by
  apply planQueries_induction (motive := fun first plans =>
    plans.length = (toBlock - first) / maxRangeLen + 1) hto hlen _ _ first hle
  · intro first hle hlast
    rw [Nat.div_eq_of_lt (by omega)]
    rfl
  · intro first plans hrest ih
    rw [List.length_cons, ih, Nat.div_eq_sub_div hlen (show maxRangeLen ≤ toBlock - first by omega),
      Nat.sub_add_eq]

theorem tiles_planQueries (hto : toBlock ≤ u64Max) (hlen : 0 < maxRangeLen) {first : Nat}
    (hle : first ≤ toBlock) :
    Tiles (·.query.fromBlock) (·.query.toBlock) first
      (planQueries chain toBlock maxRangeLen finalityMode first) (toBlock + 1) := by
  apply planQueries_induction (motive := fun first plans =>
    Tiles (·.query.fromBlock) (·.query.toBlock) first plans (toBlock + 1)) hto hlen _ _ first hle
  · intro first hle _
    exact Tiles.singleton (i := plannedRange chain finalityMode first toBlock) hle
  · intro first plans hrest ih
    apply Tiles.cons (i := plannedRange chain finalityMode first (first + maxRangeLen - 1))
    · show first ≤ first + maxRangeLen - 1
      omega
    · show Tiles _ _ (first + maxRangeLen - 1 + 1) plans _
      rw [Nat.sub_add_cancel (by omega)]
      exact ih

/-- No range is too long, and all but the last are as long as they may be. -/
theorem blocks_planQueries (hto : toBlock ≤ u64Max) (hlen : 0 < maxRangeLen) {first : Nat}
    (hle : first ≤ toBlock) :
    (∀ plan ∈ planQueries chain toBlock maxRangeLen finalityMode first, plan.blocks ≤ maxRangeLen) ∧
      ∀ plan ∈ (planQueries chain toBlock maxRangeLen finalityMode first).dropLast,
        plan.blocks = maxRangeLen := by
  apply planQueries_induction (motive := fun _ plans => (∀ plan ∈ plans, plan.blocks ≤ maxRangeLen) ∧
    ∀ plan ∈ plans.dropLast, plan.blocks = maxRangeLen) hto hlen _ _ first hle
  · intro first hle hlast
    refine ⟨?_, nofun⟩
    rintro plan (_ | ⟨_, ⟨⟩⟩)
    show toBlock + 1 - first ≤ maxRangeLen
    omega
  · intro first plans hrest ⟨hbounded, hfull⟩
    have hwhole : (plannedRange chain finalityMode first (first + maxRangeLen - 1)).blocks =
        maxRangeLen := by
      show first + maxRangeLen - 1 + 1 - first = maxRangeLen
      omega
    constructor
    · intro plan hplan
      rcases List.mem_cons.mp hplan with rfl | hplan
      · exact Nat.le_of_eq hwhole
      · exact hbounded plan hplan
    · intro plan hplan
      cases plans with
      | nil => cases hplan
      | cons next plans =>
          rcases List.mem_cons.mp hplan with rfl | hplan
          · exact hwhole
          · exact hfull plan hplan

theorem partitions_planQueries (hto : toBlock ≤ u64Max) (hlen : 0 < maxRangeLen) {first : Nat}
    (hle : first ≤ toBlock) : Partitions first toBlock maxRangeLen
      (planQueries chain toBlock maxRangeLen finalityMode first) := by
  have htiles := tiles_planQueries chain finalityMode hto hlen hle
  have hblocks := blocks_planQueries chain finalityMode hto hlen hle
  have hlength := length_planQueries chain finalityMode hto hlen hle
  generalize planQueries chain toBlock maxRangeLen finalityMode first = plans at *
  have hne : plans ≠ [] := List.ne_nil_of_length_eq_add_one hlength
  exact {
    nonempty := fun plan hplan => (htiles.of_mem hplan).2.1
    consecutive := htiles.isChain
    bounded := hblocks.1
    starts := by
      rw [List.head?_eq_some_head hne, Option.map_some,
        htiles.of_head? (List.head?_eq_some_head hne)]
    ends := by
      have hlast := htiles.of_getLast? (List.getLast?_eq_some_getLast hne)
      rw [List.getLast?_eq_some_getLast hne, Option.map_some, Nat.succ.inj hlast]
    once := fun n hfirst hn => htiles.countP_eq_one hfirst (Nat.lt_succ_of_le hn)
    noneElse := fun n hn => htiles.countP_eq_zero hn
    full := hblocks.2 }

end

/-- The planner cuts its interval up, also if it ends at `u64::MAX`: the loop ends after a turn for each
plan, with no overflow, and the plans are consecutive ranges of `max_range_len` blocks, the last one
perhaps shorter, with each block of the interval in one of them. -/
theorem planEvmLogQueries_partitions (dataset : String) (chain : ChainConfig)
    (fromBlock toBlock maxRangeLen : Nat) (finalityMode : FinalityMode) (hle : fromBlock ≤ toBlock)
    (hto : toBlock ≤ u64Max) (hlen : 0 < maxRangeLen) (hcontracts : chain.contracts ≠ [])
    (htopics : chain.topics ≠ []) :
    ∃ plans, planEvmLogQueries dataset chain fromBlock toBlock maxRangeLen finalityMode = .ok plans ∧
      (∀ turns, (toBlock - fromBlock) / maxRangeLen + 1 < turns →
        planLoop chain toBlock maxRangeLen finalityMode turns fromBlock [] = some plans) ∧
      Partitions fromBlock toBlock maxRangeLen plans := by
  refine ⟨planQueries chain toBlock maxRangeLen finalityMode fromBlock, ?_, ?_,
    partitions_planQueries chain finalityMode hto hlen hle⟩
  · rw [planEvmLogQueries]
    simp [ensure, hle, hlen, hcontracts, htopics]
    rfl
  · intro turns hturns
    rw [← length_planQueries chain finalityMode hto hlen hle] at hturns
    exact planLoop_eq_some hto hlen hle turns hturns []

/-- Six blocks up to `u64::MAX`, four at a time. -/
theorem planEvmLogQueries_partitions_max :
    ∃ plans, planEvmLogQueries EVM_LOGS_DATASET
        ⟨46, 2830100, 1000, [ORMP_ADDRESS], [ORMP_MESSAGE_ACCEPTED_TOPIC], .finalized⟩
        (u64Max - 5) u64Max 4 .finalized = .ok plans ∧
      (∀ turns, (u64Max - (u64Max - 5)) / 4 + 1 < turns →
        planLoop ⟨46, 2830100, 1000, [ORMP_ADDRESS], [ORMP_MESSAGE_ACCEPTED_TOPIC], .finalized⟩
          u64Max 4 .finalized turns (u64Max - 5) [] = some plans) ∧
      Partitions (u64Max - 5) u64Max 4 plans :=
  planEvmLogQueries_partitions EVM_LOGS_DATASET _ _ _ 4 .finalized (Nat.sub_le _ _) (Nat.le_refl _)
    (by decide) (by decide) (by decide)

end OrmpIndexer
