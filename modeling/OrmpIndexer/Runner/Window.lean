/-
# OrmpIndexer.Runner.Window — commits behind an unverified window

Before a pass commits anything, the reorg check compares the stored anchors of its window with the
headers the chain has now. Of its five exits four return `None`, and the loop goes on after each of them:
one is an answer that does not cover the window. So a range is committed behind a verified window
exactly if that answer covered it (`WindowCovered`) — whatever the rest of the pass is told.
-/
import OrmpIndexer.Runner.Passes
import Mathlib.Data.List.TakeWhile

namespace OrmpIndexer

open Foundation Foundation.Task

namespace Runner

variable {Env : Type}

/-! ## The calls of the reorg check -/

def Call.asksHead : Call → Bool
  | ⟨.latestBlock .., _⟩ => true
  | _ => false

/-- The calls of a pass up to the end of its reorg check, which is when it asks for the head; the OLDEST
FIRST. -/
def checkCalls (pass : List Call) : List Call :=
  pass.reverse.takeWhile fun c => !c.asksHead

/-- Nothing that is called after the head is part of the check. -/
theorem checkCalls_append {pass : List Call} (h : ∃ c ∈ pass, c.asksHead = true) (new : List Call) :
    checkCalls (new ++ pass) = checkCalls pass := by
  obtain ⟨c, hc, hhead⟩ := h
  -- `takeWhile` stops inside `pass`, so what comes later does not matter
  have stops : ¬∀ d ∈ pass.reverse, (!d.asksHead) = true := fun all => by
    have := all c (List.mem_reverse.mpr hc)
    rw [hhead] at this
    cases this
  rw [checkCalls, List.reverse_append, List.takeWhile_append, if_neg, checkCalls]
  intro hlength
  refine stops (List.takeWhile_eq_self_iff.mp ?_)
  exact (List.takeWhile_prefix _).eq_of_length hlength

theorem checkCalls_cons_head {check : List Call} (h : ∀ c ∈ check, c.asksHead = false) (call : Call)
    (hcall : call.asksHead = true) : checkCalls (call :: check) = check.reverse := by
  rw [checkCalls, List.reverse_cons, List.takeWhile_append_of_pos, List.takeWhile_cons_of_neg,
    List.append_nil]
  · rw [hcall]
    decide
  · intro c hc
    rw [h c (List.mem_reverse.mp hc)]
    rfl

/-- A call was answered with success. -/
def Answered (calls : List Call) (op : Op) (a : Reply op) : Prop := ⟨op, .ok a⟩ ∈ calls

/-! ## Verified and covered -/

/-- The first block that a pass at checkpoint `next` has to verify if the blocks up to `finalized` are
final. The code saturates the addition (`windowStart`). -/
def unverifiedFrom (config : RuntimeConfig) (chain : ChainConfig) (next finalized : Nat) : Nat :=
  max (max chain.startBlock (next - config.reorgWindowBlocks)) (finalized + 1)

/-- The check found the block anchored with the hash it has in an answer that covers the window. -/
def Matched (chain : ChainConfig) (dataset : String) (window : BlockRange) (check : List Call)
    (n : Nat) : Prop :=
  ∃ anchors blocks,
    Answered check (.readBlockAnchors chain.chainId dataset window.fromBlock window.toBlock) anchors ∧
    Answered check (.queryBlocks (blockQuery chain window)) blocks ∧
    blocks.covers window.fromBlock window.toBlock = true ∧
    ∃ anchor block, lastWhere (fun anchor => anchor.blockNumber == n) anchors = some anchor ∧
      listedBlock blocks.blocks n = some block ∧ block.blockHash = anchor.blockHash

def RolledBack (chain : ChainConfig) (dataset : String) (check : List Call) (n : Nat) : Prop :=
  ∃ rollbackBlock ≤ n, Answered check (.rollbackLegacyFrom chain.chainId dataset rollbackBlock) ()

/-- Every stored block of the window was found to match or was rolled back. -/
def WindowVerified (config : RuntimeConfig) (chain : ChainConfig) (dataset : String)
    (check : List Call) : Prop :=
  ∀ next finalized : Nat, Answered check (.selectCheckpoint chain.chainId dataset) next →
    Answered check (.finalizedHead chain.chainId) finalized →
    ∀ n, unverifiedFrom config chain next finalized ≤ n → n < next →
      Matched chain dataset (reorgWindow config chain next finalized) check n ∨
        RolledBack chain dataset check n

/-- The window is empty, or the headers the check asked for cover it. -/
def WindowCovered (config : RuntimeConfig) (chain : ChainConfig) (dataset : String)
    (check : List Call) : Prop :=
  ∀ next finalized : Nat, Answered check (.selectCheckpoint chain.chainId dataset) next →
    Answered check (.finalizedHead chain.chainId) finalized →
    unverifiedFrom config chain next finalized < next →
    ∃ blocks,
      Answered check
        (.queryBlocks (blockQuery chain (reorgWindow config chain next finalized))) blocks ∧
      blocks.covers (reorgWindow config chain next finalized).fromBlock
        (reorgWindow config chain next finalized).toBlock = true

section

variable {config : RuntimeConfig} {chain : ChainConfig} {dataset : String} {check : List Call}

theorem windowStart_le_unverifiedFrom (config : RuntimeConfig) (chain : ChainConfig)
    (next finalized : Nat) :
    windowStart config chain next finalized ≤ unverifiedFrom config chain next finalized := by
  have : saturatingAdd finalized 1 ≤ finalized + 1 := by
    unfold saturatingAdd
    omega
  unfold windowStart unverifiedFrom
  omega

/-- With nothing to verify, both hold. -/
theorem verified_iff_covered_of_empty
    (h : ∀ next finalized : Nat, Answered check (.selectCheckpoint chain.chainId dataset) next →
      Answered check (.finalizedHead chain.chainId) finalized →
      next ≤ unverifiedFrom config chain next finalized) :
    WindowVerified config chain dataset check ↔ WindowCovered config chain dataset check := by
  refine iff_of_true (fun next finalized hnext hfinalized n hfrom hlt => ?_)
    (fun next finalized hnext hfinalized hlt => ?_)
  · exact absurd (Nat.lt_of_le_of_lt hfrom hlt) (Nat.not_lt.mpr (h _ _ hnext hfinalized))
  · exact absurd hlt (Nat.not_lt.mpr (h _ _ hnext hfinalized))

/-- What was answered in a check that got an answer for its window. -/
structure CheckAnswers (config : RuntimeConfig) (chain : ChainConfig) (dataset : String)
    (next finalized : Nat) (anchors : List BlockAnchor) (blocks : DatalensBlockQueryResult)
    (rollback : Option Nat) (check : List Call) : Prop where
  next_iff : ∀ a : Nat, Answered check (.selectCheckpoint chain.chainId dataset) a ↔ a = next
  finalized_iff : ∀ a : Nat, Answered check (.finalizedHead chain.chainId) a ↔ a = finalized
  anchors : Answered check (.readBlockAnchors chain.chainId dataset
    (reorgWindow config chain next finalized).fromBlock
    (reorgWindow config chain next finalized).toBlock) anchors
  blocks_iff : ∀ a, Answered check
    (.queryBlocks (blockQuery chain (reorgWindow config chain next finalized))) a ↔ a = blocks
  rollback_iff : ∀ a, Answered check (.rollbackLegacyFrom chain.chainId dataset a) () ↔
    rollback = some a

/-- The check rolls back if the answer covers the window, to the first block that diverges. -/
theorem CheckAnswers.verified_iff_covered {next finalized : Nat} {anchors : List BlockAnchor}
    {blocks : DatalensBlockQueryResult} {rollback : Option Nat}
    (h : CheckAnswers config chain dataset next finalized anchors blocks rollback check)
    (hrollback : rollback =
      if blocks.covers (reorgWindow config chain next finalized).fromBlock
          (reorgWindow config chain next finalized).toBlock then
        (blockNumbers (reorgWindow config chain next finalized)).find?
          (diverges anchors blocks.blocks)
      else none) :
    WindowVerified config chain dataset check ↔ WindowCovered config chain dataset check := by
  constructor
  · intro verified next' finalized' hnext hfinalized hlt
    obtain rfl := (h.next_iff _).mp hnext
    obtain rfl := (h.finalized_iff _).mp hfinalized
    -- the last stored block is in the window, and something verified it
    have last := verified next' finalized' hnext hfinalized (next' - 1) (by omega) (by omega)
    rcases last with ⟨_, blocks', _, hblocks, covers, _⟩ | ⟨b, _, hb⟩
    · exact ⟨blocks', hblocks, covers⟩
    · -- it rolls back only behind a covered window
      refine ⟨blocks, (h.blocks_iff _).mpr rfl, ?_⟩
      rw [(h.rollback_iff b).mp hb] at hrollback
      split at hrollback
      · assumption
      · cases hrollback
  · intro covered next' finalized' hnext hfinalized n hfrom hlt
    obtain ⟨blocks', hblocks, covers⟩ := covered next' finalized' hnext hfinalized (by omega)
    obtain rfl := (h.next_iff _).mp hnext
    obtain rfl := (h.finalized_iff _).mp hfinalized
    obtain rfl := (h.blocks_iff _).mp hblocks
    rw [if_pos covers] at hrollback
    have start := windowStart_le_unverifiedFrom config chain next' finalized'
    have same : (∀ first, rollback = some first → n < first) → diverges anchors blocks'.blocks n = false :=
      not_diverges_of_find hrollback.symm (Nat.le_trans start hfrom) (by
        show n ≤ next' - 1
        omega)
    by_cases hbefore : ∀ first, rollback = some first → n < first
    · exact .inl ⟨anchors, blocks', h.anchors, hblocks, covers, diverges_eq_false (same hbefore)⟩
    · -- the block or one below it diverged
      simp only [not_forall, Nat.not_lt] at hbefore
      obtain ⟨first, hfirst, hle⟩ := hbefore
      exact .inr ⟨first, hle, (h.rollback_iff first).mpr hfirst⟩

/-! ## A pass -/

/-- The check is over, and the head not asked for yet. -/
def CheckDone (config : RuntimeConfig) (chain : ChainConfig) (dataset : String) (w : World Env) :
    Prop :=
  (∀ c ∈ w.past, c.asksHead = false) ∧
    (WindowVerified config chain dataset w.past.reverse ↔
      WindowCovered config chain dataset w.past.reverse)

/-- The head was asked for. -/
def HeadAsked (config : RuntimeConfig) (chain : ChainConfig) (dataset : String) (w : World Env) :
    Prop :=
  (∃ c ∈ w.past, c.asksHead = true) ∧
    (WindowVerified config chain dataset (checkCalls w.past) ↔
      WindowCovered config chain dataset (checkCalls w.past))

/-- At a commit, the window is verified exactly if it is covered. -/
def CommitsVerified (config : RuntimeConfig) (chain : ChainConfig) (dataset : String) (w : World Env)
    (op : Op) : Prop :=
  ∀ events anchors chainId' dataset' nextBlock,
    op = .writeEventsAndAdvanceCheckpoint events anchors chainId' dataset' nextBlock →
    (WindowVerified config chain dataset (checkCalls w.past) ↔
      WindowCovered config chain dataset (checkCalls w.past))

theorem commitsVerified_of_read {w : World Env} {op : Op} (h : IsRead op) :
    CommitsVerified config chain dataset w op := by
  rintro _ _ _ _ _ rfl
  exact h.elim

theorem HeadAsked.stays {w w' : World Env} (h : HeadAsked config chain dataset w)
    (hw : Extends Call.Quiet w w') : HeadAsked config chain dataset w' := by
  obtain ⟨new, hnew, _⟩ := hw.past
  obtain ⟨⟨c, hc, hhead⟩, agree⟩ := h
  rw [HeadAsked, hnew, checkCalls_append ⟨c, hc, hhead⟩]
  exact ⟨⟨c, List.mem_append_right new hc, hhead⟩, agree⟩

theorem HeadAsked.commit {ix : Indexer} {w : World Env} (h : HeadAsked config chain dataset w)
    (op : Op) (r : Except Error (Reply op)) :
    HeadAsked config chain dataset (w.record ix.postgres op r) := by
  obtain ⟨⟨c, hc, hhead⟩, agree⟩ := h
  have past : (w.record ix.postgres op r).past = [⟨op, r⟩] ++ w.past := rfl
  rw [HeadAsked, past, checkCalls_append ⟨c, hc, hhead⟩]
  exact ⟨⟨c, List.mem_append_right _ hc, hhead⟩, agree⟩

variable {ix : Indexer} {allowed : Answers Env}

/-- The past of a check that got an answer for its window. -/
def checkPast (config : RuntimeConfig) (chain : ChainConfig) (dataset : String)
    (next finalized : Nat) (anchors : List BlockAnchor) (blocks : DatalensBlockQueryResult)
    (rollback : Option Nat) : List Call :=
  (rollback.map fun b => ⟨rollbackOp chain dataset b, .ok ()⟩).toList ++
    [⟨.queryBlocks (blockQuery chain (reorgWindow config chain next finalized)), .ok blocks⟩,
      ⟨.readBlockAnchors chain.chainId dataset (reorgWindow config chain next finalized).fromBlock
        (reorgWindow config chain next finalized).toBlock, .ok anchors⟩,
      ⟨.finalizedHead chain.chainId, .ok finalized⟩,
      ⟨.selectCheckpoint chain.chainId dataset, .ok next⟩, ⟨insertOp chain dataset, .ok ()⟩]

theorem checkDone_of_past (next finalized : Nat) (anchors : List BlockAnchor)
    (blocks : DatalensBlockQueryResult) (rollback : Option Nat) {w : World Env}
    (hpast : w.past = checkPast config chain dataset next finalized anchors blocks rollback)
    (hrollback : rollback =
      if blocks.covers (reorgWindow config chain next finalized).fromBlock
          (reorgWindow config chain next finalized).toBlock then
        (blockNumbers (reorgWindow config chain next finalized)).find?
          (diverges anchors blocks.blocks)
      else none) : CheckDone config chain dataset w := by
  refine ⟨?_, CheckAnswers.verified_iff_covered ?_ hrollback⟩
  · cases rollback <;> simp [hpast, checkPast, Call.asksHead, insertOp, rollbackOp]
  · rw [hpast]
    constructor <;> cases rollback <;> simp [checkPast, Answered, insertOp, rollbackOp, eq_comm]

/-- Every exit of the check. -/
theorem wp_check {next : Nat} {w : World Env}
    (hpast : w.past = [⟨.selectCheckpoint chain.chainId dataset, .ok next⟩,
      ⟨insertOp chain dataset, .ok ()⟩]) :
    Wp (Serves ix allowed) (CommitsVerified config chain dataset)
      (fun _ => CheckDone config chain dataset) (fun _ _ => True)
      (rollbackReorgedAnchors config chain dataset next) w := by
  refine wp_rollbackReorgedAnchors (fun w' op _ hop => commitsVerified_of_read hop)
    (fun _ _ _ => trivial) (fun hzero => ?_) (fun finalized _ hempty => ?_)
    (fun finalized window anchors blocks w' answered => ?_)
  · -- nothing stored
    refine ⟨?_, verified_iff_covered_of_empty fun next' finalized hnext _ => ?_⟩
    · simp [hpast, Call.asksHead, insertOp]
    · obtain rfl : next' = next := by simpa [Answered, hpast, insertOp] using hnext
      omega
  · -- an empty window
    refine ⟨?_, verified_iff_covered_of_empty fun next' finalized' hnext hfinalized => ?_⟩
    · simp [World.record, hpast, Call.asksHead, insertOp]
    · obtain rfl : next' = next := by simpa [Answered, World.record, hpast, insertOp] using hnext
      obtain rfl : finalized' = finalized := by
        simpa [Answered, World.record, hpast, insertOp] using hfinalized
      have start := windowStart_le_unverifiedFrom config chain next' finalized'
      change next' - 1 < windowStart config chain next' finalized' at hempty
      omega
  · obtain ⟨_, rfl, _, rfl⟩ := answered.answer
    obtain rfl := answered.window_eq
    -- wait, leave the window, or roll back: the past decides which it was
    refine ⟨fun hwait => ?_, fun covers => ⟨fun hsame => ?_, fun rollbackBlock hfirst => ?_⟩⟩
    · refine checkDone_of_past next finalized anchors blocks none (congrArg (_ :: _ :: _ :: ·) hpast) ?_
      rw [if_neg (by rw [hwait]; decide)]
    · refine checkDone_of_past next finalized anchors blocks none (congrArg (_ :: _ :: _ :: ·) hpast) ?_
      rw [if_pos covers, hsame]
    · refine ⟨fun _ _ _ _ _ h => (nomatch h), fun _ => ?_⟩
      refine checkDone_of_past next finalized anchors blocks (some rollbackBlock)
        (congrArg (_ :: _ :: _ :: _ :: ·) hpast) ?_
      rw [if_pos covers, hfirst]

/-- The pass after the check. -/
theorem wp_runToHead_of_checkDone {checkpoint : Checkpoint} {w : World Env}
    (h : CheckDone config chain dataset w) :
    Wp (Serves ix allowed) (CommitsVerified config chain dataset) (fun _ _ => True) (fun _ _ => True)
      (runToHead config chain dataset checkpoint) w := by
  obtain ⟨noHead, agree⟩ := h
  refine wp_runToHead (fun _ => HeadAsked config chain dataset)
    (commitsVerified_of_read (show IsRead (headOp chain) from trivial)) (fun _ _ => trivial)
    (fun latestBlock _ => ⟨⟨_, List.mem_cons_self, rfl⟩, ?_⟩) (fun latestBlock _ next range w' hw _ => ?_)
    (fun _ _ _ _ => trivial) (fun _ _ _ _ => trivial)
  -- asking for the head closes the check
  · have before := checkCalls_cons_head noHead ⟨headOp chain, .ok latestBlock⟩ rfl
    show WindowVerified config chain dataset (checkCalls (⟨headOp chain, .ok latestBlock⟩ :: w.past)) ↔
      WindowCovered config chain dataset (checkCalls (⟨headOp chain, .ok latestBlock⟩ :: w.past))
    rw [before]
    exact agree
  · refine wp_processRange (fun w'' op _ hop => commitsVerified_of_read hop) (fun _ _ _ => trivial)
      (fun report w'' _ _ hquiet => hw.stays hquiet) fun result servedEnd events anchors w'' commits => ?_
    have hw'' := hw.stays commits.quiet
    exact ⟨fun _ _ _ _ _ _ => hw''.2, fun report written _ _ _ => hw''.commit _ _⟩

end

/-- **No progress on an unverified window.** In the modes with anchors, from every stored state and
against every reader: when a pass is about to commit a range, every stored block of the window of its
reorg check was found to match or was rolled back, exactly if the window was empty or the block answer
covered it. -/
theorem committed_window_verified_iff {ix : Indexer} {config : RuntimeConfig} {chain : ChainConfig}
    {dataset : String} (hd : chainDataset chain.chainId = .ok dataset)
    (hmode : chain.finalityMode = .safe ∨ chain.finalityMode = .latest) {db : Database} {env : Env}
    {w : World Env} {events : List LegacyOrmPEvent} {anchors : List BlockAnchor} {chainId' : Nat}
    {dataset' : String} {nextBlock : Nat} {next : Except Error Nat → Async ChainRunReport}
    (hr : Reaches (Serves ix fun _ _ _ => True) (⟨db, [], env⟩, runChainOnce config chain)
      (w, .call (.writeEventsAndAdvanceCheckpoint events anchors chainId' dataset' nextBlock) next)) :
    WindowVerified config chain dataset (checkCalls w.past) ↔
      WindowCovered config chain dataset (checkCalls w.past) := by
  have mode : chain.finalityMode.usesReorgProtection = true := by
    rcases hmode with h | h <;> rw [h] <;> rfl
  have pass : Wp (Serves ix fun _ _ _ => True) (CommitsVerified config chain dataset)
      (fun _ _ => True) (fun _ _ => True) (runChainOnce config chain) ⟨db, [], env⟩ := by
    rw [runChainOnce, wp_bind, hd]
    show Wp _ _ _ _ (_ >>= _) _
    rw [wp_bind, wp_withContext]
    refine wp_readOrCreate (by rintro _ _ _ _ _ ⟨⟩) (fun _ _ _ => trivial)
      (commitsVerified_of_read trivial) (fun _ _ _ => trivial) fun stored w' _ _ hpast => ?_
    rw [wp_bind, checkedCheckpoint, if_pos mode, wp_bind]
    refine (wp_check hpast).imp (fun rollback w'' hdone => ?_) (fun _ _ _ => trivial)
    cases rollback <;> exact wp_runToHead_of_checkDone hdone
  exact (pass.reaches hr).1 events anchors chainId' dataset' nextBlock rfl

/-- Block 5 is indexed, with this hash. -/
def indexedFive : Database :=
  Postgres.legacyStore.writeEventsAndAdvanceCheckpoint .empty []
    [⟨46, EVM_LOGS_DATASET, 5, "0xaaaaa1", none, .latest⟩] 46 EVM_LOGS_DATASET 6

/-- Block 6 is new, and this is the answer for the window of the check, which is block 5. -/
def blockSix (window : DatalensBlockQueryResult) : World Unit → (op : Op) → Except Error (Reply op)
  | _, .latestBlock .. => .ok 6
  | _, .finalizedHead _ => .ok 0
  | _, .queryLogs _ => .ok ⟨[], some 6, some 6, none⟩
  | _, .queryBlocks query =>
      if query.fromBlock = 5 then .ok window
      else .ok ⟨[⟨46, 6, "0xccccc3", none⟩], some 6, some 6, none⟩
  | _, _ => .error []

/-- The commit of block 6. -/
abbrev commitSix : Op :=
  .writeEventsAndAdvanceCheckpoint [] [⟨46, EVM_LOGS_DATASET, 6, "0xccccc3", none, .latest⟩] 46
    EVM_LOGS_DATASET 7

/-- The pass, up to that commit. -/
def beforeSix (window : DatalensBlockQueryResult) : World Unit × Async ChainRunReport :=
  (runChainOnce ⟨⟨0⟩, [], 10⟩ (darwinia 5 1 .latest)).evalUntil
    (simulate hashIndexer (blockSix window)) (· == commitSix) ⟨indexedFive, [], ()⟩

theorem reaches_beforeSix (window : DatalensBlockQueryResult)
    (h : (beforeSix window).2.awaited = some commitSix) :
    ∃ next, Reaches (Serves hashIndexer fun _ _ _ => True)
      (⟨indexedFive, [], ()⟩, runChainOnce ⟨⟨0⟩, [], 10⟩ (darwinia 5 1 .latest))
      ((beforeSix window).1, .call commitSix next) := by
  obtain ⟨next, hnext⟩ := eq_call_of_awaited h
  refine ⟨next, ?_⟩
  rw [← hnext]
  exact reaches_evalUntil (s := ⟨indexedFive, [], ()⟩)
    (t := runChainOnce ⟨⟨0⟩, [], 10⟩ (darwinia 5 1 .latest))
    (serves_simulate fun _ _ _ _ => trivial) (· == commitSix)

/-- The check is told block 5 as it is stored. -/
def sameFive : DatalensBlockQueryResult := ⟨[⟨46, 5, "0xaaaaa1", none⟩], some 5, some 5, none⟩

/-- The check is told that block 5 is not followed yet. -/
def stalled : DatalensBlockQueryResult := ⟨[], none, none, some .notFollowedYet⟩

/-- The check told `window`: nothing is rolled back. -/
def checkOf (window : DatalensBlockQueryResult) : List Call :=
  [⟨.insertCheckpoint 46 EVM_LOGS_DATASET 5, .ok ()⟩,
    ⟨.selectCheckpoint 46 EVM_LOGS_DATASET, .ok 6⟩,
    ⟨.finalizedHead 46, .ok 0⟩,
    ⟨.readBlockAnchors 46 EVM_LOGS_DATASET 5 5,
      .ok [⟨46, EVM_LOGS_DATASET, 5, "0xaaaaa1", none, .latest⟩]⟩,
    ⟨.queryBlocks ⟨46, 5, 5, .latest⟩, .ok window⟩]

/-- With an answer for its window, the pass has verified block 5 when it commits block 6. -/
theorem committed_window_verified_sameFive : ∃ (w : World Unit)
    (next : Except Error Nat → Async ChainRunReport),
    Reaches (Serves hashIndexer fun _ _ _ => True)
      (⟨indexedFive, [], ()⟩, runChainOnce ⟨⟨0⟩, [], 10⟩ (darwinia 5 1 .latest))
      (w, .call commitSix next) ∧
    WindowVerified ⟨⟨0⟩, [], 10⟩ (darwinia 5 1 .latest) EVM_LOGS_DATASET (checkCalls w.past) := by
  obtain ⟨next, hr⟩ := reaches_beforeSix sameFive (by decide +kernel)
  refine ⟨_, next, hr, (committed_window_verified_iff rfl (.inr rfl) hr).mpr ?_⟩
  have calls : checkCalls (beforeSix sameFive).1.past = checkOf sameFive := by decide +kernel
  rw [calls]
  intro n finalized hn hfinalized _
  obtain rfl : n = 6 := by simpa [Answered, checkOf, darwinia] using hn
  obtain rfl : finalized = 0 := by simpa [Answered, checkOf, darwinia] using hfinalized
  have answered : Answered (checkOf sameFive) (.queryBlocks ⟨46, 5, 5, .latest⟩) sameFive := by
    simp [Answered, checkOf]
  exact ⟨sameFive, answered, by decide⟩

/-- The answer for the window is incomplete: block 6 is committed, and block 5 was neither found to match
nor rolled back. -/
theorem incomplete_answer_leaves_window_unverified : ∃ (w : World Unit)
    (next : Except Error Nat → Async ChainRunReport),
    Reaches (Serves hashIndexer fun _ _ _ => True)
      (⟨indexedFive, [], ()⟩, runChainOnce ⟨⟨0⟩, [], 10⟩ (darwinia 5 1 .latest))
      (w, .call commitSix next) ∧
    ¬WindowVerified ⟨⟨0⟩, [], 10⟩ (darwinia 5 1 .latest) EVM_LOGS_DATASET (checkCalls w.past) := by
  obtain ⟨next, hr⟩ := reaches_beforeSix stalled (by decide +kernel)
  refine ⟨_, next, hr, ?_⟩
  have calls : checkCalls (beforeSix stalled).1.past = checkOf stalled := by decide +kernel
  rw [calls]
  intro verified
  rcases verified 6 0 (by simp [Answered, checkOf, darwinia]) (by simp [Answered, checkOf, darwinia]) 5
    (by decide) (by decide) with ⟨_, blocks, _, hblocks, covers, _⟩ | ⟨b, _, hb⟩
  · obtain ⟨_, rfl⟩ : _ ∧ blocks = stalled := by simpa [Answered, checkOf, darwinia] using hblocks
    cases covers
  · simp [Answered, checkOf, darwinia] at hb

end Runner

end OrmpIndexer
