/-
# OrmpIndexer.Runner.Passes — invariants of passes and of runs

A pass is `read_or_create`, the reorg check, and the loop. `PassRules` lists what is left to show of a
property of passes once the rules of `Runner.Rules` have done their part: `I` holds wherever the pass
may be abandoned, `L next` from the reorg check on, with `next` the block the pass continues from.

`Keeps` is the case where the pass learns nothing on the way: an invariant of the stored data, which a
pass keeps if inserting a checkpoint, rolling back and committing a range do. Over passes and restarts
it holds in every state of a run (`Keeps.reachable`).
-/
import OrmpIndexer.Runner.History

namespace OrmpIndexer

open Foundation Foundation.Task

namespace Runner

variable {Env : Type}

/-- What is known when the loop begins a range: the head the pass was told, and the plan. -/
def Turn (allowed : Answers Env) (config : RuntimeConfig) (chain : ChainConfig) (next : Nat)
    (range : BlockRange) (w : World Env) : Prop :=
  ∃ latestBlock w₀, w₀.env = w.env ∧
    allowed w₀ (.latestBlock chain.chainId chain.finalityMode) latestBlock ∧
    Planned chain (latestBlock - config.datalens.headBufferBlocks) next range

/-- What remains to be shown of a property of passes. -/
structure PassRules (ix : Indexer) (allowed : Answers Env) (config : RuntimeConfig)
    (chain : ChainConfig) (dataset : String) (G : World Env → Op → Prop) (I : World Env → Prop)
    (L : Nat → World Env → Prop) : Prop where
  call : ∀ {w op}, I w → IsRead op → G w op
  quiet : ∀ {w w'}, I w → Extends Call.Quiet w w' → I w'
  insert : ∀ {w}, I w → G w (insertOp chain dataset) ∧
    I (w.record ix.postgres (insertOp chain dataset) (.ok ()))
  holds : ∀ {next w}, L next w → I w
  stays : ∀ {next w w'}, L next w → Extends Call.Quiet w w' → L next w'
  unchecked : ∀ {next w}, chain.finalityMode.usesReorgProtection = false → I w →
    w.db.checkpoint.get (chain.chainId, dataset) = some ⟨chain.chainId, dataset, next⟩ → L next w
  checked : ∀ {next w}, chain.finalityMode.usesReorgProtection = true → I w →
    w.db.checkpoint.get (chain.chainId, dataset) = some ⟨chain.chainId, dataset, next⟩ →
    Wp (Serves ix allowed) G (fun r => L (r.getD next)) (fun _ => I)
      (rollbackReorgedAnchors config chain dataset next) w
  commit : ∀ {next range w result servedEnd events anchors w'}, L next w →
    Turn allowed config chain next range w →
    CommitsAt ix allowed chain dataset range w result servedEnd events anchors w' →
    G w' (commitOp chain dataset range servedEnd events anchors) ∧ ∀ written,
      L (min servedEnd range.toBlock + 1) (w'.record ix.postgres
        (commitOp chain dataset range servedEnd events anchors) (.ok written))

section

variable {ix : Indexer} {allowed : Answers Env} {config : RuntimeConfig} {chain : ChainConfig}
variable {dataset : String} {G : World Env → Op → Prop} {I : World Env → Prop}
variable {L : Nat → World Env → Prop}

theorem PassRules.wp_checkedCheckpoint
    (h : PassRules ix allowed config chain dataset G I L) {next : Nat} {w : World Env} (hI : I w)
    (stored : w.db.checkpoint.get (chain.chainId, dataset) =
      some ⟨chain.chainId, dataset, next⟩) :
    Wp (Serves ix allowed) G (fun checkpoint => L checkpoint.nextBlock) (fun _ => I)
      (checkedCheckpoint config chain dataset ⟨chain.chainId, dataset, next⟩) w := by
  unfold checkedCheckpoint
  cases mode : chain.finalityMode.usesReorgProtection with
  | false => exact h.unchecked mode hI stored
  | true =>
      rw [if_pos rfl, wp_bind]
      refine (h.checked mode hI stored).imp (fun r w' hL => ?_) (fun _ _ he => he)
      cases r <;> exact hL

theorem PassRules.wp_processRange (h : PassRules ix allowed config chain dataset G I L)
    {next : Nat} {range : BlockRange} {w : World Env} (hL : L next w)
    (turn : Turn allowed config chain next range w) :
    Wp (Serves ix allowed) G (fun report w' => L report.nextBlock w' ∧ w'.env = w.env)
      (fun _ => I) (processRange chain dataset range) w := by
  have start : range.fromBlock = next := by
    obtain ⟨_, _, _, _, planned⟩ := turn
    exact planned.start
  refine Runner.wp_processRange (fun w' op hw hop => h.call (h.holds (h.stays hL hw)) hop)
    (fun e w' hw => h.holds (h.stays hL hw)) (fun report w' hnext _ hw => ?_)
    (fun result servedEnd events anchors w' commits => ?_)
  · refine ⟨?_, hw.env⟩
    rw [hnext, start]
    exact h.stays hL hw
  · obtain ⟨hG, hstep⟩ := h.commit hL turn commits
    refine ⟨hG, fun report written hnext _ _ => ⟨?_, commits.quiet.env⟩⟩
    rw [hnext]
    exact hstep written

/-- The rule of a pass. -/
theorem PassRules.wp_runChainOnce (h : PassRules ix allowed config chain dataset G I L)
    (hd : chainDataset chain.chainId = .ok dataset) {w : World Env} (hI : I w) :
    Wp (Serves ix allowed) G (fun _ w' => ∃ next, L next w') (fun _ => I)
      (runChainOnce config chain) w := by
  rw [runChainOnce, wp_bind, hd]
  show Wp (Serves ix allowed) G _ (fun _ => I) (_ >>= _) w
  rw [wp_bind, wp_withContext]
  have hinsert := (h.insert hI).2
  -- the checkpoint, the check, and the loop, each with `I` to fall back to
  refine wp_readOrCreate (h.insert hI).1 (fun e w' hw => h.quiet hI hw)
    (h.call hinsert trivial) (fun e w' hw => h.quiet hinsert hw)
    fun next w' hw stored _ => ?_
  rw [wp_bind]
  refine (h.wp_checkedCheckpoint (h.quiet hinsert hw) stored).imp (fun checkpoint w₁ hL => ?_)
    (fun _ _ he => he)
  have isRead : IsRead (headOp chain) := trivial
  -- the head was asked for in `w₁`, and the ranges are planned later in the same environment
  refine wp_runToHead (fun next w => L next w ∧ w.env = w₁.env) (h.call (h.holds hL) isRead)
    (fun e m => h.holds (h.stays hL quiet_record_error))
    (fun latestBlock _ => ⟨h.stays hL (quiet_record_read isRead), rfl⟩)
    (fun latestBlock head next range w' hw planned => ?_)
    (fun e next w hw => h.holds hw.1) (fun report next w hw => ⟨next, hw.1⟩)
  refine (h.wp_processRange hw.1 ⟨latestBlock, w₁, hw.2.symm, head, planned⟩).imp
    (fun report w'' hw'' => ⟨hw''.1, hw''.2.trans hw.2⟩) (fun _ _ he => he)

/-! ## Invariants of the stored data -/

/-- What a rollback of the reorg check knows: the window was answered completely, and the block is the
first one that is not the same any more. -/
structure RollsBack (ix : Indexer) (allowed : Answers Env) (config : RuntimeConfig)
    (chain : ChainConfig) (dataset : String) (next : Nat) (w : World Env) (finalized : Nat)
    (window : BlockRange) (anchors : List BlockAnchor) (blocks : DatalensBlockQueryResult)
    (rollbackBlock : Nat) (w' : World Env) : Prop where
  answered : WindowAnswered ix allowed config chain dataset next w finalized window anchors blocks w'
  covers : blocks.covers window.fromBlock window.toBlock = true
  first : (blockNumbers window).find? (diverges anchors blocks.blocks) = some rollbackBlock

/-- The steps that change stored data keep `I` and meet their obligations. -/
structure Keeps (ix : Indexer) (allowed : Answers Env) (config : RuntimeConfig)
    (chain : ChainConfig) (dataset : String) (G : World Env → Op → Prop) (I : World Env → Prop) :
    Prop where
  call : ∀ {w op}, I w → IsRead op → G w op
  quiet : ∀ {w w'}, I w → Extends Call.Quiet w w' → I w'
  insert : ∀ {w}, I w → G w (insertOp chain dataset) ∧
    I (w.record ix.postgres (insertOp chain dataset) (.ok ()))
  rollback : ∀ {w finalized window anchors blocks rollbackBlock w'}, I w →
    chain.finalityMode.usesReorgProtection = true →
    RollsBack ix allowed config chain dataset (nextBlock chain dataset w.db) w finalized window
      anchors blocks rollbackBlock w' →
    G w' (rollbackOp chain dataset rollbackBlock) ∧
      (allowed w' (rollbackOp chain dataset rollbackBlock) () →
        I (w'.record ix.postgres (rollbackOp chain dataset rollbackBlock) (.ok ())))
  commit : ∀ {range w result servedEnd events anchors w'}, I w →
    Turn allowed config chain (nextBlock chain dataset w.db) range w →
    CommitsAt ix allowed chain dataset range w result servedEnd events anchors w' →
    G w' (commitOp chain dataset range servedEnd events anchors) ∧ ∀ written,
      I (w'.record ix.postgres (commitOp chain dataset range servedEnd events anchors)
        (.ok written))

theorem Keeps.passRules (h : Keeps ix allowed config chain dataset G I) :
    PassRules ix allowed config chain dataset G I
      fun next w => I w ∧ nextBlock chain dataset w.db = next where
  call := h.call
  quiet := h.quiet
  insert := h.insert
  holds hL := hL.1
  stays hL hw := ⟨h.quiet hL.1 hw, by rw [hw.db, hL.2]⟩
  unchecked _ hI stored := ⟨hI, nextBlock_of_get stored⟩
  checked {next w} mode hI stored := by
    have hnext : nextBlock chain dataset w.db = next := nextBlock_of_get stored
    refine wp_rollbackReorgedAnchors (fun w' op hw hop => h.call (h.quiet hI hw) hop)
      (fun e w' hw => h.quiet hI hw) (fun _ => ⟨hI, hnext⟩) (fun finalized _ _ => ?_)
      (fun finalized window anchors blocks w' answered => ?_)
    · exact ⟨h.quiet hI (quiet_record_read (show IsRead (.finalizedHead _) from trivial)), hnext⟩
    · have same : I w' ∧ nextBlock chain dataset w'.db = next :=
        ⟨h.quiet hI answered.quiet, by rw [answered.quiet.db, hnext]⟩
      refine ⟨fun _ => same, fun covers => ⟨fun _ => same, fun rollbackBlock first => ?_⟩⟩
      subst hnext
      obtain ⟨hG, hI'⟩ := h.rollback hI mode ⟨answered, covers, first⟩
      exact ⟨hG, fun ha => ⟨hI' ha, nextBlock_rollback⟩⟩
  commit {next range w _ _ _ _ _} hL turn commits := by
    obtain ⟨hI, rfl⟩ := hL
    obtain ⟨hG, hI'⟩ := h.commit hI turn commits
    exact ⟨hG, fun written => ⟨hI' written, nextBlock_commit⟩⟩

/-- The rule of runs: what passes keep holds in every state of a run, and every call still ahead meets
its obligation. -/
theorem Keeps.reachable (h : Keeps ix allowed config chain dataset G I)
    (hd : chainDataset chain.chainId = .ok dataset) (obligation : ∀ w op, G w op → I w)
    {init : World Env → Prop} {between : World Env → World Env → Prop} (hinit : ∀ w, init w → I w)
    (hbetween : ∀ w w', I w → between w w' → I w') {w : World Env} {t : Async ChainRunReport}
    (hr : Reachable (Serves ix allowed) init between (runChainOnce config chain) w t) :
    I w ∧ Wp (Serves ix allowed) G (fun _ => I) (fun _ => I) t w := by
  -- a run is a sequence of passes, each kept by `PassRules.wp_runChainOnce`
  refine Reachable.wp hinit hbetween (fun w hI => ?_) obligation (fun _ _ hQ => hQ) (fun _ _ he => he) hr
  exact (h.passRules.wp_runChainOnce hd hI).imp (fun _ _ ⟨_, hL⟩ => hL.1) fun _ _ he => he

end

end Runner

end OrmpIndexer
