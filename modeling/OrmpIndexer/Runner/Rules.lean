/-
# OrmpIndexer.Runner.Rules — a pass, taken apart

One rule for each function of `Runner`, in the order of the source. The rule of a function says what is
left to show when its calls are answered in every way the environment allows; proofs about passes use
the rules and never unfold the functions.

Most of what a pass does changes nothing, so the rules ask for obligations that survive `Extends`.
`CommitsAt` is the exception: it holds everything a pass knows at the moment it commits a range, and the
order in which it learned it.
-/
import OrmpIndexer.Runner.Environment

namespace OrmpIndexer

open Foundation Foundation.Task

namespace Runner

section

variable {Env : Type} {ix : Indexer} {allowed : Answers Env} {α β : Type}
variable {G : World Env → Op → Prop} {Q : α → World Env → Prop} {E : Error → World Env → Prop}

/-! ## The anchors of a range -/

theorem mem_blockNumbers {range : BlockRange} {n : Nat} :
    n ∈ blockNumbers range ↔ range.fromBlock ≤ n ∧ n ≤ range.toBlock := by
  rw [blockNumbers, List.mem_range'_1]
  omega

/-- The headers of a range give one anchor for each of its blocks. -/
theorem mem_blockAnchorsFromBlocks {chainId : Nat} {dataset : String} {finality : FinalityMode}
    {range : BlockRange} {blocks : List DatalensBlock} {anchors : List BlockAnchor}
    (h : blockAnchorsFromBlocks chainId dataset finality range blocks = .ok anchors)
    {anchor : BlockAnchor} : anchor ∈ anchors ↔
      ∃ n, range.fromBlock ≤ n ∧ n ≤ range.toBlock ∧ ∃ block, listedBlock blocks n = some block ∧
        anchor = ⟨chainId, dataset, n, block.blockHash, block.parentHash, finality⟩ := by
  have one : ∀ {n : Nat} {anchor : BlockAnchor},
      blockAnchorFromBlocks chainId dataset finality blocks n = .ok anchor ↔
        ∃ block, listedBlock blocks n = some block ∧
          anchor = ⟨chainId, dataset, n, block.blockHash, block.parentHash, finality⟩ := by
    intro n anchor
    unfold blockAnchorFromBlocks
    cases listedBlock blocks n <;> simp [eq_comm]
  -- the range is mapped block by block, and every block has to be listed
  obtain ⟨hkept, hall⟩ := mapM_eq_ok h
  constructor
  · intro ha
    obtain ⟨n, hn, hanchor⟩ := hkept anchor ha
    obtain ⟨hfrom, hto⟩ := mem_blockNumbers.mp hn
    exact ⟨n, hfrom, hto, one.mp hanchor⟩
  · rintro ⟨n, hfrom, hto, block, hlisted, hanchor⟩
    obtain ⟨a, ha, hok⟩ := hall n (mem_blockNumbers.mpr ⟨hfrom, hto⟩)
    obtain ⟨block', hlisted', rfl⟩ := one.mp hok
    obtain rfl := Option.some.inj (hlisted'.symm.trans hlisted)
    rw [hanchor]
    exact ha

/-- The block request of `block_anchors_for_range` and of the reorg check. -/
def blockQuery (chain : ChainConfig) (range : BlockRange) : DatalensBlockQuery where
  chainId := chain.chainId
  fromBlock := range.fromBlock
  toBlock := range.toBlock
  finalityMode := chain.finalityMode

/-- The three ways a range gets its anchors: from its logs where blocks are final; none, because the
whole range is final by now; or from the headers of the blocks that are not. -/
inductive AnchorsFor (ix : Indexer) (allowed : Answers Env) (chain : ChainConfig) (dataset : String)
    (range : BlockRange) (logs : List DatalensLog) :
    World Env → List BlockAnchor → World Env → Prop where
  | fromLogs {w : World Env} (mode : chain.finalityMode.usesReorgProtection = false) :
      AnchorsFor ix allowed chain dataset range logs w
        (blockAnchorsFromLogs chain.chainId dataset chain.finalityMode logs) w
  | allFinal {w : World Env} {finalized : Nat}
      (mode : chain.finalityMode.usesReorgProtection = true)
      (head : allowed w (.finalizedHead chain.chainId) finalized)
      (final : range.toBlock < max range.fromBlock (saturatingAdd finalized 1)) :
      AnchorsFor ix allowed chain dataset range logs w []
        (w.record ix.postgres (.finalizedHead chain.chainId) (.ok finalized))
  | fromHeaders {w : World Env} {finalized : Nat} {blocks : DatalensBlockQueryResult}
      {anchors : List BlockAnchor} {checked : BlockRange}
      (mode : chain.finalityMode.usesReorgProtection = true)
      (head : allowed w (.finalizedHead chain.chainId) finalized)
      (hchecked : checked = ⟨max range.fromBlock (saturatingAdd finalized 1), range.toBlock⟩)
      (open_ : checked.fromBlock ≤ checked.toBlock)
      (answer : allowed (w.record ix.postgres (.finalizedHead chain.chainId) (.ok finalized))
        (.queryBlocks (blockQuery chain checked)) blocks)
      (covers : blocks.covers checked.fromBlock checked.toBlock = true)
      (headers : blockAnchorsFromBlocks chain.chainId dataset chain.finalityMode checked
        blocks.blocks = .ok anchors) :
      AnchorsFor ix allowed chain dataset range logs w anchors
        ((w.record ix.postgres (.finalizedHead chain.chainId) (.ok finalized)).record ix.postgres
          (.queryBlocks (blockQuery chain checked)) (.ok blocks))

theorem AnchorsFor.quiet {chain : ChainConfig} {dataset : String} {range : BlockRange}
    {logs : List DatalensLog} {w w' : World Env} {anchors : List BlockAnchor}
    (h : AnchorsFor ix allowed chain dataset range logs w anchors w') :
    Extends Call.Quiet w w' := by
  have head : ∀ r, Extends Call.Quiet w (w.record ix.postgres (.finalizedHead chain.chainId) r) :=
    fun r => quiet_record_read (show IsRead (.finalizedHead _) from trivial)
  cases h with
  | fromLogs => exact .refl w
  | allFinal => exact head _
  | fromHeaders =>
      exact (head _).trans (quiet_record_read (show IsRead (.queryBlocks _) from trivial))

/-- A call that reads, after calls that read: if it is answered, the rest of the program goes on in a
world where nothing has been written. -/
theorem wp_read {w₀ w : World Env} {op : Op} {message : String} {next : Reply op → Async α}
    (hread : IsRead op) (quiet : Extends Call.Quiet w₀ w)
    (call : ∀ w' op, Extends Call.Quiet w₀ w' → IsRead op → G w' op)
    (fail : ∀ e w', Extends Call.Quiet w₀ w' → E e w')
    (answered : ∀ a, storeAnswers ix w.db op a → allowed w op a →
      Extends Call.Quiet w₀ (w.record ix.postgres op (.ok a)) →
        Wp (Serves ix allowed) G Q E (next a) (w.record ix.postgres op (.ok a))) :
    Wp (Serves ix allowed) G Q E (withContext message (await op) >>= next) w := by
  rw [wp_bind, wp_withContext, wp_call]
  refine ⟨call w op quiet hread, ?_, ?_⟩
  · intro a hstore hallowed
    exact answered a hstore hallowed (quiet.trans (quiet_record_read hread))
  · intro e
    exact fail _ _ (quiet.trans quiet_record_error)

theorem wp_blockAnchorsForRange {chain : ChainConfig} {dataset : String} {range : BlockRange}
    {logs : List DatalensLog} {w : World Env} {Q : Option (List BlockAnchor) → World Env → Prop}
    (call : ∀ w' op, Extends Call.Quiet w w' → IsRead op → G w' op)
    (fail : ∀ e w', Extends Call.Quiet w w' → E e w')
    (wait : ∀ w', Extends Call.Quiet w w' → Q none w')
    (done : ∀ anchors w', AnchorsFor ix allowed chain dataset range logs w anchors w' →
      Q (some anchors) w') :
    Wp (Serves ix allowed) G Q E (blockAnchorsForRange chain dataset range logs) w := by
  unfold blockAnchorsForRange
  cases mode : chain.finalityMode.usesReorgProtection with
  | false => exact done _ w (.fromLogs mode)
  | true =>
      rw [if_neg (by simp), finalizedHead]
      refine wp_read trivial (.refl w) call fail fun finalized _ head quiet => ?_
      dsimp only
      split
      · rename_i final
        exact done [] _ (.allFinal mode head final)
      · rename_i hopen
        refine wp_read trivial quiet call fail fun blocks _ answer quiet => ?_
        split
        · exact wait _ quiet
        · rename_i covers
          rw [wp_bind, wp_ofExcept]
          refine ⟨fun anchors headers => ?_, fun e _ => fail _ _ quiet⟩
          exact done anchors _ (.fromHeaders mode head rfl (Nat.not_lt.mp hopen) answer
            (by simpa using covers) headers)

/-! ## One range -/

/-- The request of `query_range_once`. -/
def logQuery (chain : ChainConfig) (range : BlockRange) : DatalensLogQuery where
  chainId := chain.chainId
  fromBlock := range.fromBlock
  toBlock := range.toBlock
  contracts := chain.contracts
  topics := chain.topics
  finalityMode := chain.finalityMode

/-- The last block of a range that an answer serves. -/
def servedTo (range : BlockRange) (servedEnd : Nat) : BlockRange where
  fromBlock := range.fromBlock
  toBlock := min servedEnd range.toBlock

/-- What is known when the range that was begun in `w` is about to be committed in `w'`: the log
answer `result` serves the range from its first block on, all its logs decode, and the anchors belong to
the served part. -/
structure CommitsAt (ix : Indexer) (allowed : Answers Env) (chain : ChainConfig) (dataset : String)
    (range : BlockRange) (w : World Env) (result : DatalensLogQueryResult) (servedEnd : Nat)
    (events : List LegacyOrmPEvent) (anchors : List BlockAnchor) (w' : World Env) : Prop where
  answer : allowed w (.queryLogs (logQuery chain range)) result
  starts : result.servedStart = some range.fromBlock
  ends : result.servedEnd = some servedEnd
  decoded : decodeAll ix.decoder result.logs = .ok events
  bounded : min servedEnd range.toBlock + 1 ≤ u64Max
  anchored : ∃ w₁, Extends Call.IsDecode
      (w.record ix.postgres (.queryLogs (logQuery chain range)) (.ok result)) w₁ ∧
    AnchorsFor ix allowed chain dataset (servedTo range servedEnd) result.logs w₁ anchors w'

theorem CommitsAt.quiet {chain : ChainConfig} {dataset : String} {range : BlockRange}
    {w w' : World Env} {result : DatalensLogQueryResult} {servedEnd : Nat}
    {events : List LegacyOrmPEvent} {anchors : List BlockAnchor}
    (h : CommitsAt ix allowed chain dataset range w result servedEnd events anchors w') :
    Extends Call.Quiet w w' := by
  obtain ⟨w₁, hdecode, hanchors⟩ := h.anchored
  exact ((quiet_record_read (show IsRead (.queryLogs _) from trivial)).trans
    (hdecode.imp fun _ hc => hc.quiet)).trans hanchors.quiet

/-- The commit of a range. -/
def commitOp (chain : ChainConfig) (dataset : String) (range : BlockRange) (servedEnd : Nat)
    (events : List LegacyOrmPEvent) (anchors : List BlockAnchor) : Op :=
  .writeEventsAndAdvanceCheckpoint events anchors chain.chainId dataset
    (min servedEnd range.toBlock + 1)

/-- A range ends in one of three ways: with an error and nothing committed, waiting with nothing
committed and the pass over, or committed. The pass goes on only after a range that was committed up to
its last block. -/
theorem wp_processRange {chain : ChainConfig} {dataset : String} {range : BlockRange}
    {w : World Env} {Q : ProcessedRangeReport → World Env → Prop}
    (call : ∀ w' op, Extends Call.Quiet w w' → IsRead op → G w' op)
    (fail : ∀ e w', Extends Call.Quiet w w' → E e w')
    (wait : ∀ report w', report.nextBlock = range.fromBlock → report.stopPoll = true →
      Extends Call.Quiet w w' → Q report w')
    (commit : ∀ result servedEnd events anchors w',
      CommitsAt ix allowed chain dataset range w result servedEnd events anchors w' →
      G w' (commitOp chain dataset range servedEnd events anchors) ∧
        ∀ report written, report.nextBlock = min servedEnd range.toBlock + 1 →
          (report.stopPoll = false → min servedEnd range.toBlock = range.toBlock) →
          allowed w' (commitOp chain dataset range servedEnd events anchors) written →
          Q report (w'.record ix.postgres
            (commitOp chain dataset range servedEnd events anchors) (.ok written))) :
    Wp (Serves ix allowed) G Q E (processRange chain dataset range) w := by
  rw [processRange, queryRangeOnce]
  refine wp_read trivial (.refl w) call fail fun result _ answer quiet => ?_
  -- nothing served: the pass waits
  unfold processSuccessfulRange
  split
  · exact wait _ _ rfl rfl quiet
  rename_i servedEnd hend
  rw [wp_bind, wp_ofExcept]
  -- a window that starts elsewhere is an error
  refine ⟨fun servedStart hstart => ?_, fun e _ => fail _ _ quiet⟩
  split
  · exact fail _ _ quiet
  rename_i heq
  -- from here on the calls are those of the decoder, up to the anchors
  have decodes : ∀ {w'}, Extends Call.IsDecode
      (w.record ix.postgres (.queryLogs (logQuery chain range)) (.ok result)) w' →
      Extends Call.Quiet w w' := fun h => quiet.trans (h.imp fun _ hc => hc.quiet)
  rw [wp_bind]
  refine wp_decodeLogs (fun w' log h => call w' _ (decodes h) trivial)
    (fun e w' h => fail _ _ (decodes h)) fun events w₁ decoded hdecode => ?_
  rw [wp_bind, wp_ofExcept]
  refine ⟨fun nextBlock hnext => ?_, fun e _ => fail _ _ (decodes hdecode)⟩
  obtain ⟨rfl, bounded⟩ := checkedAdd_eq_some.mp (contextOption_eq_ok.mp hnext)
  rw [wp_bind]
  refine wp_blockAnchorsForRange (fun w' op h hop => call w' op ((decodes hdecode).trans h) hop)
    (fun e w' h => fail _ _ ((decodes hdecode).trans h))
    (fun w' h => wait _ _ rfl rfl ((decodes hdecode).trans h)) fun anchors w' hanchors => ?_
  -- all a pass knows when it commits
  have commits : CommitsAt ix allowed chain dataset range w result servedEnd events anchors w' := {
    answer := answer
    starts := by rw [contextOption_eq_ok.mp hstart, Decidable.not_not.mp heq]
    ends := hend
    decoded := decoded
    bounded := bounded
    anchored := ⟨w₁, hdecode, hanchors⟩ }
  obtain ⟨hG, hQ⟩ := commit result servedEnd events anchors w' commits
  dsimp only
  rw [wp_bind, wp_withContext]
  refine (wp_call (commitOp chain dataset range servedEnd events anchors)).mpr
    ⟨hG, fun written _ hwritten => ?_,
      fun e => fail _ _ (((decodes hdecode).trans hanchors.quiet).trans quiet_record_error)⟩
  -- the poll goes on, so the window was not cut short
  refine hQ _ written rfl (fun hstop => ?_) hwritten
  have hstop : decide (min servedEnd range.toBlock < range.toBlock) = false :=
    (Bool.or_eq_false_iff.mp hstop).2
  have := of_decide_eq_false hstop
  omega

/-! ## The loop -/

/-- The range the loop plans at a checkpoint: it starts there, is not empty, and ends at the target or
after a batch. -/
structure Planned (chain : ChainConfig) (targetBlock nextBlock : Nat) (range : BlockRange) :
    Prop where
  start : range.fromBlock = nextBlock
  stop : range.toBlock = min (nextBlock + chain.batchSize - 1) targetBlock
  nonempty : range.fromBlock ≤ range.toBlock

theorem planned_of_planNextRange {chain : ChainConfig} {targetBlock : Nat} {checkpoint : Checkpoint}
    {range : BlockRange} (h : planNextRange checkpoint chain.batchSize = .ok range)
    (hle : checkpoint.nextBlock ≤ targetBlock) :
    Planned chain targetBlock checkpoint.nextBlock
      { range with toBlock := min range.toBlock targetBlock } := by
  obtain ⟨hstart, hstop, hbatch, _⟩ := planNextRange_eq_ok h
  refine ⟨hstart, ?_, ?_⟩
  · show min range.toBlock targetBlock = _
    omega
  · show range.fromBlock ≤ min range.toBlock targetBlock
    omega

/-- The loop rule. `L next stop w` is the loop invariant: `next` is the block the pass continues from, and
`stop` says that the poll is over. -/
theorem wp_runRanges_polling {chain : ChainConfig} {dataset : String} {targetBlock : Nat}
    {Q : ChainRunReport → World Env → Prop} (L : Nat → Bool → World Env → Prop)
    (step : ∀ next range w, L next false w → next ≤ targetBlock →
      Planned chain targetBlock next range →
      Wp (Serves ix allowed) G (fun report => L report.nextBlock report.stopPoll) E
        (processRange chain dataset range) w)
    (fail : ∀ e next w, L next false w → E e w)
    (done : ∀ report next stop w, L next stop w → Q report w)
    (fuel : Nat) {checkpoint : Checkpoint} {report : ChainRunReport} {stopPoll : Bool}
    {w : World Env} (h : L checkpoint.nextBlock stopPoll w) :
    Wp (Serves ix allowed) G Q E
      (runRanges chain dataset targetBlock fuel checkpoint report stopPoll) w := by
  -- one turn keeps `L`, and the turns go on from the block it leaves
  induction fuel generalizing checkpoint report stopPoll w with
  | zero => exact done report _ _ w h
  | succ fuel ih =>
      unfold runRanges
      split
      · rename_i hturn
        obtain rfl : stopPoll = false := by simpa using hturn.2
        rw [wp_bind, wp_ofExcept]
        refine ⟨fun range hrange => ?_, fun e _ => fail e _ w h⟩
        rw [wp_bind]
        refine (step _ _ w h hturn.1
          (planned_of_planNextRange (context_eq_ok.mp hrange) hturn.1)).imp
          (fun rangeReport w' hL => ih hL) (fun e w' he => he)
      · exact done report _ _ w h

/-- The loop rule for an invariant that does not mention the poll. -/
theorem wp_runRanges {chain : ChainConfig} {dataset : String} {targetBlock : Nat}
    {Q : ChainRunReport → World Env → Prop} (L : Nat → World Env → Prop)
    (step : ∀ next range w, L next w → Planned chain targetBlock next range →
      Wp (Serves ix allowed) G (fun report => L report.nextBlock) E
        (processRange chain dataset range) w)
    (fail : ∀ e next w, L next w → E e w) (done : ∀ report next w, L next w → Q report w)
    (fuel : Nat) {checkpoint : Checkpoint} {report : ChainRunReport} {stopPoll : Bool}
    {w : World Env} (h : L checkpoint.nextBlock w) :
    Wp (Serves ix allowed) G Q E
      (runRanges chain dataset targetBlock fuel checkpoint report stopPoll) w :=
  wp_runRanges_polling (fun next _ => L next) (fun next range w hL _ => step next range w hL) fail
    (fun report next _ => done report next) fuel h

/-- The head request of a pass. -/
abbrev headOp (chain : ChainConfig) : Op := .latestBlock chain.chainId chain.finalityMode

theorem wp_runToHead {config : RuntimeConfig} {chain : ChainConfig} {dataset : String}
    {checkpoint : Checkpoint} {w : World Env} {Q : ChainRunReport → World Env → Prop}
    (L : Nat → World Env → Prop) (call : G w (headOp chain))
    (failHead : ∀ e m, E m (w.record ix.postgres (headOp chain) (.error e)))
    (head : ∀ latestBlock, allowed w (headOp chain) latestBlock →
      L checkpoint.nextBlock (w.record ix.postgres (headOp chain) (.ok latestBlock)))
    (step : ∀ latestBlock, allowed w (headOp chain) latestBlock → ∀ next range w', L next w' →
      Planned chain (latestBlock - config.datalens.headBufferBlocks) next range →
      Wp (Serves ix allowed) G (fun report => L report.nextBlock) E
        (processRange chain dataset range) w')
    (fail : ∀ e next w, L next w → E e w) (done : ∀ report next w, L next w → Q report w) :
    Wp (Serves ix allowed) G Q E (runToHead config chain dataset checkpoint) w := by
  rw [runToHead, wp_bind, wp_withContext]
  refine (wp_call (headOp chain)).mpr ⟨call, fun latestBlock _ hlatest => ?_, fun e => failHead e _⟩
  have hL := head latestBlock hlatest
  dsimp only
  split
  · exact done _ _ _ hL
  · rw [wp_bind]
    exact wp_runRanges L (step latestBlock hlatest) fail (fun report next w hL => done _ next w hL)
      _ hL

/-! ## The start of a pass -/

/-- The INSERT of `read_or_create`. -/
def insertOp (chain : ChainConfig) (dataset : String) : Op :=
  .insertCheckpoint chain.chainId dataset chain.startBlock

theorem wp_readOrCreate {chain : ChainConfig} {dataset : String} {w : World Env}
    {Q : Checkpoint → World Env → Prop} (insert : G w (insertOp chain dataset))
    (fail : ∀ e w', Extends Call.Quiet w w' → E e w')
    (select : G (w.record ix.postgres (insertOp chain dataset) (.ok ()))
      (.selectCheckpoint chain.chainId dataset))
    (fail' : ∀ e w', Extends Call.Quiet
      (w.record ix.postgres (insertOp chain dataset) (.ok ())) w' → E e w')
    (done : ∀ nextBlock w', Extends Call.Quiet
        (w.record ix.postgres (insertOp chain dataset) (.ok ())) w' →
      w'.db.checkpoint.get (chain.chainId, dataset) =
        some { chainId := chain.chainId, dataset, nextBlock } →
      w'.past = ⟨.selectCheckpoint chain.chainId dataset, .ok nextBlock⟩ ::
        (w.record ix.postgres (insertOp chain dataset) (.ok ())).past →
      Q { chainId := chain.chainId, dataset, nextBlock } w') :
    Wp (Serves ix allowed) G Q E (readOrCreate chain.chainId dataset chain.startBlock) w := by
  rw [readOrCreate, wp_bind]
  refine (wp_call (insertOp chain dataset)).mpr ⟨insert, fun _ _ _ => ?_,
    fun e => fail _ _ quiet_record_error⟩
  rw [wp_bind]
  refine (wp_call (.selectCheckpoint chain.chainId dataset)).mpr ⟨select,
    fun nextBlock hnext _ => ?_, fun e => fail' _ _ quiet_record_error⟩
  exact done nextBlock _ (quiet_record_read (show IsRead (.selectCheckpoint _ _) from trivial))
    hnext rfl

/-! ## The reorg check -/

/-- A block that does not diverge is anchored with the hash it is listed with. -/
theorem diverges_eq_false {anchors : List BlockAnchor} {blocks : List DatalensBlock} {n : Nat}
    (h : diverges anchors blocks n = false) :
    ∃ anchor block, lastWhere (fun anchor => anchor.blockNumber == n) anchors = some anchor ∧
      listedBlock blocks n = some block ∧ block.blockHash = anchor.blockHash := by
  unfold diverges at h
  split at h
  · cases h
  rename_i anchor hanchor
  split at h
  · cases h
  rename_i block hblock
  exact ⟨anchor, block, hanchor, hblock, by simpa using h⟩

/-- The blocks of the range before the first that diverges do not, and none does if there is no first. -/
theorem not_diverges_of_find {window : BlockRange} {anchors : List BlockAnchor}
    {blocks : List DatalensBlock} {found : Option Nat}
    (h : (blockNumbers window).find? (diverges anchors blocks) = found) {n : Nat}
    (hfrom : window.fromBlock ≤ n) (hto : n ≤ window.toBlock)
    (hbefore : ∀ first, found = some first → n < first) : diverges anchors blocks n = false := by
  cases found with
  | none =>
      have same := List.find?_eq_none.mp h n (mem_blockNumbers.mpr ⟨hfrom, hto⟩)
      exact (Bool.not_eq_true _).mp same
  | some first =>
      have same := (List.find?_range'_eq_some.mp h).2.2 n hfrom (hbefore first rfl)
      exact (Bool.not_eq_true' _).mp same

/-- The blocks the reorg check compares: the stored ones inside the reorg window that were not reported
final. -/
def reorgWindow (config : RuntimeConfig) (chain : ChainConfig) (checkpointNextBlock finalized : Nat) :
    BlockRange where
  fromBlock := windowStart config chain checkpointNextBlock finalized
  toBlock := checkpointNextBlock - 1

/-- The reorg check begun in `w` has an answer for its window in `w'`. -/
structure WindowAnswered (ix : Indexer) (allowed : Answers Env) (config : RuntimeConfig)
    (chain : ChainConfig) (dataset : String) (checkpointNextBlock : Nat) (w : World Env)
    (finalized : Nat) (window : BlockRange) (anchors : List BlockAnchor)
    (blocks : DatalensBlockQueryResult) (w' : World Env) : Prop where
  head : allowed w (.finalizedHead chain.chainId) finalized
  window_eq : window = reorgWindow config chain checkpointNextBlock finalized
  stored : 0 < checkpointNextBlock
  nonempty : window.fromBlock ≤ window.toBlock
  anchors_eq : anchors = ix.postgres.readBlockAnchors w.db chain.chainId dataset window.fromBlock
    window.toBlock
  answer : ∃ w₁, w₁ = (w.record ix.postgres (.finalizedHead chain.chainId) (.ok finalized)).record
      ix.postgres (.readBlockAnchors chain.chainId dataset window.fromBlock window.toBlock)
        (.ok anchors) ∧
    allowed w₁ (.queryBlocks (blockQuery chain window)) blocks ∧
    w' = w₁.record ix.postgres (.queryBlocks (blockQuery chain window)) (.ok blocks)

theorem WindowAnswered.quiet {config : RuntimeConfig} {chain : ChainConfig} {dataset : String}
    {checkpointNextBlock finalized : Nat} {window : BlockRange} {anchors : List BlockAnchor}
    {blocks : DatalensBlockQueryResult} {w w' : World Env}
    (h : WindowAnswered ix allowed config chain dataset checkpointNextBlock w finalized window
      anchors blocks w') : Extends Call.Quiet w w' := by
  obtain ⟨_, rfl, _, rfl⟩ := h.answer
  exact ((quiet_record_read (show IsRead (.finalizedHead _) from trivial)).trans
    (quiet_record_read (show IsRead (.readBlockAnchors _ _ _ _) from trivial))).trans
      (quiet_record_read (show IsRead (.queryBlocks _) from trivial))

/-- The rollback of the reorg check. -/
def rollbackOp (chain : ChainConfig) (dataset : String) (rollbackBlock : Nat) : Op :=
  .rollbackLegacyFrom chain.chainId dataset rollbackBlock

/-- The five exits of the reorg check: nothing stored, the window empty, the answer incomplete, the
window unchanged, or a rollback. The first four all return `None`. -/
theorem wp_rollbackReorgedAnchors {config : RuntimeConfig} {chain : ChainConfig} {dataset : String}
    {checkpointNextBlock : Nat} {w : World Env} {Q : Option Nat → World Env → Prop}
    (call : ∀ w' op, Extends Call.Quiet w w' → IsRead op → G w' op)
    (fail : ∀ e w', Extends Call.Quiet w w' → E e w')
    (nothing : checkpointNextBlock = 0 → Q none w)
    (empty : ∀ finalized, allowed w (.finalizedHead chain.chainId) finalized →
      (reorgWindow config chain checkpointNextBlock finalized).toBlock <
        (reorgWindow config chain checkpointNextBlock finalized).fromBlock →
      Q none (w.record ix.postgres (.finalizedHead chain.chainId) (.ok finalized)))
    (answered : ∀ finalized window anchors blocks w', WindowAnswered ix allowed config chain dataset
        checkpointNextBlock w finalized window anchors blocks w' →
      (blocks.covers window.fromBlock window.toBlock = false → Q none w') ∧
      (blocks.covers window.fromBlock window.toBlock = true →
        ((blockNumbers window).find? (diverges anchors blocks.blocks) = none → Q none w') ∧
        ∀ rollbackBlock,
          (blockNumbers window).find? (diverges anchors blocks.blocks) = some rollbackBlock →
          G w' (rollbackOp chain dataset rollbackBlock) ∧
            (allowed w' (rollbackOp chain dataset rollbackBlock) () →
              Q (some rollbackBlock)
                (w'.record ix.postgres (rollbackOp chain dataset rollbackBlock) (.ok ()))))) :
    Wp (Serves ix allowed) G Q E
      (rollbackReorgedAnchors config chain dataset checkpointNextBlock) w := by
  unfold rollbackReorgedAnchors
  split
  -- `checked_sub` fails at checkpoint 0 only
  · rename_i hnone
    refine nothing (Nat.eq_zero_of_not_pos fun hpos => ?_)
    rw [checkedSub, if_pos (Nat.succ_le_iff.mpr hpos)] at hnone
    cases hnone
  rename_i toBlock hto
  obtain ⟨hpos, rfl⟩ := checkedSub_eq_some.mp hto
  rw [finalizedHead]
  refine wp_read trivial (.refl w) call fail fun finalized _ head quiet => ?_
  dsimp only
  split
  · rename_i hempty
    exact empty finalized head hempty
  rename_i hnonempty
  refine wp_read trivial quiet call fail fun anchors hanchors _ quiet => ?_
  refine wp_read trivial quiet call fail fun blocks _ answer quiet => ?_
  -- the answer for the window is here: wait, leave it, or roll back
  obtain ⟨hwait, hcompare⟩ := answered finalized
    (reorgWindow config chain checkpointNextBlock finalized) anchors blocks _
    { head := head
      window_eq := rfl
      stored := hpos
      nonempty := Nat.not_lt.mp hnonempty
      anchors_eq := hanchors
      answer := ⟨_, rfl, answer, rfl⟩ }
  split
  · rename_i hcovers
    exact hwait ((Bool.not_eq_true' _).mp hcovers)
  rename_i hcovers
  obtain ⟨hsame, hroll⟩ := hcompare
    (Bool.eq_true_of_not_eq_false fun h => hcovers ((Bool.not_eq_true' _).mpr h))
  split
  · rename_i hfind
    exact hsame hfind
  · rename_i rollbackBlock hfind
    obtain ⟨hG, hQ⟩ := hroll rollbackBlock hfind
    rw [wp_bind, wp_withContext]
    exact (wp_call (rollbackOp chain dataset rollbackBlock)).mpr ⟨hG, fun _ _ h => hQ h,
      fun e => fail _ _ (quiet.trans quiet_record_error)⟩

end

/-! ## The kinds of calls -/

section

variable {P : Op → Prop} {chain : ChainConfig} {dataset : String} {range : BlockRange}

theorem calls_withContext {message : String} {op : Op} (h : P op) :
    Calls P (withContext message (await op)) :=
  calls_mapError (calls_await h)

theorem calls_decodeLogs (decode : ∀ log, P (.decode log)) (logs : List DatalensLog) :
    Calls P (decodeLogs logs) := by
  induction logs with
  | nil => trivial
  | cons log logs ih =>
      exact calls_bind (calls_withContext (decode log)) fun events => calls_bind ih fun rest => trivial

theorem key_blockAnchorsFromLogs {chainId : Nat} {finality : FinalityMode}
    {logs : List DatalensLog} {anchor : BlockAnchor}
    (h : anchor ∈ blockAnchorsFromLogs chainId dataset finality logs) :
    (anchor.chainId, anchor.dataset) = (chainId, dataset) := by
  rw [blockAnchorsFromLogs, List.mem_insertionSort] at h
  revert anchor h
  apply List.foldlRecOn logs _ (motive := fun anchors : List BlockAnchor =>
    ∀ anchor ∈ anchors, (anchor.chainId, anchor.dataset) = (chainId, dataset))
  · simp
  · intro anchors hanchors log _
    split
    · exact hanchors
    split
    · exact hanchors
    intro anchor hanchor
    rcases List.mem_append.mp hanchor with hanchor | hanchor
    · exact hanchors anchor hanchor
    · rw [List.mem_singleton.mp hanchor]

/-- The anchors of a range are anchors of its chain. -/
theorem returns_blockAnchorsForRange {range : BlockRange} {logs : List DatalensLog} :
    Returns (fun anchors => ∀ as ∈ anchors, ∀ anchor ∈ as,
        (anchor.chainId, anchor.dataset) = (chain.chainId, dataset))
      (blockAnchorsForRange chain dataset range logs) := by
  unfold blockAnchorsForRange
  split
  · rintro as ⟨⟩ anchor hanchor
    exact key_blockAnchorsFromLogs hanchor
  refine returns_bind.mpr (returns_of_forall (fun finalized => ?_) _)
  dsimp only
  split
  · rintro as ⟨⟩ anchor hanchor
    cases hanchor
  refine returns_bind.mpr (returns_of_forall (fun blocks => ?_) _)
  split
  · intro as has
    cases has
  refine returns_bind.mpr (returns_ofExcept fun anchors hanchors => ?_)
  rintro as ⟨⟩ anchor hanchor
  obtain ⟨_, _, _, _, _, rfl⟩ := (mem_blockAnchorsFromBlocks hanchors).mp hanchor
  rfl

theorem calls_blockAnchorsForRange {logs : List DatalensLog}
    (head : P (.finalizedHead chain.chainId)) (headers : ∀ query, P (.queryBlocks query)) :
    Calls P (blockAnchorsForRange chain dataset range logs) := by
  unfold blockAnchorsForRange
  split
  · trivial
  refine calls_bind (calls_withContext head) fun finalized => ?_
  dsimp only
  split
  · trivial
  refine calls_bind (calls_withContext (headers _)) fun blocks => ?_
  split
  · trivial
  · exact calls_bind (calls_ofExcept _) fun anchors => trivial

/-- After its log query, a range decodes, asks for what its anchors need, and commits. -/
theorem calls_processSuccessfulRange {result : DatalensLogQueryResult}
    (decode : ∀ log, P (.decode log)) (head : P (.finalizedHead chain.chainId))
    (headers : ∀ query, P (.queryBlocks query))
    (commit : ∀ events anchors nextBlock,
      (∀ anchor ∈ anchors, (anchor.chainId, anchor.dataset) = (chain.chainId, dataset)) →
      P (.writeEventsAndAdvanceCheckpoint events anchors chain.chainId dataset nextBlock)) :
    Calls P (processSuccessfulRange chain dataset range result) := by
  unfold processSuccessfulRange
  split
  · trivial
  refine calls_bind (calls_ofExcept _) fun servedStart => ?_
  split
  · trivial
  refine calls_bind (calls_decodeLogs decode _) fun events => ?_
  refine calls_bind (calls_ofExcept _) fun nextBlock => ?_
  refine calls_bind_of_returns (calls_blockAnchorsForRange head headers)
    returns_blockAnchorsForRange fun anchors hanchors => ?_
  cases anchors with
  | none => trivial
  | some anchors =>
      exact calls_bind (calls_withContext (commit _ _ _ (hanchors anchors rfl)))
        fun written => trivial

theorem calls_rollbackReorgedAnchors {config : RuntimeConfig} {checkpointNextBlock : Nat}
    (head : P (.finalizedHead chain.chainId))
    (anchors : ∀ fromBlock toBlock, P (.readBlockAnchors chain.chainId dataset fromBlock toBlock))
    (headers : ∀ query, P (.queryBlocks query))
    (rollback : ∀ rollbackBlock, P (.rollbackLegacyFrom chain.chainId dataset rollbackBlock)) :
    Calls P (rollbackReorgedAnchors config chain dataset checkpointNextBlock) := by
  unfold rollbackReorgedAnchors
  split
  · trivial
  refine calls_bind (calls_withContext head) fun finalized => ?_
  dsimp only
  split
  · trivial
  refine calls_bind (calls_withContext (anchors _ _)) fun anchors => ?_
  refine calls_bind (calls_withContext (headers _)) fun blocks => ?_
  split
  · trivial
  split
  · trivial
  · exact calls_bind (calls_withContext (rollback _)) fun _ => trivial

end

/-! ## Executing a range -/

section

variable {Env : Type} {ix : Indexer} {reader : World Env → (op : Op) → Except Error (Reply op)}
variable {chain : ChainConfig} {dataset : String} {range : BlockRange} {w : World Env}
variable {result : DatalensLogQueryResult}

theorem eval_call {message : String} (op : Op) {a : Reply op} (h : reply ix reader w op = .ok a) :
    (withContext message (await op)).eval (simulate ix reader) w =
      (.ok a, w.record ix.postgres op (.ok a)) := by
  apply eval_mapError_of_ok
  show simulate ix reader w op = _
  rw [simulate, h]

theorem eval_decodeLogs (reader : World Env → (op : Op) → Except Error (Reply op)) (w : World Env)
    {logs : List DatalensLog} {events : List LegacyOrmPEvent}
    (h : decodeAll ix.decoder logs = .ok events) :
    ∃ w', (decodeLogs logs).eval (simulate ix reader) w = (.ok events, w') := by
  induction logs generalizing w events with
  | nil =>
      cases h
      exact ⟨w, rfl⟩
  | cons log logs ih =>
      obtain ⟨first, rest, hfirst, hrest, rfl⟩ := decodeAll_cons_eq_ok.mp h
      obtain ⟨w', heval⟩ := ih (w.record ix.postgres (.decode log) (.ok first)) hrest
      refine ⟨w', ?_⟩
      rw [decodeLogs, eval_bind_of_ok (eval_call (.decode log) hfirst), eval_bind_of_ok heval]
      rfl

/-- A range that is committed, one call after the other. -/
theorem eval_processRange {servedEnd : Nat} {events : List LegacyOrmPEvent}
    {anchors : List BlockAnchor} {w₁ w₂ : World Env}
    (hlogs : reply ix reader w (.queryLogs (logQuery chain range)) = .ok result)
    (hstart : result.servedStart = some range.fromBlock) (hend : result.servedEnd = some servedEnd)
    (hdecode : (decodeLogs result.logs).eval (simulate ix reader)
      (w.record ix.postgres (.queryLogs (logQuery chain range)) (.ok result)) = (.ok events, w₁))
    (hnext : min servedEnd range.toBlock + 1 ≤ u64Max)
    (hanchors : (blockAnchorsForRange chain dataset (servedTo range servedEnd) result.logs).eval
      (simulate ix reader) w₁ = (.ok (some anchors), w₂)) :
    ∃ report, (processRange chain dataset range).eval (simulate ix reader) w =
        (.ok report, w₂.record ix.postgres (commitOp chain dataset range servedEnd events anchors)
          (.ok events.length)) ∧
      report.nextBlock = min servedEnd range.toBlock + 1 ∧
      report.stopPoll =
        (result.incompleteReason.isSome || decide (min servedEnd range.toBlock < range.toBlock)) := by
  have logs : (queryRangeOnce chain dataset range).eval (simulate ix reader) w =
      (.ok result, w.record ix.postgres (.queryLogs (logQuery chain range)) (.ok result)) :=
    eval_call (.queryLogs (logQuery chain range)) hlogs
  have next : checkedAdd (min servedEnd range.toBlock) 1 = some (min servedEnd range.toBlock + 1) :=
    checkedAdd_eq_some.mpr ⟨rfl, hnext⟩
  refine ⟨{ nextBlock := min servedEnd range.toBlock + 1, rangesQueried := 1,
            recordsRead := result.logs.length, recordsDecoded := events.length,
            recordsWritten := events.length, checkpointsAdvanced := 1,
            stopPoll := result.incompleteReason.isSome ||
              decide (min servedEnd range.toBlock < range.toBlock) }, ?_, rfl, rfl⟩
  rw [processRange, eval_bind_of_ok logs]
  unfold processSuccessfulRange
  simp only [hend, hstart, contextOption, next]
  rw [eval_bind_of_ok (eval_ofExcept _ _), if_neg (fun h => h rfl), eval_bind_of_ok hdecode,
    eval_bind_of_ok (eval_ofExcept _ _)]
  change (blockAnchorsForRange chain dataset (servedTo range servedEnd) result.logs >>= _).eval _ _ = _
  rw [eval_bind_of_ok hanchors]
  exact eval_bind_of_ok (eval_call (commitOp chain dataset range servedEnd events anchors)
    (a := events.length) rfl)

end

end Runner

end OrmpIndexer
