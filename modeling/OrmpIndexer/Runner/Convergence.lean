/-
# OrmpIndexer.Runner.Convergence — the stored rows follow the canonical chain

In every state of a run the stored rows are those of SOME fork (`StoredAs`): of the block anchored at a
number, or of the canonical block where nothing is anchored because the block was final when it was
indexed. The reorg check finds the blocks where fork and canonical chain differ, with one exception: a
block that was anchored, replaced, and reported final before the next check is below the window. If that
does not happen (`FinalAsAnchored`), fork and chain agree from the check on.
-/
import OrmpIndexer.Runner.Canonical

namespace OrmpIndexer

open Foundation Foundation.Task

namespace Runner

/-- The stored rows are exactly those of the canonical chain from `start_block` up to the checkpoint. -/
def StoresCanonical {decoder : EventDecoder} (chain : ChainConfig) (dataset : String)
    {blocks : BlockLogs chain.chainId} (w : World (CanonicalChain decoder blocks)) : Prop :=
  ∀ k r, w.db.eventRow k = some r ↔
    ∃ n, chain.startBlock ≤ n ∧ n < nextBlock chain dataset w.db ∧ w.env.rows n k = some r

section

variable {ix : Indexer} (config : RuntimeConfig) (chain : ChainConfig) (dataset : String)
variable {blocks : BlockLogs chain.chainId}

/-- The store holds the rows of a fork. -/
structure StoredAs (fork : Nat → String) (w : World (CanonicalChain ix.decoder blocks)) : Prop where
  begun : chain.startBlock ≤ nextBlock chain dataset w.db
  rows : Layered (fun n => blocks.rows ix.decoder n (fork n)) chain.startBlock
    (nextBlock chain dataset w.db) w.db.eventRow
  anchored : ∀ {n anchor}, w.db.blockAnchor.get (chain.chainId, dataset, n) = some anchor →
    chain.startBlock ≤ n ∧ n < nextBlock chain dataset w.db ∧
      blocks.rows ix.decoder n (fork n) = blocks.rows ix.decoder n anchor.blockHash
  final : ∀ {n}, chain.startBlock ≤ n → n < nextBlock chain dataset w.db →
    w.db.blockAnchor.get (chain.chainId, dataset, n) = none →
    Final chain.chainId w.past n ∧ blocks.rows ix.decoder n (fork n) = w.env.rows n
  settled : ∀ {n}, chain.startBlock ≤ n →
    n < nextBlock chain dataset w.db - config.reorgWindowBlocks →
    blocks.rows ix.decoder n (fork n) = w.env.rows n
  reaches : ∀ {n}, chain.startBlock ≤ n → n < nextBlock chain dataset w.db → n ≤ w.env.head

variable {config chain dataset} {fork : Nat → String}
variable {w w' : World (CanonicalChain ix.decoder blocks)}

theorem Final.mono {chainId : Nat} {past : List Call} {n : Nat} (h : Final chainId past n)
    (new : List Call) : Final chainId (new ++ past) n := by
  obtain ⟨finalized, hmem, hle⟩ := h
  exact ⟨finalized, List.mem_append_right new hmem, hle⟩

theorem rows_eq_of_hashAt {view view' : CanonicalChain ix.decoder blocks} {n : Nat}
    (h : view'.hashAt n = view.hashAt n) : view'.rows n = view.rows n := by
  rw [CanonicalChain.rows, h, CanonicalChain.rows]

namespace StoredAs

/-- What does not touch rows, anchors and checkpoint keeps the fork. -/
theorem congr (h : StoredAs config chain dataset fork w) (henv : w'.env = w.env)
    (hrow : ∀ k, w'.db.eventRow k = w.db.eventRow k) (hanchor : w'.db.blockAnchor = w.db.blockAnchor)
    (hnext : nextBlock chain dataset w'.db = nextBlock chain dataset w.db)
    (hpast : ∃ new, w'.past = new ++ w.past) : StoredAs config chain dataset fork w' where
  begun := by rw [hnext]; exact h.begun
  rows k r := by rw [hnext, hrow]; exact h.rows k r
  anchored ha := by
    rw [hanchor] at ha
    rw [hnext]
    exact h.anchored ha
  final hn hlt ha := by
    rw [hnext] at hlt
    rw [hanchor] at ha
    obtain ⟨new, hnew⟩ := hpast
    obtain ⟨final, same⟩ := h.final hn hlt ha
    rw [hnew, henv]
    exact ⟨final.mono new, same⟩
  settled hn hlt := by
    rw [hnext] at hlt
    rw [henv]
    exact h.settled hn hlt
  reaches hn hlt := by
    rw [hnext] at hlt
    rw [henv]
    exact h.reaches hn hlt

theorem quiet (h : StoredAs config chain dataset fork w) (hw : Extends Call.Quiet w w') :
    StoredAs config chain dataset fork w' := by
  obtain ⟨new, hnew, _⟩ := hw.past
  exact h.congr hw.env (fun k => by rw [hw.db]) (by rw [hw.db]) (by rw [hw.db]) ⟨new, hnew⟩

/-- A reorganisation changes what is canonical, not what is stored. -/
theorem reorg (h : StoredAs config chain dataset fork w) (hw : Reorg config chain dataset w w') :
    StoredAs config chain dataset fork w' where
  begun := by rw [hw.db]; exact h.begun
  rows := by rw [hw.db]; exact h.rows
  anchored ha := by
    rw [hw.db] at ha ⊢
    exact h.anchored ha
  final hn hlt ha := by
    rw [hw.db] at hlt ha
    obtain ⟨final, same⟩ := h.final hn hlt ha
    rw [hw.past, rows_eq_of_hashAt (hw.final _ final)]
    exact ⟨final, same⟩
  settled hn hlt := by
    rw [hw.db] at hlt
    rw [rows_eq_of_hashAt (hw.agrees _ hn hlt)]
    exact h.settled hn hlt
  reaches hn hlt := by
    rw [hw.db] at hlt
    exact hw.reaches _ hn hlt

/-- A fork that agrees with the canonical chain may be taken for it. -/
theorem canonical (h : StoredAs config chain dataset fork w)
    (same : ∀ n, chain.startBlock ≤ n → n < nextBlock chain dataset w.db →
      blocks.rows ix.decoder n (fork n) = w.env.rows n) :
    StoredAs config chain dataset w.env.hashAt w where
  begun := h.begun
  rows := h.rows.congr same
  anchored ha := by
    obtain ⟨hn, hlt, hrows⟩ := h.anchored ha
    exact ⟨hn, hlt, (same _ hn hlt).symm.trans hrows⟩
  final hn hlt ha := ⟨(h.final hn hlt ha).1, rfl⟩
  settled _ _ := rfl
  reaches := h.reaches

/-- Below the window nothing differs: a block there was final when it was indexed, lies below what a
reorganisation can reach, or was reported final as it is anchored. -/
theorem same_below_window (h : StoredAs config chain dataset fork w) {finalized : Nat}
    (head : CanonicalFinalAsAnchored config chain dataset ix.postgres w
      (.finalizedHead chain.chainId) finalized) {n : Nat} (hn : chain.startBlock ≤ n)
    (hlt : n < nextBlock chain dataset w.db)
    (hwindow : n < windowStart config chain (nextBlock chain dataset w.db) finalized) :
    blocks.rows ix.decoder n (fork n) = w.env.rows n := by
  cases ha : w.db.blockAnchor.get (chain.chainId, dataset, n) with
  | none => exact (h.final hn hlt ha).2
  | some anchor =>
      rcases Nat.lt_or_ge n (nextBlock chain dataset w.db - config.reorgWindowBlocks) with hdeep | hnear
      · exact h.settled hn hdeep
      -- near the checkpoint only the finalized head can have raised the start of the window
      · have hfinal : n ≤ finalized := by
          have : saturatingAdd finalized 1 ≤ finalized + 1 := by
            unfold saturatingAdd
            omega
          unfold windowStart at hwindow
          omega
        rw [(h.anchored ha).2.2]
        exact head.2 n anchor hn hnear hfinal ha

/-- In the window, a block that does not diverge does not differ. -/
theorem same_of_not_diverges (h : StoredAs config chain dataset fork w) {window : BlockRange}
    {blocksNow : List DatalensBlock} {n : Nat}
    (same : diverges (ix.postgres.readBlockAnchors w.db chain.chainId dataset window.fromBlock
      window.toBlock) blocksNow n = false)
    (listed : ∃ block, listedBlock blocksNow n = some block ∧ block.blockHash = w.env.hashAt n) :
    blocks.rows ix.decoder n (fork n) = w.env.rows n := by
  -- fork and canonical chain both have the hash of the anchor
  obtain ⟨anchor, block, hanchor, hblock, hhash⟩ := diverges_eq_false same
  obtain ⟨block', hblock', hnow⟩ := listed
  obtain rfl := Option.some.inj (hblock.symm.trans hblock')
  have hget := ix.postgres.get_of_readBlockAnchors hanchor
  rw [(h.anchored hget).2.2, ← hhash, hnow]
  rfl

/-- Before the first block that diverges, nothing differs. -/
theorem same_of_checked (h : StoredAs config chain dataset fork w) {finalized : Nat}
    (head : CanonicalFinalAsAnchored config chain dataset ix.postgres w
      (.finalizedHead chain.chainId) finalized) {window : BlockRange}
    (hwindow : window = reorgWindow config chain (nextBlock chain dataset w.db) finalized)
    {blocksNow : List DatalensBlock}
    (listed : ∀ n, window.fromBlock ≤ n → n ≤ window.toBlock →
      ∃ block, listedBlock blocksNow n = some block ∧ block.blockHash = w.env.hashAt n)
    {found : Option Nat} (hfound : (blockNumbers window).find?
      (diverges (ix.postgres.readBlockAnchors w.db chain.chainId dataset window.fromBlock window.toBlock)
        blocksNow) = found) {n : Nat} (hn : chain.startBlock ≤ n)
    (hlt : n < nextBlock chain dataset w.db) (hbefore : ∀ first, found = some first → n < first) :
    blocks.rows ix.decoder n (fork n) = w.env.rows n := by
  subst hwindow
  rcases Nat.lt_or_ge n (windowStart config chain (nextBlock chain dataset w.db) finalized) with
    hbelow | hinside
  · exact h.same_below_window head hn hlt hbelow
  · have hto : n ≤ nextBlock chain dataset w.db - 1 := by omega
    have same := not_diverges_of_find hfound hinside hto hbefore
    exact h.same_of_not_diverges same (listed n hinside hto)

theorem origin (h : StoredAs config chain dataset fork w) {k : LegacyTable × String} {r : LegacyRow}
    (hr : w.db.eventRow k = some r) :
    FromLogBelow ix.decoder chain.chainId (nextBlock chain dataset w.db) r := by
  obtain ⟨n, _, hlt, hrow⟩ := (h.rows k r).mp hr
  exact BlockLogs.fromLogBelow_of_rows hrow hlt

/-- A rollback takes the blocks from some block on off the fork. -/
theorem rollback (h : StoredAs config chain dataset fork w) {rollbackBlock : Nat}
    (hlo : chain.startBlock ≤ rollbackBlock) (hhi : rollbackBlock ≤ nextBlock chain dataset w.db)
    (finds : FindsSignatures ix.postgres w.db chain.chainId dataset rollbackBlock) :
    StoredAs config chain dataset fork
      (w.record ix.postgres (rollbackOp chain dataset rollbackBlock) (.ok ())) := by
  set w₁ := w.record ix.postgres (rollbackOp chain dataset rollbackBlock) (.ok ())
  have hnext : nextBlock chain dataset w₁.db = rollbackBlock := nextBlock_rollback
  have hanchor : w₁.db.blockAnchor = w.db.blockAnchor.deleteWhere fun anchor =>
      anchor.chainId == chain.chainId && anchor.dataset == dataset &&
        decide (rollbackBlock ≤ anchor.blockNumber) := ix.postgres.blockAnchor_rollback ..
  have kept : ∀ {n anchor}, n < rollbackBlock →
      w.db.blockAnchor.get (chain.chainId, dataset, n) = some anchor →
      w₁.db.blockAnchor.get (chain.chainId, dataset, n) = some anchor := by
    intro n anchor hlt hget
    obtain ⟨_, _, hblock⟩ := BlockAnchor.key_of_get hget
    rw [hanchor, Table.get_deleteWhere_eq_some]
    refine ⟨hget, ?_⟩
    rw [decide_eq_false (by omega), Bool.and_false]
  refine ⟨by rw [hnext]; exact hlo, ?_, fun {n anchor} ha => ?_, fun {n} hn hlt ha => ?_,
    fun {n} hn hlt => ?_, fun {n} hn hlt => ?_⟩
  -- the rows left are those below the rollback block
  · rw [hnext]
    apply h.rows.truncate (fun n k r hr => BlockLogs.blockNumber_of_rows hr) hhi
    intro k r
    constructor
    · exact blockNumber_lt_of_rollback finds fun r hr => h.origin hr
    · rintro ⟨hr, hlt⟩
      obtain ⟨n, _, _, hrow⟩ := (h.rows k r).mp hr
      obtain ⟨e, _, _, rfl⟩ := BlockLogs.mem_events_of_rows hrow
      rw [blockNumber_rowOf] at hlt
      show (ix.postgres.rollbackLegacyFrom w.db _ _ _).eventRow k = _
      rw [Postgres.eventRow_rollbackLegacyFrom, hr, Option.filter_eq_some_iff]
      exact ⟨rfl, by rw [Postgres.rollbackSelects_below hlt]; rfl⟩
  -- so are the anchors
  · rw [hanchor, Table.get_deleteWhere_eq_some] at ha
    obtain ⟨hget, hkept⟩ := ha
    obtain ⟨hn, _, hrows⟩ := h.anchored hget
    obtain ⟨hc, hd, hb⟩ := BlockAnchor.key_of_get hget
    refine ⟨hn, ?_, hrows⟩
    rw [hnext]
    simpa [hc, hd, hb] using hkept
  -- a block that has no anchor now had none before, since `n` is below the rollback block
  · rw [hnext] at hlt
    have hnone : w.db.blockAnchor.get (chain.chainId, dataset, n) = none := by
      apply Option.eq_none_iff_forall_not_mem.mpr
      intro anchor hget
      rw [kept hlt hget] at ha
      cases ha
    obtain ⟨final, same⟩ := h.final hn (by omega) hnone
    exact ⟨final.mono [_], same⟩
  · rw [hnext] at hlt
    exact h.settled hn (by omega)
  · rw [hnext] at hlt
    exact h.reaches hn (by omega)

end StoredAs

/-! ## Committing a range of the canonical chain -/

section

variable {range : BlockRange} {result : DatalensLogQueryResult} {servedEnd : Nat}
variable {events : List LegacyOrmPEvent} {anchors : List BlockAnchor}

/-- The loop plans ranges that the chain has. -/
theorem toBlock_le_head {next : Nat} (turn : Turn
    (CanonicalFinalAsAnchored config chain dataset ix.postgres) config chain next range w) :
    range.toBlock ≤ w.env.head := by
  obtain ⟨latestBlock, w₀, henv, head, planned⟩ := turn
  have hlatest : latestBlock ≤ w.env.head := henv ▸ head.1
  rw [planned.stop]
  exact (Nat.min_le_right _ _).trans ((Nat.sub_le _ _).trans hlatest)

/-- The anchors of a range of the canonical chain: one for every block that is not final yet, with the
canonical hash. -/
structure AnchorsRange (chain : ChainConfig) (dataset : String) (view : CanonicalChain ix.decoder blocks)
    (range : BlockRange) (anchors : List BlockAnchor) (past : List Call) : Prop where
  inside : ∀ a ∈ anchors, range.fromBlock ≤ a.blockNumber ∧ a.blockNumber ≤ range.toBlock ∧
    a.blockHash = view.hashAt a.blockNumber
  all : ∀ n, range.fromBlock ≤ n → n ≤ range.toBlock →
    (∃ a ∈ anchors, Keyed.key a = (chain.chainId, dataset, n)) ∨ Final chain.chainId past n

theorem anchorsRange_of_anchorsFor (mode : chain.finalityMode.usesReorgProtection = true)
    {logs : List DatalensLog} (hhead : range.toBlock ≤ w.env.head)
    (h : AnchorsFor ix (CanonicalFinalAsAnchored config chain dataset ix.postgres) chain dataset range
      logs w anchors w') : AnchorsRange chain dataset w.env range anchors w'.past := by
  have below : ∀ {n finalized : Nat}, n < saturatingAdd finalized 1 → n ≤ finalized := by
    intro n finalized hlt
    unfold saturatingAdd at hlt
    omega
  cases h with
  | fromLogs mode' =>
      rw [mode] at mode'
      cases mode'
  | @allFinal finalized _ _ final =>
      refine ⟨fun a ha => (nomatch ha), fun n hfrom hto => .inr ⟨finalized, List.mem_cons_self, ?_⟩⟩
      exact below (by omega)
  | @fromHeaders finalized now anchors checked _ _ hchecked _ answer _ headers =>
      have hto : checked.toBlock = range.toBlock := by rw [hchecked]
      have hfrom : checked.fromBlock = max range.fromBlock (saturatingAdd finalized 1) := by
        rw [hchecked]
      -- the chain has these blocks, so the answer lists them all
      obtain ⟨_, listed⟩ := answer.1 (by
        show checked.toBlock ≤ w.env.head
        omega)
      constructor
      · intro a ha
        obtain ⟨n, hn, hle, block, hblock, rfl⟩ := (mem_blockAnchorsFromBlocks headers).mp ha
        obtain ⟨block', hblock', hhash⟩ := listed n hn hle
        obtain rfl := Option.some.inj (hblock.symm.trans hblock')
        refine ⟨?_, ?_, hhash⟩
        · show range.fromBlock ≤ n
          omega
        · show n ≤ range.toBlock
          omega
      · intro n hn hle
        rcases Nat.lt_or_ge n (saturatingAdd finalized 1) with hfinal | hopen
        · exact .inr ⟨finalized, List.mem_cons_of_mem _ List.mem_cons_self, below hfinal⟩
        · have hn' : checked.fromBlock ≤ n := by omega
          have hle' : n ≤ checked.toBlock := by omega
          obtain ⟨block, hblock, _⟩ := listed n hn' hle'
          exact .inl ⟨_, (mem_blockAnchorsFromBlocks headers).mpr
            ⟨n, hn', hle', block, hblock, rfl⟩, rfl⟩

/-- A range of the canonical chain on top of the checkpoint, as it is committed. -/
structure NextRange (chain : ChainConfig) (view : CanonicalChain ix.decoder blocks) (next : Nat)
    (range : BlockRange) (events : List LegacyOrmPEvent) : Prop where
  start : range.fromBlock = next
  nonempty : range.fromBlock ≤ range.toBlock
  head : range.toBlock ≤ view.head
  decoded : decodeAll ix.decoder (view.logs range) = .ok events

/-- The answers are complete, so the whole range is committed. -/
theorem nextRange_of_commitsAt (turn : Turn
      (CanonicalFinalAsAnchored config chain dataset ix.postgres) config chain
      (nextBlock chain dataset w.db) range w)
    (hc : CommitsAt ix (CanonicalFinalAsAnchored config chain dataset ix.postgres) chain dataset range w
      result servedEnd events anchors w') :
    min servedEnd range.toBlock = range.toBlock ∧
      NextRange chain w.env (nextBlock chain dataset w.db) range events := by
  have hhead := toBlock_le_head turn
  obtain ⟨_, _, _, _, planned⟩ := turn
  -- a request the chain has is served in full: nothing is cut off
  obtain ⟨_, hend, hlogs⟩ := hc.answer.1 hhead
  have hdecoded := hc.decoded
  rw [hlogs] at hdecoded
  obtain rfl : servedEnd = range.toBlock := Option.some.inj (hc.ends.symm.trans hend)
  exact ⟨Nat.min_self _, planned.start, planned.nonempty, hhead, hdecoded⟩

theorem anchorsRange_of_commitsAt (mode : chain.finalityMode.usesReorgProtection = true)
    (hend : min servedEnd range.toBlock = range.toBlock) (hhead : range.toBlock ≤ w.env.head)
    (hc : CommitsAt ix (CanonicalFinalAsAnchored config chain dataset ix.postgres) chain dataset range w
      result servedEnd events anchors w') :
    AnchorsRange chain dataset w.env range anchors w'.past := by
  obtain ⟨v, hdecode, hfor⟩ := hc.anchored
  have henv : v.env = w.env := hdecode.env
  rw [servedTo, hend] at hfor
  rw [← henv] at hhead ⊢
  exact anchorsRange_of_anchorsFor mode hhead hfor

/-- The rows of the range come on top of those below. -/
theorem StoredAs.rows_commit (h : StoredAs config chain dataset w.env.hashAt w)
    (hrange : NextRange chain w.env (nextBlock chain dataset w.db) range events) :
    Layered w.env.rows chain.startBlock (range.toBlock + 1)
      (ix.postgres.writeEvents w.db events).eventRow := by
  have top := CanonicalChain.layered_logs hrange.decoded hrange.head
  rw [hrange.start] at top
  have hnonempty := hrange.nonempty
  rw [hrange.start] at hnonempty
  refine h.rows.extend top h.begun (by omega) (fun k r s hr hs => ?_)
    fun k => ix.postgres.eventRow_writeEvents w.db events k
  -- a row id of the range is not one of a block below
  obtain ⟨m, hfirst, hm, hrow⟩ := (h.rows k r).mp hr
  obtain ⟨n, hn, hle, hrow'⟩ := (top k s).mp hs
  obtain ⟨e, he, hk, _⟩ := BlockLogs.mem_events_of_rows hrow
  obtain ⟨e', he', hk', _⟩ := BlockLogs.mem_events_of_rows hrow'
  have hhead := hrange.head
  have := w.env.unique (h.reaches hfirst hm) (by omega) e he e' he' (hk.trans hk'.symm)
  omega

/-- A commit puts the canonical blocks of the range on top. -/
theorem StoredAs.commit (h : StoredAs config chain dataset w.env.hashAt w)
    (hrange : NextRange chain w.env (nextBlock chain dataset w.db) range events)
    (hanchors : AnchorsRange chain dataset w.env range anchors w.past)
    (hdb : w'.db = ix.postgres.writeEventsAndAdvanceCheckpoint w.db events anchors chain.chainId
      dataset (range.toBlock + 1)) (henv : w'.env = w.env) (hpast : ∃ new, w'.past = new ++ w.past) :
    StoredAs config chain dataset w'.env.hashAt w' := by
  obtain ⟨new, hnew⟩ := hpast
  have hstart := hrange.start
  have hnonempty := hrange.nonempty
  have hbegun := h.begun
  have hhead := hrange.head
  have hnext : nextBlock chain dataset w'.db = range.toBlock + 1 := by rw [hdb, nextBlock_commit]
  have hanchor : ∀ n, w'.db.blockAnchor.get (chain.chainId, dataset, n) =
      (lastWhere (fun a => Keyed.key a == (chain.chainId, dataset, n)) anchors).or
        (w.db.blockAnchor.get (chain.chainId, dataset, n)) := by
    intro n
    rw [hdb, Postgres.blockAnchor_commit, Postgres.get_foldl_upsert_anchor]
  refine ⟨by rw [hnext]; omega, ?_, fun {n anchor} ha => ?_, fun {n} hn hlt ha => ⟨?_, rfl⟩,
    fun {n} hn hlt => rfl, fun {n} hn hlt => ?_⟩
  · rw [hnext, hdb, henv]
    exact h.rows_commit hrange
  -- an anchor is one of the range, with the canonical hash, or was there before
  · rw [hanchor, Option.or_eq_some_iff] at ha
    rw [hnext, henv]
    rcases ha with ha | ⟨_, ha⟩
    · obtain ⟨hfrom, hto, hhash⟩ := hanchors.inside anchor (mem_of_lastWhere ha)
      have key : Keyed.key anchor = (chain.chainId, dataset, n) := by simpa using holds_of_lastWhere ha
      obtain rfl : anchor.blockNumber = n := congrArg (·.2.2) key
      exact ⟨by omega, by omega, by rw [hhash]⟩
    · obtain ⟨hn, hlt, hrows⟩ := h.anchored ha
      exact ⟨hn, by omega, hrows⟩
  · rw [hnext] at hlt
    -- a block without an anchor is final: if it is in the range, it was when the range was committed
    rw [hanchor, Option.or_eq_none_iff] at ha
    rw [hnew]
    refine Final.mono ?_ new
    rcases Nat.lt_or_ge n range.fromBlock with hold | hin
    · exact (h.final hn (by omega) ha.2).1
    · rcases hanchors.all n hin (by omega) with ⟨a, hmem, hkey⟩ | final
      · have := lastWhere_eq_none_iff.mp ha.1 a hmem
        simp [hkey] at this
      · exact final
  · rw [hnext] at hlt
    rw [henv]
    omega

end

/-! ## The reorg check, and a pass -/

/-- The window of a check lies between `start_block` and the checkpoint. -/
theorem window_bounds {next finalized : Nat} {window : BlockRange}
    (hwindow : window = reorgWindow config chain next finalized)
    (nonempty : window.fromBlock ≤ window.toBlock) (stored : 0 < next) :
    chain.startBlock ≤ window.fromBlock ∧ window.toBlock < next := by
  subst hwindow
  refine ⟨?_, ?_⟩
  · show chain.startBlock ≤ windowStart config chain next finalized
    unfold windowStart
    omega
  · show next - 1 < next
    omega

/-- After the check the fork is the canonical chain, up to the block the pass goes on from. -/
theorem wp_check_canonical
    (h : StoredAs config chain dataset fork w) :
    Wp (Serves ix (CanonicalFinalAsAnchored config chain dataset ix.postgres))
      (fun w _ => ∃ fork, StoredAs config chain dataset fork w)
      (fun r w' => nextBlock chain dataset w'.db = r.getD (nextBlock chain dataset w.db) ∧
        StoredAs config chain dataset w'.env.hashAt w')
      (fun _ w => ∃ fork, StoredAs config chain dataset fork w)
      (rollbackReorgedAnchors config chain dataset (nextBlock chain dataset w.db)) w := by
  refine wp_rollbackReorgedAnchors (fun w' op hw hop => ⟨fork, h.quiet hw⟩)
    (fun e w' hw => ⟨fork, h.quiet hw⟩) (fun hzero => ?_) (fun finalized head hempty => ?_)
    (fun finalized window anchors now w' answered => ?_)
  -- nothing is stored
  · exact ⟨rfl, h.canonical fun n _ hlt => by omega⟩
  -- every stored block is below the window
  · have hread : IsRead (.finalizedHead chain.chainId) := trivial
    refine ⟨rfl, (h.quiet (quiet_record_read hread)).canonical fun n hn hlt => ?_⟩
    change n < nextBlock chain dataset w.db at hlt
    apply h.same_below_window head hn hlt
    change nextBlock chain dataset w.db - 1 < windowStart config chain _ finalized at hempty
    omega
  · have h' := h.quiet answered.quiet
    have henv : w'.env = w.env := answered.quiet.env
    have hdb : w'.db = w.db := answered.quiet.db
    obtain ⟨hfirst, hlast⟩ := window_bounds answered.window_eq answered.nonempty answered.stored
    -- the chain has the window, so the answer is complete
    obtain ⟨v, rfl, answer, _⟩ := answered.answer
    obtain ⟨covers, listed⟩ := answer.1 (h.reaches (hfirst.trans answered.nonempty) hlast)
    have same : ∀ {found n}, (blockNumbers window).find? (diverges anchors now.blocks) = found →
        chain.startBlock ≤ n → n < nextBlock chain dataset w.db →
        (∀ first, found = some first → n < first) →
        blocks.rows ix.decoder n (fork n) = w'.env.rows n := by
      intro found n hfound hn hlt hbefore
      rw [answered.anchors_eq] at hfound
      rw [henv]
      exact h.same_of_checked answered.head answered.window_eq listed hfound hn hlt hbefore
    refine ⟨fun hwait => ?_, fun _ => ⟨fun hnone => ?_, fun rollbackBlock hrollback => ?_⟩⟩
    · exact absurd (covers.symm.trans hwait) (by decide)
    · refine ⟨by rw [hdb]; rfl, h'.canonical fun n hn hlt => ?_⟩
      rw [hdb] at hlt
      exact same hnone hn hlt fun first hfirst => (nomatch hfirst)
    · obtain ⟨hfrom, hto⟩ := mem_blockNumbers.mp (List.mem_of_find?_eq_some hrollback)
      have hrolled := h'.rollback (hfirst.trans hfrom) (by rw [hdb]; omega)
      refine ⟨⟨fork, h'⟩, fun ha => ⟨nextBlock_rollback, (hrolled ha.2).canonical fun n hn hlt => ?_⟩⟩
      have hnext : nextBlock chain dataset (w'.record ix.postgres (rollbackOp chain dataset rollbackBlock)
          (.ok ())).db = rollbackBlock := nextBlock_rollback
      rw [hnext] at hlt
      apply same hrollback hn (by omega)
      intro first hfirst
      rw [← Option.some.inj hfirst]
      exact hlt

theorem storedAs_empty (hempty : w.db = .empty) :
    StoredAs config chain dataset w.env.hashAt w := by
  have hnext : nextBlock chain dataset w.db = chain.startBlock := by
    rw [hempty, nextBlock, Database.empty, Table.get_empty]
    rfl
  have noAnchor : ∀ n, w.db.blockAnchor.get (chain.chainId, dataset, n) = none := fun n => by
    rw [hempty]
    exact Table.get_empty _
  refine ⟨hnext.ge, ?_, fun ha => ?_, fun hn hlt => ?_, fun hn hlt => rfl, fun hn hlt => ?_⟩
  · rw [hnext, hempty]
    exact .empty eventRow_empty
  · rw [noAnchor] at ha
    cases ha
  · omega
  · omega

theorem passRules_storedAs (mode : chain.finalityMode.usesReorgProtection = true) :
    PassRules ix (CanonicalFinalAsAnchored config chain dataset ix.postgres) config chain dataset
      (fun (w : World (CanonicalChain ix.decoder blocks)) _ =>
        ∃ fork, StoredAs config chain dataset fork w)
      (fun w => ∃ fork, StoredAs config chain dataset fork w)
      (fun next w => nextBlock chain dataset w.db = next ∧
        StoredAs config chain dataset w.env.hashAt w) where
  call hI _ := hI
  quiet := fun ⟨fork, h⟩ hw => ⟨fork, h.quiet hw⟩
  insert {w} := fun ⟨fork, h⟩ =>
    ⟨⟨fork, h⟩, fork, h.congr rfl (fun _ => rfl) rfl nextBlock_insert ⟨[_], rfl⟩⟩
  holds hL := ⟨_, hL.2⟩
  stays hL hw := ⟨by rw [hw.db]; exact hL.1, by rw [hw.env]; exact hL.2.quiet hw⟩
  unchecked hmode := by
    rw [mode] at hmode
    cases hmode
  checked _ hI stored := by
    obtain ⟨fork, h⟩ := hI
    have hnext := nextBlock_of_get stored
    subst hnext
    exact wp_check_canonical h
  commit {next range w _ servedEnd _ _ w'} hL turn commits := by
    obtain ⟨rfl, h⟩ := hL
    have quiet := commits.quiet
    have h' : StoredAs config chain dataset w'.env.hashAt w' := by
      rw [quiet.env]
      exact h.quiet quiet
    -- the range was planned on top of a fork that the check has made canonical
    obtain ⟨hend, hrange⟩ := nextRange_of_commitsAt turn commits
    have hanchors := anchorsRange_of_commitsAt mode hend hrange.head commits
    rw [← quiet.env, ← quiet.db] at hrange
    rw [← quiet.env] at hanchors
    refine ⟨⟨_, h'⟩, fun written => ⟨nextBlock_commit, h'.commit hrange hanchors ?_ rfl ⟨[_], rfl⟩⟩⟩
    rw [← hend]
    rfl

end

/-- **Reorg convergence.** In the modes with anchors, from an empty store, against a reader that answers
each pass from one canonical chain: whenever a pass has returned `Ok`, the stored rows are exactly those
of the canonical chain from `start_block` up to the checkpoint, in every run in which no anchored block
of the window is reported final with other rows, and rollbacks find the signature rows. -/
theorem rows_converge {ix : Indexer} {config : RuntimeConfig} {chain : ChainConfig} {dataset : String}
    {blocks : BlockLogs chain.chainId} (hd : chainDataset chain.chainId = .ok dataset)
    (hmode : chain.finalityMode = .safe ∨ chain.finalityMode = .latest)
    {w : World (CanonicalChain ix.decoder blocks)} {report : ChainRunReport}
    (hr : Reachable (Serves ix (CanonicalFinalAsAnchored config chain dataset ix.postgres))
      (fun w => w.db = .empty ∧ w.past = []) (Reorg config chain dataset) (runChainOnce config chain) w
      (.done (.ok report))) : StoresCanonical chain dataset w := by
  have mode : chain.finalityMode.usesReorgProtection = true := by
    rcases hmode with h | h <;> rw [h] <;> rfl
  -- between passes the fork may be any; a pass that returned `Ok` has left the canonical one
  have run := Reachable.wp (I := fun w => ∃ fork, StoredAs config chain dataset fork w)
    (fun w hw => ⟨_, storedAs_empty hw.1⟩) (fun w w' ⟨fork, h⟩ hreorg => ⟨fork, h.reorg hreorg⟩)
    (fun w hI => (passRules_storedAs mode).wp_runChainOnce hd hI) (fun _ _ hG => hG)
    (fun _ _ ⟨next, hL⟩ => ⟨_, hL.2⟩) (fun _ _ hE => hE) hr
  obtain ⟨next, _, h⟩ := run.2
  exact h.rows

/-! ## A block that is replaced -/

/-- Block 5 has a log on one fork. -/
def forkedLogs : BlockLogs 46 where
  logs n blockHash :=
    if n = 5 ∧ blockHash = "0xaaaaa1" then [sampleLog 46 5 "0xaaaaa1" "0x05"] else []
  ofBlock {n blockHash} log hlog := by
    split at hlog
    · rename_i hfive
      rw [List.mem_singleton.mp hlog]
      exact ⟨rfl, hfive.1.symm⟩
    · cases hlog

theorem mem_forkedLogs {n : Nat} {blockHash : String} {e : LegacyOrmPEvent}
    (h : e ∈ forkedLogs.events hashDecoder n blockHash) : n = 5 ∧ blockHash = "0xaaaaa1" := by
  obtain ⟨log, hlog, _⟩ := mem_eventsOf.mp h
  change log ∈ (if n = 5 ∧ blockHash = "0xaaaaa1" then [sampleLog 46 5 "0xaaaaa1" "0x05"] else []) at hlog
  split at hlog
  · assumption
  · cases hlog

/-- A chain of six blocks, by the hash of block 5. -/
def sixBlocks (hashFive : String) : CanonicalChain hashDecoder forkedLogs where
  hashAt n := if n = 5 then hashFive else "0xccccc3"
  head := 5
  unique _ _ _ he _ he' _ := (mem_forkedLogs he).1.trans (mem_forkedLogs he').1.symm

/-- The runs over these chains. -/
abbrev ForkedRun (allowed : Answers (CanonicalChain hashDecoder forkedLogs)) :
    World (CanonicalChain hashDecoder forkedLogs) → Async ChainRunReport → Prop :=
  Reachable (Serves hashIndexer allowed) (fun w => w.db = .empty ∧ w.past = [])
    (Reorg ⟨⟨0⟩, [], 10⟩ (darwinia 5 1 .latest) EVM_LOGS_DATASET)
    (runChainOnce ⟨⟨0⟩, [], 10⟩ (darwinia 5 1 .latest))

/-- The answers of one chain. The store has no signature rows to be found by a rollback. -/
def answersOf (finalizedAt : CanonicalChain hashDecoder forkedLogs → Nat) :
    World (CanonicalChain hashDecoder forkedLogs) → (op : Op) → Except Error (Reply op)
  | w, .latestBlock .. => .ok w.env.head
  | w, .finalizedHead _ =>
      if reportedUpTo (finalizedAt w.env) w.past then .ok (finalizedAt w.env) else .error []
  | w, .queryLogs query => .ok {
      logs := w.env.logs ⟨query.fromBlock, query.toBlock⟩
      servedStart := some query.fromBlock
      servedEnd := some query.toBlock
      incompleteReason := none }
  | w, .queryBlocks query => .ok {
      blocks := (blockNumbers ⟨query.fromBlock, query.toBlock⟩).map fun n =>
        ⟨query.chainId, n, w.env.hashAt n, none⟩
      servedStart := some query.fromBlock
      servedEnd := some query.toBlock
      incompleteReason := none }
  | w, .rollbackLegacyFrom .. =>
      if (w.db.signaturePubSignatureSubmittion.select fun _ => true) = [] then .ok () else .error []
  | _, _ => .error []

theorem canonicalAnswers_answersOf {finalizedAt : CanonicalChain hashDecoder forkedLogs → Nat}
    (w : World (CanonicalChain hashDecoder forkedLogs)) (op : Op) (a : Reply op)
    (h : reply hashIndexer (answersOf finalizedAt) w op = .ok a) :
    CanonicalAnswers (darwinia 5 1 .latest) w op a := by
  cases op with
  | latestBlock => exact (Except.ok.inj h).ge
  | finalizedHead chainId =>
      intro before hbefore
      change (if reportedUpTo (finalizedAt w.env) w.past then .ok (finalizedAt w.env) else .error []) =
        Except.ok a at h
      split at h
      · rename_i hreported
        cases h
        exact le_of_reportedUpTo hreported hbefore
      · cases h
  | queryLogs query =>
      cases h
      exact fun _ => ⟨rfl, rfl, rfl⟩
  | queryBlocks query =>
      cases h
      refine fun _ => ⟨by simp [DatalensBlockQueryResult.covers], fun n hfrom hto => ?_⟩
      refine ⟨⟨query.chainId, n, w.env.hashAt n, none⟩, ?_, rfl⟩
      refine lastWhere_eq_of_forall (List.mem_map.mpr ⟨n, mem_blockNumbers.mpr ⟨hfrom, hto⟩, rfl⟩)
        (by simp) fun block hblock hn => ?_
      obtain ⟨m, _, rfl⟩ := List.mem_map.mp hblock
      obtain rfl : m = n := by simpa using hn
      rfl
  | _ => trivial

/-- Block 5 is indexed while it is open. -/
def indexedOnce (finalizedAt : CanonicalChain hashDecoder forkedLogs → Nat) :
    World (CanonicalChain hashDecoder forkedLogs) :=
  ((runChainOnce ⟨⟨0⟩, [], 10⟩ (darwinia 5 1 .latest)).eval (simulate hashIndexer (answersOf finalizedAt))
    ⟨.empty, [], sixBlocks "0xaaaaa1"⟩).2

/-- Then block 5 is replaced, and there is another pass. -/
def replacedFive (finalizedAt : CanonicalChain hashDecoder forkedLogs → Nat) :
    Except Error ChainRunReport × World (CanonicalChain hashDecoder forkedLogs) :=
  (runChainOnce ⟨⟨0⟩, [], 10⟩ (darwinia 5 1 .latest)).eval (simulate hashIndexer (answersOf finalizedAt))
    { indexedOnce finalizedAt with env := sixBlocks "0xbbbbb2" }

theorem reachable_replacedFive (finalizedAt : CanonicalChain hashDecoder forkedLogs → Nat)
    {allowed : Answers (CanonicalChain hashDecoder forkedLogs)}
    (h : ∀ w op a, reply hashIndexer (answersOf finalizedAt) w op = .ok a → allowed w op a)
    (hopen : reportedUpTo 0 (indexedOnce finalizedAt).past = true)
    (hnext : nextBlock (darwinia 5 1 .latest) EVM_LOGS_DATASET (indexedOnce finalizedAt).db = 6) :
    ForkedRun allowed (replacedFive finalizedAt).2 (.done (replacedFive finalizedAt).1) := by
  have start : ForkedRun allowed ⟨.empty, [], sixBlocks "0xaaaaa1"⟩
      (runChainOnce ⟨⟨0⟩, [], 10⟩ (darwinia 5 1 .latest)) := .start ⟨rfl, rfl⟩
  have first : ForkedRun allowed (indexedOnce finalizedAt) (.done _) :=
    start.reaches (reaches_eval (serves_simulate h) _ _)
  have replaced : ForkedRun allowed { indexedOnce finalizedAt with env := sixBlocks "0xbbbbb2" }
      (runChainOnce ⟨⟨0⟩, [], 10⟩ (darwinia 5 1 .latest)) := by
    refine first.restart ⟨rfl, rfl, fun n _ hlt => ?_, fun n hfinal => ?_, fun n _ hlt => ?_⟩
    · rw [hnext] at hlt
      show n ≤ 5
      omega
    · obtain ⟨finalized, hmem, hle⟩ := hfinal
      have hzero := le_of_reportedUpTo hopen hmem
      obtain rfl : n = 0 := by omega
      have before : (indexedOnce finalizedAt).env = sixBlocks "0xaaaaa1" := env_eval_simulate _ _
      rw [before]
      rfl
    · rw [hnext] at hlt
      change n < 6 - 10 at hlt
      omega
  exact replaced.reaches (reaches_eval (serves_simulate h) _ _)

/-- Block 5 stays open: the second pass finds it replaced and indexes it again. -/
theorem rows_converge_replacedFive :
    StoresCanonical (darwinia 5 1 .latest) EVM_LOGS_DATASET (replacedFive fun _ => 0).2 := by
  obtain ⟨report, hok⟩ : ∃ report, (replacedFive fun _ => 0).1 = .ok report :=
    ⟨⟨1, 1, 0, 0, 0, 1, true⟩, by rfl⟩
  have reachable : ForkedRun (CanonicalFinalAsAnchored ⟨⟨0⟩, [], 10⟩ (darwinia 5 1 .latest)
      EVM_LOGS_DATASET hashIndexer.postgres) (replacedFive fun _ => 0).2
      (.done (replacedFive fun _ => 0).1) := by
    refine reachable_replacedFive _ (fun w op a h => ⟨canonicalAnswers_answersOf w op a h, ?_⟩)
      rfl rfl
    cases op with
    | finalizedHead chainId =>
        intro n anchor hn _ hle _
        change (if reportedUpTo 0 w.past then .ok 0 else .error []) = Except.ok a at h
        split at h
        · cases h
          change 5 ≤ n at hn
          omega
        · cases h
    | rollbackLegacyFrom chainId dataset rollbackBlock =>
        change (if (w.db.signaturePubSignatureSubmittion.select fun _ => true) = [] then .ok ()
          else .error []) = Except.ok a at h
        split at h
        · rename_i hnone
          intro id s hs _
          have hmem : s ∈ w.db.signaturePubSignatureSubmittion.select fun _ => true :=
            Table.mem_select.mpr ⟨(Table.key_of_get hs).symm ▸ hs, rfl⟩
          rw [hnone] at hmem
          cases hmem
        · cases h
    | _ => trivial
  rw [hok] at reachable
  exact rows_converge rfl (.inr rfl) reachable

/-- The other block 5 is final. -/
def finalizedLater (view : CanonicalChain hashDecoder forkedLogs) : Nat :=
  if view.hashAt 5 = "0xbbbbb2" then 5 else 0

/-- The second pass reports block 5 final: the check does not look at it, the pass ends with `Ok`, and the
row of the replaced block remains. -/
theorem finalized_replacement_keeps_orphaned_row : ∃ (report : ChainRunReport)
    (w : World (CanonicalChain hashDecoder forkedLogs)),
    ForkedRun (CanonicalAnswers (darwinia 5 1 .latest)) w (.done (.ok report)) ∧
    ¬StoresCanonical (darwinia 5 1 .latest) EVM_LOGS_DATASET w := by
  have hok : (replacedFive finalizedLater).1 = .ok ⟨0, 0, 0, 0, 0, 0, true⟩ := rfl
  have reachable : ForkedRun (CanonicalAnswers (darwinia 5 1 .latest)) (replacedFive finalizedLater).2
      (.done (replacedFive finalizedLater).1) :=
    reachable_replacedFive _ canonicalAnswers_answersOf rfl rfl
  rw [hok] at reachable
  refine ⟨_, _, reachable, fun stores => ?_⟩
  have stored : ((replacedFive finalizedLater).2.db.eventRow (.ormpHashImported, "0x05")).isSome = true := by
    rfl
  obtain ⟨r, hr⟩ := Option.isSome_iff_exists.mp stored
  obtain ⟨n, _, _, hrow⟩ := (stores _ r).mp hr
  obtain ⟨e, he, _⟩ := BlockLogs.mem_events_of_rows hrow
  obtain ⟨rfl, hhash⟩ := mem_forkedLogs he
  have now : (replacedFive finalizedLater).2.env.hashAt 5 = "0xbbbbb2" := rfl
  rw [now] at hhash
  exact absurd hhash (by decide)

end Runner

end OrmpIndexer
