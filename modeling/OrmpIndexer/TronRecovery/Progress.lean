/-
# OrmpIndexer.TronRecovery.Progress — the recovery never skips an event

Any number of invocations start, run interleaved, fail and stop. Whatever they do, the checkpoint is never
lowered, and from the `--from-block` of the invocation that created it up to the checkpoint every event is stored
(`recovery_never_skips`). That invocation need not be the first one: an invocation that fails before it gets to the
checkpoint leaves none.

Two accepted events with one message hash and different messages in one range are both compared with the database
before either is written, so one replaces the other. The sample runs show both, and a run that stores its event.
-/
import OrmpIndexer.Decoder.RoundTrip
import OrmpIndexer.TronRecovery.Duplicates
import OrmpIndexer.TronRecovery.Invocations

namespace OrmpIndexer

open Foundation Foundation.Task

namespace TronRecovery

/-- **The recovery never skips an event.** -/
theorem recovery_never_skips (crates : Crates) (chain : Chain) (postgres : Postgres) {db : Database}
    (hids : OwnIds crates chain postgres.locale db) (hnone : savedProgress db = none)
    {c c' : System Op Reply Error Unit World Nat}
    (hc : Moves (Serves postgres chain) begins ends (invocation crates) (idle (World.initial db)) c)
    (hc' : Moves (Serves postgres chain) begins ends (invocation crates) c c') :
    NeverLowers c.1 c'.1 ∧ ∀ next, savedProgress c'.1.db = some next →
      ∃ first, c'.1.origin = some first ∧
        Covered crates chain postgres.locale c'.1.db first next ∧
        (next ≤ first ∨ ∃ head ∈ c'.1.sampled, next ≤ head + 1) := by
  have hrule := relyGuarantee crates chain postgres
  have htrans : ∀ w w' w'', NeverLowers w w' → NeverLowers w' w'' → NeverLowers w w'' :=
    fun _ _ _ => NeverLowers.trans
  have hsound := (hrule.moves neverLowers_refl htrans (sound_idle (inv_initial hids hnone)) hc).1
  obtain ⟨hsound', hlowers⟩ := hrule.moves neverLowers_refl htrans hsound hc'
  refine ⟨hlowers, fun next hnext => ?_⟩
  obtain ⟨first, hfirst, _, hhead, hcovered⟩ := hsound'.1.progress next hnext
  exact ⟨first, hfirst, hcovered, hhead⟩

/-! ## Runs of two invocations -/

def sampleQuantity (n : Nat) : String := "0x" ++ String.ofList (Nat.toDigits 16 n)

/-- The assignment's log, in block 200. -/
def sampleAssignedLog : RpcLog where
  address := ORMP
  topics := sampleEmission.topics .indexedInTopics
  data := ContractEvent.spelled (encodeEmptyBytes (sampleEmission.dataTokens .indexedInTopics))
  blockNumber := "0xc8"
  blockHash := "0xb200"
  transactionHash := "0xa200"
  transactionIndex := "0x0"
  logIndex := "0x4"
  removed := false

def sampleLogs (n : Nat) : List RpcLog := if n = 200 then [sampleAssignedLog] else []

theorem number_sampleLogs (n : Nat) : ∀ log ∈ sampleLogs n, hexU64 log.blockNumber = .ok n := by
  unfold sampleLogs
  split
  · rintro log hlog
    obtain rfl := List.mem_singleton.mp hlog
    subst n
    rfl
  · simp

/-- A chain whose only log is in block 200. -/
def sampleChain : Chain where
  logs := sampleLogs
  number := number_sampleLogs
  block n := [("number", sampleQuantity n), ("hash", "0xb200"), ("parentHash", "0xb199"),
    ("timestamp", "0x6743c2c0")]
  transaction hash := [("hash", hash), ("blockHash", "0xb200"), ("blockNumber", "0xc8"),
    ("transactionIndex", "0x0"), ("from", "0x223b34a39c5f1cddd76e02ab433f6624b565abbc")]

/-- The log of block 200 as the recovery hands it to the decoder. -/
def sampleAssignedPlace : DatalensLog where
  id := some (recoveryId 200 "0xa200" 4)
  chainId := CHAIN_ID
  blockNumber := 200
  blockHash := some "0xb200"
  parentHash := some "0xb199"
  blockTimestamp := some 0x6743c2c0
  transactionHash := "0xa200"
  transactionIndex := some 0
  logIndex := 4
  address := ORMP
  transactionFrom := some "0x223b34a39c5f1cddd76e02ab433f6624b565abbc"
  topics := []
  data := "0x"

theorem metadataPresent_sampleAssignedPlace : MetadataPresent sampleAssignedPlace where
  id := rfl
  blockTimestamp := rfl
  transactionHash := rfl
  transactionIndex := rfl
  logIndex := by decide
  address := rfl
  transactionFrom := by
    rintro _ ⟨⟩
    rfl

theorem normalizeLog_sampleAssignedLog : normalizeLog 200 4 (sampleChain.block 200)
    (sampleChain.transaction "0xa200") sampleAssignedLog =
      .ok (sampleEmission.emit encodeEmptyBytes .indexedInTopics sampleAssignedPlace) := by
  have hparent : text (sampleChain.block 200) "parentHash" = .ok "0xb199" := rfl
  have htimestamp : quantity (sampleChain.block 200) "timestamp" = .ok 0x6743c2c0 := rfl
  have hindex : hexU64 sampleAssignedLog.transactionIndex = .ok 0 := rfl
  have hfrom : text (sampleChain.transaction "0xa200") "from" =
      .ok "0x223b34a39c5f1cddd76e02ab433f6624b565abbc" := rfl
  have haddress : toAsciiLowercase sampleAssignedLog.address = ORMP := rfl
  rw [normalizeLog, hparent, htimestamp, hindex, hfrom, haddress]
  rfl

theorem decodeLog_messageAssigned {crates : Crates} {number index : Nat} {block tx : JsonObject}
    {log : RpcLog} {normalized : DatalensLog} {a : MessageAssigned}
    (hmatches : matchesTransaction number tx log = .ok true)
    (hnormalized : normalizeLog number index block tx log = .ok normalized)
    (hevent : decodeEvmLog crates normalized = .ok (.messageAssigned a)) :
    decodeLog crates number index block tx log = .ok (.messageAssigned a) := by
  rw [decodeLog, hmatches, hnormalized]
  simp only [bind_eq_ok]
  exact ⟨true, rfl, (), rfl, normalized, rfl, _, hevent, rfl⟩

/-- The log of block 200 is an assignment. -/
theorem decodeLog_sampleAssignedLog : ∃ a, decodeLog emptyBytesCrates 200 4 (sampleChain.block 200)
    (sampleChain.transaction "0xa200") sampleAssignedLog = .ok (.messageAssigned a) := by
  have hmatches : matchesTransaction 200 (sampleChain.transaction "0xa200") sampleAssignedLog =
      .ok true := rfl
  obtain ⟨metadata, -, hsmall, -⟩ := decodeEvmLog_emit
    (documented_withAbi documented_wordCrates decodeEmptyBytes) sampleEmission .indexedInTopics
    metadataPresent_sampleAssignedPlace decodeEmptyBytes_sampleEmission
  have hevent : decodeEvmLog emptyBytesCrates
      (sampleEmission.emit encodeEmptyBytes .indexedInTopics sampleAssignedPlace) =
        .ok (sampleEmission.decoded metadata) := hsmall (by decide)
  obtain ⟨a, ha⟩ : ∃ a, sampleEmission.decoded metadata = .messageAssigned a := ⟨_, rfl⟩
  rw [ha] at hevent
  exact ⟨a, decodeLog_messageAssigned hmatches normalizeLog_sampleAssignedLog hevent⟩

theorem chainEvent_sampleAssignedLog {e : LegacyOrmPEvent}
    (h : decodeLog emptyBytesCrates 200 4 (sampleChain.block 200)
      (sampleChain.transaction "0xa200") sampleAssignedLog = .ok e) :
    chainEvent emptyBytesCrates sampleChain sampleAssignedLog = .ok e := by
  have hnumber : hexU64 sampleAssignedLog.blockNumber = .ok 200 := rfl
  have hindex : hexU64 sampleAssignedLog.logIndex = .ok 4 := rfl
  simp only [chainEvent, bind_eq_ok]
  exact ⟨200, hnumber, 4, hindex, h⟩

/-- The replies in a world. The first invocation does not reach the node. -/
def sampleReply (w : World) : (op : Op) → Except Error (Reply op)
  | .chainId =>
      if w.started.length = 1 then .error ["operation timed out"] else .ok (some "0x2b6653dc")
  | .nowBlock => .ok (some 500)
  | .getLogs fromBlock toBlock =>
      .ok (if fromBlock ≤ 200 ∧ 200 ≤ toBlock then [sampleAssignedLog] else [])
  | .getBlockByNumber number => .ok (sampleChain.block number)
  | .getTransactionByHash hash => .ok (sampleChain.transaction hash)
  | .tryAdvisoryLock => .ok w.lock.isNone
  | op => storeReply Locale.c w.db op

/-- The environment of an invocation as a function. -/
def simulate (i : Nat) (w : World) (op : Op) : Except Error (Reply op) × World :=
  match sampleReply w op with
  | .ok a => (.ok a, w.record Postgres.legacyStore i op a)
  | .error error => (.error error, w)

theorem serves_simulate (i : Nat) (w : World) (op : Op) :
    Serves Postgres.legacyStore sampleChain i w op (simulate i w op).1 (simulate i w op).2 := by
  unfold simulate
  split
  · rename_i a ha
    refine ⟨?_, ?_, ?_, rfl⟩
    · cases op with
      | getLogs fromBlock toBlock =>
          cases Except.ok.inj ha
          refine ⟨fun log hlog => ⟨200, ?_⟩, fun _ n hn hn' log hlog => ?_⟩
          · split at hlog
            · exact hlog
            · cases hlog
          · change log ∈ sampleLogs n at hlog
            unfold sampleLogs at hlog
            split at hlog
            · subst n
              rw [if_pos ⟨hn, hn'⟩]
              exact hlog
            · cases hlog
      | getBlockByNumber number => exact (Except.ok.inj ha).symm
      | getTransactionByHash hash => exact (Except.ok.inj ha).symm
      | _ => trivial
    · cases op <;> first | trivial | exact storeAnswers_storeReply ha
    · cases op <;> first | trivial | exact (Except.ok.inj ha).symm
  · rfl

def firstArgs : Args := ⟨100, none, 500, false⟩
def secondArgs : Args := ⟨500, none, 500, false⟩

/-- The world after the invocation from block 100, which fails. -/
def firstWorld : World :=
  ends 0 ((invocation emptyBytesCrates firstArgs).eval (simulate 0)
    (begins firstArgs (World.initial .empty))).2

/-- The world after the invocation from block 500. -/
def lastWorld : World :=
  ((invocation emptyBytesCrates secondArgs).eval (simulate 1) (begins secondArgs firstWorld)).2

theorem moves_invocation (i : Nat) (args : Args) (w : World) (tasks : Nat → Option (Async Unit))
    (hi : tasks i = none) :
    Moves (Serves Postgres.legacyStore sampleChain) begins ends (invocation emptyBytesCrates)
      (w, tasks) (((invocation emptyBytesCrates args).eval (simulate i) (begins args w)).2,
        Function.update tasks i (some (.done ((invocation emptyBytesCrates args).eval
          (simulate i) (begins args w)).1))) := by
  have hrun : Moves (Serves Postgres.legacyStore sampleChain) begins ends
      (invocation emptyBytesCrates) _ _ :=
    moves_of_reaches (Function.update_self i (some (invocation emptyBytesCrates args)) tasks)
      (reaches_eval (serves_simulate i) (invocation emptyBytesCrates args) (begins args w))
  rw [Function.update_idem] at hrun
  exact .head (.start args hi) hrun

/-- After the failure comes another invocation, with any arguments. -/
theorem moves_second (args : Args) : ∃ tasks, Moves (Serves Postgres.legacyStore sampleChain)
    begins ends (invocation emptyBytesCrates) (idle (World.initial .empty))
    (((invocation emptyBytesCrates args).eval (simulate 1) (begins args firstWorld)).2, tasks) := by
  have hfirst := (moves_invocation 0 firstArgs (World.initial .empty) (fun _ => none) rfl).tail
    (.stop (Function.update_self _ _ _))
  exact ⟨_, hfirst.trans (moves_invocation 1 args firstWorld _ rfl)⟩

theorem ownIds_empty (crates : Crates) (chain : Chain) (locale : Locale) :
    OwnIds crates chain locale .empty := by
  intro n log _ a _ r hr
  cases (eventRow_empty _).symm.trans hr

theorem savedProgress_empty : savedProgress .empty = none := rfl

theorem savedProgress_lastWorld : savedProgress lastWorld.db = some 501 := by decide +kernel

/-! ### The invocation from block 100, repeated -/

/-- The world when the repeated invocation has created the checkpoint. -/
def rerunStarted : World :=
  ⟨Postgres.insertCheckpoint .empty CHAIN_ID DATASET 100, some 1, [500], some 100, [100, 100]⟩

/-- The world when it has committed its only range. -/
def rerunWorld (a : MessageAssigned) : World :=
  { rerunStarted with
    db := committed Postgres.legacyStore rerunStarted.db [.messageAssigned a] 501 }

section

variable {a : MessageAssigned} {i : Nat} {w : World}

theorem eval_fetchLogs_sample (fuel : Nat) : (fetchLogs 100 fuel 500).eval (simulate i) w =
    (.ok ([sampleAssignedLog], 500), w) := by
  have hlogs : (TronRpc.logs 100 500).attempt.eval (simulate i) w =
      (.ok (.ok [sampleAssignedLog]), w) := rfl
  rw [fetchLogs.eq_def, eval_bind_of_ok hlogs]
  rfl

theorem adjust_of_no_assignment {db : Database} (hdb : db.ormpMessageAssigned = .empty) :
    RecoveryStore.adjust Locale.c db (.messageAssigned a) = .ok (.messageAssigned a) := by
  have hnone : RecoveryStore.assignmentIds Locale.c db a = [] := by
    rw [RecoveryStore.assignmentIds, hdb]
    rfl
  rw [RecoveryStore.adjust, hnone]
  rfl

variable (ha : decodeLog emptyBytesCrates 200 4 (sampleChain.block 200)
  (sampleChain.transaction "0xa200") sampleAssignedLog = .ok (.messageAssigned a))

include ha

theorem eval_decodeRange_sample :
    (decodeRange emptyBytesCrates (sortLogs [sampleAssignedLog]) 100 500).eval (simulate i) w =
      (.ok [.messageAssigned a], w) := by
  have hlocated : locateLog 100 500 sampleAssignedLog = .ok (200, 4) := rfl
  have hnamed : quantity (sampleChain.block 200) "number" = .ok 200 := rfl
  have hasked : (await (.getBlockByNumber 200)).eval (simulate i) w =
      (.ok (sampleChain.block 200), w) := rfl
  have hblock : (blockOf .empty 200).eval (simulate i) w = (.ok (sampleChain.block 200), w) := by
    show (await (.getBlockByNumber 200) >>= _).eval (simulate i) w = _
    rw [eval_bind_of_ok hasked, hnamed]
    rfl
  have hhash : checkBlockHash (sampleChain.block 200) sampleAssignedLog = .ok () := rfl
  have htransaction : (transactionOf .empty sampleAssignedLog.transactionHash).eval (simulate i) w =
      (.ok (sampleChain.transaction "0xa200"), w) := rfl
  have hsorted : sortLogs [sampleAssignedLog] = [sampleAssignedLog] := rfl
  rw [hsorted, decodeRange, decodeLogs, hlocated]
  show (blockOf .empty 200 >>= _).eval (simulate i) w = _
  rw [eval_bind_of_ok hblock, hhash]
  show (transactionOf .empty _ >>= _).eval (simulate i) w = _
  rw [eval_bind_of_ok htransaction, ha]
  rfl

/-- One range, with one event. -/
theorem eval_recover_sample (hdb : w.db.ormpMessageAssigned = .empty) :
    (recover emptyBytesCrates true 100 500 500).eval (simulate i) w = (.ok (1, 1),
      { w with db := committed Postgres.legacyStore w.db [.messageAssigned a] 501 }) := by
  have hadjust := adjust_of_no_assignment (a := a) hdb
  have hreads : AnswersReads Locale.c w.db (simulate i) w := ⟨fun _ => rfl, fun _ => rfl, fun _ => rfl⟩
  have hcommit : (RecoveryStore.commit [.messageAssigned a] 501).eval (simulate i) w = (.ok (),
      { w with db := committed Postgres.legacyStore w.db [.messageAssigned a] 501 }) := by
    refine eval_commit hreads (fun e he => ?_) rfl
    rw [List.mem_singleton.mp he, adjusted_of_ok hadjust, hadjust]
  have hend : min (saturatingAdd 100 (500 - 1)) 500 = 500 := by decide
  show (recoverRanges emptyBytesCrates true 500 500 (400 + 1) 100 0 0).eval (simulate i) w = _
  rw [recoverRanges, if_pos (by decide), hend, eval_bind_of_ok (eval_fetchLogs_sample _)]
  dsimp only
  rw [eval_bind_of_ok (eval_decodeRange_sample ha)]
  show (RecoveryStore.commit [.messageAssigned a] 501 >>= _).eval (simulate i) w = _
  rw [eval_bind_of_ok hcommit]
  -- the cursor is behind the head
  rfl

theorem eval_rerun :
    (invocation emptyBytesCrates firstArgs).eval (simulate 1) (begins firstArgs firstWorld) =
      (.ok (), rerunWorld a) := by
  have hmainnet : TronRpc.ensureMainnet.eval (simulate 1) (begins firstArgs firstWorld) =
      (.ok (), begins firstArgs firstWorld) := rfl
  have hhead : TronRpc.confirmedHead.eval (simulate 1) (begins firstArgs firstWorld) =
      (.ok 500, { begins firstArgs firstWorld with sampled := [500] }) := rfl
  have hlock : RecoveryStore.lock.eval (simulate 1)
      { begins firstArgs firstWorld with sampled := [500] } =
      (.ok true, { begins firstArgs firstWorld with lock := some 1, sampled := [500] }) := rfl
  have hpreceding : RecoveryStore.checkPrecedingMessage.eval (simulate 1)
      { begins firstArgs firstWorld with lock := some 1, sampled := [500] } =
      (.ok (), { begins firstArgs firstWorld with lock := some 1, sampled := [500] }) := rfl
  have hstart : (RecoveryStore.nextBlock 100).eval (simulate 1)
      { begins firstArgs firstWorld with lock := some 1, sampled := [500] } =
      (.ok 100, rerunStarted) := rfl
  show (TronRpc.ensureMainnet >>= _).eval (simulate 1) _ = _
  rw [eval_bind_of_ok hmainnet]
  show (TronRpc.confirmedHead >>= _).eval (simulate 1) _ = _
  rw [eval_bind_of_ok hhead]
  show (RecoveryStore.lock >>= _).eval (simulate 1) _ = _
  rw [eval_bind_of_ok hlock]
  show (RecoveryStore.checkPrecedingMessage >>= _).eval (simulate 1) _ = _
  rw [eval_bind_of_ok hpreceding]
  show (RecoveryStore.nextBlock 100 >>= _).eval (simulate 1) _ = _
  rw [eval_bind_of_ok hstart]
  show (recover emptyBytesCrates true 100 500 500 >>= _).eval (simulate 1) _ = _
  rw [eval_bind_of_ok (eval_recover_sample ha rfl)]
  rfl

end

/-- The repeated invocation stores the assignment of block 200. -/
theorem recovery_never_skips_sample : ∃ a tasks,
    Moves (Serves Postgres.legacyStore sampleChain) begins ends (invocation emptyBytesCrates)
      (idle (World.initial .empty)) (rerunWorld a, tasks) ∧
    (rerunWorld a).started = [100, 100] ∧ savedProgress (rerunWorld a).db = some 501 ∧
    ∃ first, (rerunWorld a).origin = some first ∧
      Covered emptyBytesCrates sampleChain Locale.c (rerunWorld a).db first 501 ∧
      (501 ≤ first ∨ ∃ head ∈ (rerunWorld a).sampled, 501 ≤ head + 1) ∧
      ∃ log ∈ sampleChain.logs 200,
        chainEvent emptyBytesCrates sampleChain log = .ok (.messageAssigned a) ∧
        Kept Locale.c (rerunWorld a).db (.messageAssigned a) := by
  obtain ⟨a, ha⟩ := decodeLog_sampleAssignedLog
  obtain ⟨tasks, hmoves⟩ := moves_second firstArgs
  rw [eval_rerun ha] at hmoves
  have hsaved : savedProgress (rerunWorld a).db = some 501 := savedProgress_committed _ _ _ _
  obtain ⟨first, hfirst, hcovered, hhead⟩ := (recovery_never_skips emptyBytesCrates sampleChain
    Postgres.legacyStore (ownIds_empty _ _ _) savedProgress_empty .refl hmoves).2 501 hsaved
  refine ⟨a, tasks, hmoves, rfl, hsaved, first, hfirst, hcovered, hhead, sampleAssignedLog,
    List.mem_singleton_self _, chainEvent_sampleAssignedLog ha, ?_⟩
  cases hfirst
  obtain ⟨e, he, hkept⟩ := hcovered 200 (by decide) (by decide) sampleAssignedLog
    (List.mem_singleton_self _)
  cases (chainEvent_sampleAssignedLog ha).symm.trans he
  refine hkept.resolve_right ?_
  -- an assignment is never contested
  rintro ⟨_, _, haccepted, _⟩
  cases haccepted

/-! ## Two accepted events with one hash -/

/-- A message from Tron to Darwinia. -/
def sampleAccepted (index : Nat) (encoded : String) : MessageAccepted where
  metadata := sampleMetadata index ORMP
  msgHash := "0xa428da57230ca61d90e25487dd98320036e21b15759cf0cbe726960e1ccd7353"
  channel := "0x13fd60a93fed8141875378ba57500c5e554c93f2"
  index := 7
  fromChainId := CHAIN_ID
  fromAddress := "0x13fd60a93fed8141875378ba57500c5e554c93f2"
  toChainId := 46
  toAddress := "0x65be094765731f394bc6d9df53bdf3376f1fc8b0"
  gasLimit := 200000
  encoded := encoded

def sampleContested : List LegacyOrmPEvent :=
  [.messageAccepted (sampleAccepted 92 "0xdd"), .messageAccepted (sampleAccepted 93 "0xee")]

/-- Neither event conflicts with the empty database, and the second replaces the first. -/
theorem not_kept_sampleContested :
    Reaches (StoreServes Postgres.legacyStore)
        (.empty, RecoveryStore.commit sampleContested 87383929)
        (committed Postgres.legacyStore .empty sampleContested 87383929, .done (.ok ())) ∧
      ¬Kept Locale.c (committed Postgres.legacyStore .empty sampleContested 87383929)
        (.messageAccepted (sampleAccepted 92 "0xdd")) := by
  refine ⟨reaches_commit Postgres.legacyStore 87383929 (by decide +kernel), ?_⟩
  rintro ⟨k, hk, -⟩
  rcases of_mem_rowsAbout_commit hk with ⟨f, hf, hplace, hmessage⟩ | ⟨⟨r, hr, _⟩, _⟩
  · have hkey : k = (.ormpMessageAccepted, (sampleAccepted 92 "").msgHash) := by
      rw [← hplace]
      rcases List.mem_pair.mp hf with rfl | rfl <;> rfl
    obtain ⟨r, hr, hrow⟩ := hk
    rw [hkey, eventRow_committed] at hr
    have hlast : lastWhere (fun f => place Locale.c .empty f ==
        (.ormpMessageAccepted, (sampleAccepted 92 "").msgHash)) sampleContested =
          some (.messageAccepted (sampleAccepted 93 "0xee")) := rfl
    change (Option.map _ (lastWhere (fun f => place Locale.c .empty f == _) _)).or _ = _ at hr
    rw [hlast] at hr
    cases hr
    have hdiffer : (rowOf (adjusted Locale.c .empty (.messageAccepted (sampleAccepted 93 "0xee")))).message
        Locale.c ≠ messageOf Locale.c (.messageAccepted (sampleAccepted 92 "0xdd")) := by
      decide +kernel
    exact hdiffer hrow
  · rw [eventRow_empty] at hr
    cases hr

/-- The first `--from-block` is 100, and the assignment of block 200 is before the checkpoint and not stored; and
of two accepted events with one hash a commit stores one. -/
theorem first_from_block_skipped :
    (∃ tasks, Moves (Serves Postgres.legacyStore sampleChain) begins ends
        (invocation emptyBytesCrates) (idle (World.initial .empty)) (lastWorld, tasks)) ∧
      lastWorld.started.head? = some 100 ∧ savedProgress lastWorld.db = some 501 ∧
      (∃ log ∈ sampleChain.logs 200, ∃ e, chainEvent emptyBytesCrates sampleChain log = .ok e ∧
        ¬Kept Locale.c lastWorld.db e) ∧
      ∃ a b db', b.msgHash = a.msgHash ∧
        Reaches (StoreServes Postgres.legacyStore)
          (.empty, RecoveryStore.commit [.messageAccepted a, .messageAccepted b] 87383929)
          (db', .done (.ok ())) ∧ ¬Kept Locale.c db' (.messageAccepted a) := by
  refine ⟨moves_second secondArgs, by decide +kernel, savedProgress_lastWorld, ?_,
    sampleAccepted 92 "0xdd", sampleAccepted 93 "0xee", _, rfl, not_kept_sampleContested⟩
  obtain ⟨a, ha⟩ := decodeLog_sampleAssignedLog
  refine ⟨sampleAssignedLog, List.mem_singleton_self _, _, chainEvent_sampleAssignedLog ha, ?_⟩
  -- no assignment has been stored
  rintro ⟨⟨t, id⟩, hk, -⟩
  obtain rfl : t = .ormpMessageAssigned := fst_of_mem_rowsAbout hk
  obtain ⟨r, hr, _⟩ := hk
  obtain ⟨row, hrow, _⟩ := Option.map_eq_some_iff.mp hr
  have hnone : lastWorld.db.ormpMessageAssigned.select (fun _ => true) = [] := by decide +kernel
  have hmem : row ∈ lastWorld.db.ormpMessageAssigned.select fun _ => true := by
    rw [Table.mem_select, Table.key_of_get hrow]
    exact ⟨hrow, rfl⟩
  rw [hnone] at hmem
  cases hmem

end TronRecovery

end OrmpIndexer
