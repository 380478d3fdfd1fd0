/-
# OrmpIndexer.TronRecovery.Environment — the chain, the store, and the rules for the recovery's functions

The confirmed blocks of the chain never change, so they are a parameter (`Chain`): the logs of every block, and
what the node says about a block and a transaction. Any call may fail, and then nothing has happened. A
successful `eth_getLogs` answers with logs of the chain, and with all of them if there are fewer than 10000.

The rules take `commit` and `decodeRange` apart for any environment that keeps an assertion `A` while the
task reads: they end with what the pure functions `adjust` and `chainEvent` compute.
-/
import OrmpIndexer.TronRecovery.Command
import OrmpIndexer.TronRecovery.Events

namespace OrmpIndexer

open Foundation Foundation.Task

namespace TronRecovery

/-! ## The chain -/

/-- The confirmed blocks: their logs of the two contracts, and the node's view of blocks and
transactions. -/
structure Chain where
  logs : Nat → List RpcLog
  number : ∀ n, ∀ log ∈ logs n, hexU64 log.blockNumber = .ok n
  block : Nat → JsonObject
  transaction : String → JsonObject

/-- The event of a log of the chain. -/
def chainEvent (crates : Crates) (chain : Chain) (log : RpcLog) : Except Error LegacyOrmPEvent := do
  let number ← hexU64 log.blockNumber
  let index ← hexU64 log.logIndex
  decodeLog crates number index (chain.block number) (chain.transaction log.transactionHash) log

/-- What the node answers when it succeeds. -/
def nodeAnswers (chain : Chain) : (op : Op) → Reply op → Prop
  | .getLogs fromBlock toBlock, logs => (∀ log ∈ logs, ∃ n, log ∈ chain.logs n) ∧
      (logs.length < 10000 → ∀ n, fromBlock ≤ n → n ≤ toBlock → ∀ log ∈ chain.logs n, log ∈ logs)
  | .getBlockByNumber number, block => block = chain.block number
  | .getTransactionByHash hash, tx => tx = chain.transaction hash
  | _, _ => True

/-! ## The store -/

/-- What the database answers when it succeeds. The statement for assignments has no `ORDER BY`. -/
def storeAnswers (locale : Locale) (db : Database) : (op : Op) → Reply op → Prop
  | .precedingMessage, missing => RecoveryStore.PrecedingMessage db missing
  | .selectCheckpoint chainId dataset, nextBlock =>
      db.checkpoint.get (chainId, dataset) = some { chainId, dataset, nextBlock }
  | .messageConflicts event, conflicting => conflicting = RecoveryStore.conflicts locale db event
  | .acceptedMetadata msgHash, metadata => metadata = RecoveryStore.acceptedMetadata db msgHash
  | .assignmentIds event, ids => ids.Perm (RecoveryStore.assignmentIds locale db event)
  | .writeEventsAndAdvanceCheckpoint events .., written => written = events.length
  | _, _ => True

/-- What a successful call does to the database. -/
def effect (postgres : Postgres) (db : Database) : Op → Database
  | .insertCheckpoint chainId dataset startBlock =>
      Postgres.insertCheckpoint db chainId dataset startBlock
  | .writeEventsAndAdvanceCheckpoint events anchors chainId dataset nextBlock =>
      postgres.writeEventsAndAdvanceCheckpoint db events anchors chainId dataset nextBlock
  | _ => db

/-- A call that changes neither the database nor what is recorded beside it. -/
def IsRead : Op → Prop
  | .nowBlock | .tryAdvisoryLock | .insertCheckpoint .. | .writeEventsAndAdvanceCheckpoint .. => False
  | _ => True

theorem effect_of_isRead {postgres : Postgres} {db : Database} {op : Op} (h : IsRead op) :
    effect postgres db op = db := by
  cases op <;> first | rfl | exact h.elim

/-- The store alone: a call may fail without effect, and a successful one is a statement or a transaction
on the database. -/
def StoreServes (postgres : Postgres) (db : Database) (op : Op) (r : Except Error (Reply op))
    (db' : Database) : Prop :=
  match r with
  | .error _ => db' = db
  | .ok a => storeAnswers postgres.locale db op a ∧ db' = effect postgres db op

/-- The replies of the store when nothing fails. -/
def storeReply (locale : Locale) (db : Database) : (op : Op) → Except Error (Reply op)
  | .tableExists _ => .ok true
  | .precedingMessage =>
      if (RecoveryStore.importedRoots db).isEmpty then .ok none else .error ["statement timeout"]
  | .insertCheckpoint .. => .ok ()
  | .selectCheckpoint chainId dataset =>
      match db.checkpoint.get (chainId, dataset) with
      | some checkpoint => .ok checkpoint.nextBlock
      | none => .error ["no rows returned"]
  | .messageConflicts event => .ok (RecoveryStore.conflicts locale db event)
  | .acceptedMetadata msgHash => .ok (RecoveryStore.acceptedMetadata db msgHash)
  | .assignmentIds event => .ok (RecoveryStore.assignmentIds locale db event)
  | .writeEventsAndAdvanceCheckpoint events .. => .ok events.length
  | _ => .error ["not a statement"]

theorem storeAnswers_storeReply {locale : Locale} {db : Database} {op : Op} {a : Reply op}
    (h : storeReply locale db op = .ok a) : storeAnswers locale db op a := by
  cases op with
  | precedingMessage =>
      simp only [storeReply] at h
      split at h
      · rename_i hnone
        cases h
        exact .inl ⟨List.isEmpty_iff.mp hnone, rfl⟩
      · cases h
  | selectCheckpoint chainId dataset =>
      simp only [storeReply] at h
      split at h
      · rename_i checkpoint hget
        obtain ⟨hc, hd⟩ := Checkpoint.key_of_get hget
        cases h
        show db.checkpoint.get (chainId, dataset) = _
        rw [hget, ← hc, ← hd]
      · cases h
  | messageConflicts event => exact (Except.ok.inj h).symm
  | acceptedMetadata msgHash => exact (Except.ok.inj h).symm
  | assignmentIds event => exact .of_eq (Except.ok.inj h).symm
  | writeEventsAndAdvanceCheckpoint => exact (Except.ok.inj h).symm
  | _ => trivial

/-- The store as a function. -/
def simulateStore (postgres : Postgres) (db : Database) (op : Op) :
    Except Error (Reply op) × Database :=
  match storeReply postgres.locale db op with
  | .ok a => (.ok a, effect postgres db op)
  | .error error => (.error error, db)

theorem storeServes_simulateStore (postgres : Postgres) (db : Database) (op : Op) :
    StoreServes postgres db op (simulateStore postgres db op).1 (simulateStore postgres db op).2 := by
  unfold simulateStore
  split
  · exact ⟨storeAnswers_storeReply ‹_›, rfl⟩
  · rfl

/-! ## The rules -/

section

variable {σ : Type} {serves : σ → (op : Op) → Except Error (Reply op) → σ → Prop}
  {G : σ → Op → Prop} {A : σ → Prop} {E : Error → σ → Prop} {s : σ}

theorem wp_check {p : Bool} {message : String} {Q : Unit → σ → Prop} (hs : A s)
    (hE : ∀ e s', A s' → E e s') (hQ : p = true → Q () s) :
    Wp serves G Q E (check p message) s := by
  refine wp_ofExcept_of hs (fun a ha => ?_) hE
  cases p with
  | true => exact hQ rfl
  | false => cases ha

namespace RecoveryStore

variable {locale : Locale} {db : Database}

variable (serves G A locale db) in
/-- The statements of `commit` that read are answered by one database. -/
structure Reads : Prop where
  messageConflicts : ∀ event,
    Safe serves G A (.messageConflicts event) (· = conflicts locale db event)
  acceptedMetadata : ∀ msgHash,
    Safe serves G A (.acceptedMetadata msgHash) (· = acceptedMetadata db msgHash)
  assignmentIds : ∀ event,
    Safe serves G A (.assignmentIds event) (·.Perm (assignmentIds locale db event))

theorem Reads.of_isRead
    (h : ∀ op, IsRead op → Safe serves G A op (storeAnswers locale db op)) :
    Reads serves G A locale db :=
  ⟨fun _ => h _ trivial, fun _ => h _ trivial, fun _ => h _ trivial⟩

variable (hreads : Reads serves G A locale db) (hE : ∀ e s', A s' → E e s')

include hreads hE

theorem wp_adjustEvent {event : LegacyOrmPEvent} {Q : LegacyOrmPEvent → σ → Prop} (hs : A s)
    (hQ : ∀ event' s', A s' → adjust locale db event = .ok event' → Q event' s') :
    Wp serves G Q E (adjustEvent event) s := by
  cases event with
  | messageAccepted e =>
      refine wp_bind.mpr (wp_bind.mpr ((hreads.messageConflicts e).wp hs ?_ hE))
      rintro conflicting s' hs' rfl
      refine wp_check hs' hE fun hfree => ?_
      refine wp_bind.mpr ((hreads.acceptedMetadata e.msgHash).wp hs' ?_ hE)
      rintro metadata s'' hs'' rfl
      cases hmetadata : acceptedMetadata db e.msgHash with
      | none => exact hQ _ s'' hs'' (by rw [adjust, hfree, hmetadata]; rfl)
      | some metadata => exact hQ _ s'' hs'' (by rw [adjust, hfree, hmetadata]; rfl)
  | messageAssigned e =>
      change Wp serves G Q E (await (.assignmentIds e) >>= fun ids => _) s
      refine wp_bind.mpr ((hreads.assignmentIds e).wp hs ?_ hE)
      intro ids s' hs' hids
      refine wp_bind.mpr (wp_check hs' hE fun hone => ?_)
      have hone : ids.length ≤ 1 := by simpa using hone
      -- of at most one row there is one order
      rcases ids with _ | ⟨id, _ | ⟨id', ids⟩⟩
      · have hnone : assignmentIds locale db e = [] := List.nil_perm.mp hids
        exact hQ _ s' hs' (by rw [adjust, hnone]; rfl)
      · have hsome : assignmentIds locale db e = [id] := (List.singleton_perm.mp hids).symm
        exact hQ _ s' hs' (by rw [adjust, hsome]; rfl)
      · simp at hone
  | _ => exact hQ _ s hs rfl

theorem wp_adjustEvents {events : List LegacyOrmPEvent} {Q : List LegacyOrmPEvent → σ → Prop}
    (hs : A s) (hQ : ∀ events' s', A s' → events.mapM (adjust locale db) = .ok events' →
      Q events' s') : Wp serves G Q E (adjustEvents events) s := by
  induction events generalizing s Q with
  | nil => exact hQ [] s hs rfl
  | cons event events ih =>
      refine wp_bind.mpr (wp_adjustEvent hreads hE hs fun event' s' hs' hevent => ?_)
      refine wp_bind.mpr (ih hs' fun events' s'' hs'' hevents => ?_)
      refine hQ _ s'' hs'' ?_
      rw [List.mapM_cons, hevent, hevents]
      rfl

/-- Up to its transaction `commit` reads, and the transaction writes the adjusted events. -/
theorem wp_commit {events : List LegacyOrmPEvent} {next : Nat} {Q : Unit → σ → Prop} (hs : A s)
    (hwrite : ∀ adjusted s', A s' → events.mapM (adjust locale db) = .ok adjusted →
      Wp serves G (fun _ => Q ()) (fun e => E ("commit Tron events and recovery checkpoint" :: e))
        (await (.writeEventsAndAdvanceCheckpoint adjusted [] CHAIN_ID DATASET next)) s') :
    Wp serves G Q E (commit events next) s := by
  refine wp_bind.mpr (wp_adjustEvents hreads hE hs fun adjusted s' hs' hadjusted => ?_)
  exact wp_bind.mpr (wp_mapError.mpr (hwrite adjusted s' hs' hadjusted))

end RecoveryStore

/-! ## The logs of a range -/

/-- The logs, or an error if there may be more of them. -/
theorem wp_logs {fromBlock toBlock : Nat} {P : List RpcLog → Prop} {Q : List RpcLog → σ → Prop}
    (hs : A s) (hE : ∀ e s', A s' → E e s') (hlogs : Safe serves G A (.getLogs fromBlock toBlock) P)
    (hQ : ∀ logs s', A s' → P logs → logs.length < 10000 → Q logs s') :
    Wp serves G Q E (TronRpc.logs fromBlock toBlock) s := by
  refine wp_bind.mpr (hlogs.wp hs (fun logs s' hs' hP => ?_) hE)
  exact wp_bind.mpr (wp_check hs' hE fun hlength => hQ logs s' hs' hP (by simpa using hlength))

/-- Whatever range the loop ends with, it starts at the cursor and is no longer than the first one. -/
theorem wp_fetchLogs {cursor : Nat} {P : Nat → List RpcLog → Prop}
    {Q : List RpcLog × Nat → σ → Prop} (hE : ∀ e s', A s' → E e s')
    (hlogs : ∀ toBlock, Safe serves G A (.getLogs cursor toBlock) (P toBlock)) (fuel : Nat)
    {rangeEnd : Nat} (hs : A s) (hrange : cursor ≤ rangeEnd)
    (hQ : ∀ logs stop s', A s' → P stop logs → logs.length < 10000 → cursor ≤ stop →
      stop ≤ rangeEnd → Q (logs, stop) s') :
    Wp serves G Q E (fetchLogs cursor fuel rangeEnd) s := by
  induction fuel generalizing rangeEnd s with
  | zero =>
      rw [fetchLogs]
      refine wp_bind.mpr (wp_attempt.mpr (wp_logs hs (fun e s' hs' => ?_) (hlogs rangeEnd)
        fun logs s' hs' hP hlength => ?_))
      · dsimp only
        split <;> exact hE _ s' hs'
      · exact hQ logs rangeEnd s' hs' hP hlength hrange (Nat.le_refl _)
  | succ fuel ih =>
      rw [fetchLogs]
      refine wp_bind.mpr (wp_attempt.mpr (wp_logs hs (fun e s' hs' => ?_) (hlogs rangeEnd)
        fun logs s' hs' hP hlength => ?_))
      · dsimp only
        split
        · exact hE _ s' hs'
        · -- the first half
          refine ih hs' (by omega) fun logs stop s'' hs'' hP hlength hle hstop => ?_
          exact hQ logs stop s'' hs'' hP hlength hle (by omega)
      · exact hQ logs rangeEnd s' hs' hP hlength hrange (Nat.le_refl _)

section

variable {crates : Crates} {B : Nat → JsonObject → Prop} {T : String → JsonObject → Prop}
  {start stop : Nat}

variable (crates B T start stop) in
/-- The event is decoded from the log, with some block and some transaction the node may answer. -/
def DecodedFrom (log : RpcLog) (e : LegacyOrmPEvent) : Prop :=
  ∃ number index block tx, locateLog start stop log = .ok (number, index) ∧ B number block ∧
    T log.transactionHash tx ∧ decodeLog crates number index block tx log = .ok e

variable (B T) in
/-- The caches hold answers of the node. -/
structure Seen.Valid (seen : Seen) : Prop where
  blocks : ∀ number block, seen.blocks.lookup number = some block → B number block
  transactions : ∀ hash tx, seen.transactions.lookup hash = some tx → T hash tx

/-- The positions that have been seen, as positions of events. -/
def Seen.places (seen : Seen) : List (Nat × Int) := seen.positions.map fun p => (p.1, (p.2 : Int))

theorem Seen.valid_empty : Seen.empty.Valid B T := ⟨nofun, nofun⟩

theorem Seen.Valid.cons {seen : Seen} (h : seen.Valid B T) {number : Nat} {hash : String}
    {block tx : JsonObject} (hblock : B number block) (htx : T hash tx)
    (positions : List (Nat × Nat)) :
    Seen.Valid B T ⟨(number, block) :: seen.blocks, (hash, tx) :: seen.transactions, positions⟩ := by
  constructor
  · intro n b hn
    rw [List.lookup_cons] at hn
    split at hn
    · rename_i hsame
      cases hn
      rw [beq_iff_eq.mp hsame]
      exact hblock
    · exact h.blocks n b hn
  · intro g t hg
    rw [List.lookup_cons] at hg
    split at hg
    · rename_i hsame
      cases hg
      rw [beq_iff_eq.mp hsame]
      exact htx
    · exact h.transactions g t hg

variable (hE : ∀ e s', A s' → E e s')
  (hblocks : ∀ number, Safe serves G A (.getBlockByNumber number) (B number))
  (htransactions : ∀ hash, Safe serves G A (.getTransactionByHash hash) (T hash))

include hE

include hblocks in
theorem wp_blockOf {seen : Seen} (hseen : seen.Valid B T) {number : Nat}
    {Q : JsonObject → σ → Prop} (hs : A s) (hQ : ∀ block s', A s' → B number block → Q block s') :
    Wp serves G Q E (blockOf seen number) s := by
  unfold blockOf
  split
  · rename_i block hblock
    exact hQ block s hs (hseen.blocks number block hblock)
  · refine wp_bind.mpr ((hblocks number).wp hs (fun block s' hs' hB => ?_) hE)
    refine wp_bind.mpr (wp_ofExcept_of hs' (fun named _ => ?_) hE)
    exact wp_bind.mpr (wp_check hs' hE fun _ => hQ block s' hs' hB)

include htransactions in
theorem wp_transactionOf {seen : Seen} (hseen : seen.Valid B T) {hash : String}
    {Q : JsonObject → σ → Prop} (hs : A s) (hQ : ∀ tx s', A s' → T hash tx → Q tx s') :
    Wp serves G Q E (transactionOf seen hash) s := by
  unfold transactionOf
  split
  · rename_i tx htx
    exact hQ tx s hs (hseen.transactions hash tx htx)
  · exact (htransactions hash).wp hs hQ hE

include hblocks htransactions in
/-- The events are decoded from the logs one by one, and their places are new. -/
theorem wp_decodeLogs {logs : List RpcLog} {seen : Seen} (hseen : seen.Valid B T)
    {Q : List LegacyOrmPEvent → σ → Prop} (hs : A s)
    (hQ : ∀ events s', A s' → List.Forall₂ (DecodedFrom crates B T start stop) logs events →
      (events.map position).Nodup → (∀ e ∈ events, position e ∉ seen.places) → Q events s') :
    Wp serves G Q E (decodeLogs crates start stop seen logs) s := by
  induction logs generalizing seen s Q with
  | nil => exact hQ [] s hs .nil List.nodup_nil (by simp)
  | cons log logs ih =>
      refine wp_bind.mpr (wp_ofExcept_of hs (fun located hlocated => ?_) hE)
      obtain ⟨number, index⟩ := located
      refine wp_bind.mpr (wp_check hs hE fun hnew => ?_)
      refine wp_bind.mpr (wp_blockOf hE hblocks hseen hs fun block s' hs' hB => ?_)
      refine wp_bind.mpr (wp_ofExcept_of hs' (fun _ _ => ?_) hE)
      refine wp_bind.mpr (wp_transactionOf hE htransactions hseen hs' fun tx s'' hs'' hT => ?_)
      refine wp_bind.mpr (wp_ofExcept_of hs'' (fun event hevent => ?_) hE)
      refine wp_bind.mpr (ih (hseen.cons hB hT _) hs''
        fun events s₃ hs₃ hdecoded hnodup hplaces => ?_)
      obtain ⟨_, hposition, _⟩ := decodeLog_eq_ok hevent
      have hfresh : position event ∉ seen.places := by
        intro hmem
        obtain ⟨p, hp, hpe⟩ := List.mem_map.mp hmem
        rw [hposition] at hpe
        obtain ⟨hn, hi⟩ := Prod.mk.inj hpe
        have hsame : p = (number, index) := Prod.ext hn (Int.ofNat.inj hi)
        rw [hsame] at hp
        simp [hp] at hnew
      refine hQ (event :: events) s₃ hs₃
        (.cons ⟨number, index, block, tx, hlocated, hB, hT, hevent⟩ hdecoded) ?_ ?_
      · rw [List.map_cons, List.nodup_cons]
        refine ⟨fun hmem => ?_, hnodup⟩
        obtain ⟨e, he, hpe⟩ := List.mem_map.mp hmem
        apply hplaces e he
        rw [hpe, hposition]
        exact List.mem_cons_self
      · intro e he
        rcases List.mem_cons.mp he with rfl | he
        · exact hfresh
        · exact fun hmem => hplaces e he (List.mem_cons_of_mem _ hmem)

end

end

end TronRecovery

end OrmpIndexer
