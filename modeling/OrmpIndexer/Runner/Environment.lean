/-
# OrmpIndexer.Runner.Environment — the world a pass runs in

The state of the world is the database, the calls answered so far (`past`, the LATEST FIRST) and
whatever else the environment of a theorem consists of (`env`; a pass never changes it). A call may
always be answered by an error, and then nothing has happened: every store call is one statement or one
transaction. A successful reply is what the store and the decoder return, and what the theorem at hand
allows (`Answers`): the reader is the only party it can leave open.

`Extends` is the part of a pass between two commits: calls that change nothing. The rules below take a
pass apart along the functions of the source; `CommitsAt` collects everything that is known when a range
is about to be committed.
-/
import OrmpIndexer.Database
import OrmpIndexer.Decoder.Evm
import OrmpIndexer.Runner

namespace OrmpIndexer

open Foundation Foundation.Task

namespace Runner

/-- An answered call. -/
structure Call where
  op : Op
  reply : Except Error (Reply op)
deriving DecidableEq

/-- The store and the decoder an `IndexerRunner` is built with. -/
structure Indexer where
  postgres : Postgres
  decoder : EventDecoder

structure World (Env : Type) where
  db : Database
  past : List Call
  env : Env

/-- What a successful call does to the database. -/
def effect (postgres : Postgres) (db : Database) : Op → Database
  | .insertCheckpoint chainId dataset startBlock =>
      Postgres.insertCheckpoint db chainId dataset startBlock
  | .rollbackLegacyFrom chainId dataset rollbackBlock =>
      postgres.rollbackLegacyFrom db chainId dataset rollbackBlock
  | .writeEventsAndAdvanceCheckpoint events anchors chainId dataset nextBlock =>
      postgres.writeEventsAndAdvanceCheckpoint db events anchors chainId dataset nextBlock
  | _ => db

/-- What the store and the decoder answer when they succeed. -/
def storeAnswers (ix : Indexer) (db : Database) : (op : Op) → Reply op → Prop
  | .selectCheckpoint chainId dataset, nextBlock =>
      db.checkpoint.get (chainId, dataset) = some { chainId, dataset, nextBlock }
  | .readBlockAnchors chainId dataset fromBlock toBlock, anchors =>
      anchors = ix.postgres.readBlockAnchors db chainId dataset fromBlock toBlock
  | .writeEventsAndAdvanceCheckpoint events _ _ _ _, written => written = events.length
  | .decode log, events => ix.decoder.decode log = .ok events
  | _, _ => True

variable {Env : Type}

/-- The world after a call was answered. -/
def World.record (postgres : Postgres) (w : World Env) (op : Op) (r : Except Error (Reply op)) :
    World Env where
  db := match r with
    | .ok _ => effect postgres w.db op
    | .error _ => w.db
  past := ⟨op, r⟩ :: w.past
  env := w.env

/-- What a theorem allows a successful reply to be. -/
abbrev Answers (Env : Type) := World Env → (op : Op) → Reply op → Prop

/-- The environment relation: any call may fail without effect, a successful call does what the store
does and answers what the store, the decoder and the theorem allow. -/
def Serves (ix : Indexer) (allowed : Answers Env) (w : World Env) (op : Op)
    (r : Except Error (Reply op)) (w' : World Env) : Prop :=
  (∀ a, r = .ok a → storeAnswers ix w.db op a ∧ allowed w op a) ∧
    w' = w.record ix.postgres op r

/-! ## A deterministic environment -/

/-- The replies of the store and the decoder when nothing fails. The reader's are given, and so is
whether a rollback goes through. -/
def reply (ix : Indexer) (reader : World Env → (op : Op) → Except Error (Reply op)) (w : World Env) :
    (op : Op) → Except Error (Reply op)
  | .insertCheckpoint .. => .ok ()
  | .selectCheckpoint chainId dataset =>
      match w.db.checkpoint.get (chainId, dataset) with
      | some checkpoint => .ok checkpoint.nextBlock
      | none => .error ["no rows returned"]
  | .readBlockAnchors chainId dataset fromBlock toBlock =>
      .ok (ix.postgres.readBlockAnchors w.db chainId dataset fromBlock toBlock)
  | .writeEventsAndAdvanceCheckpoint events .. => .ok events.length
  | .decode log => ix.decoder.decode log
  | op => reader w op

/-- A reader, the store and the decoder as one function. -/
def simulate (ix : Indexer) (reader : World Env → (op : Op) → Except Error (Reply op))
    (w : World Env) (op : Op) : Except Error (Reply op) × World Env :=
  (reply ix reader w op, w.record ix.postgres op (reply ix reader w op))

/-- The deterministic environment is one of those the relation describes. -/
theorem serves_simulate {ix : Indexer} {reader : World Env → (op : Op) → Except Error (Reply op)}
    {allowed : Answers Env} (h : ∀ w op a, reply ix reader w op = .ok a → allowed w op a)
    (w : World Env) (op : Op) :
    Serves ix allowed w op (simulate ix reader w op).1 (simulate ix reader w op).2 := by
  refine ⟨fun a ha => ⟨?_, h w op a ha⟩, rfl⟩
  change reply ix reader w op = .ok a at ha
  cases op with
  | selectCheckpoint chainId dataset =>
      change (match w.db.checkpoint.get (chainId, dataset) with
        | some checkpoint => .ok checkpoint.nextBlock
        | none => .error ["no rows returned"]) = Except.ok a at ha
      split at ha
      · rename_i checkpoint hget
        obtain ⟨hc, hd⟩ := Checkpoint.key_of_get hget
        cases ha
        show w.db.checkpoint.get (chainId, dataset) = _
        rw [hget, ← hc, ← hd]
      · cases ha
  | readBlockAnchors => exact (Except.ok.inj ha).symm
  | writeEventsAndAdvanceCheckpoint => exact (Except.ok.inj ha).symm
  | decode log => exact ha
  | _ => trivial

/-- A pass leaves the rest of the world alone. -/
theorem env_eval_simulate {ix : Indexer} {reader : World Env → (op : Op) → Except Error (Reply op)}
    {α : Type} (t : Async α) (w : World Env) : (t.eval (simulate ix reader) w).2.env = w.env := by
  induction t generalizing w with
  | done r => rfl
  | call op next ih => exact ih _ _

/-- A log as `log_from_row` builds it, with everything but its place and its data fixed. -/
def sampleLog (chainId blockNumber : Nat) (blockHash data : String) : DatalensLog where
  id := some (logId chainId blockNumber "0x01" 0)
  chainId := chainId
  blockNumber := blockNumber
  blockHash := some blockHash
  parentHash := none
  blockTimestamp := some 1700000000
  transactionHash := "0x01"
  transactionIndex := some 0
  logIndex := 0
  address := "0x13b2211a7ca45db2808f6db05557ce5347e3634e"
  transactionFrom := none
  topics := []
  data := data

/-- A decoder that finds one event in every log that has an id: a payload around the metadata. -/
def payloadDecoder (payload : DatalensLog → ChainLogMetadata → LegacyOrmPEvent)
    (hpayload : ∀ log metadata, (payload log metadata).metadata = metadata) : EventDecoder where
  decode log :=
    match log.id with
    | none => .error ["EVM log is missing legacy event id"]
    | some id => .ok [payload log {
        id, chainId := log.chainId, blockNumber := log.blockNumber, blockHash := log.blockHash,
        blockTimestamp := 1700000000000, transactionHash := log.transactionHash,
        transactionIndex := 0, logIndex := log.logIndex, contractAddress := log.address,
        transactionFrom := log.transactionFrom }]
  keepsLog {log events} h e he := by
    split at h
    · cases h
    · rename_i id hid
      cases h
      rw [List.mem_singleton.mp he, hpayload]
      exact ⟨hid, rfl, rfl, rfl, rfl⟩

/-- Every log imports the hash that is its data. -/
def hashDecoder : EventDecoder :=
  payloadDecoder (fun log metadata => .hashImported {
    metadata, srcChainId := 1, targetChainId := log.chainId, oracle := "0x03", channel := "0x02",
    msgIndex := 0, hash := log.data }) fun _ _ => rfl

def hashIndexer : Indexer := ⟨Postgres.legacyStore, hashDecoder⟩

def darwinia (startBlock batchSize : Nat) (finalityMode : FinalityMode) : ChainConfig where
  chainId := 46
  startBlock := startBlock
  batchSize := batchSize
  contracts := []
  topics := []
  finalityMode := finalityMode

/-! ## Calls that change nothing -/

/-- Calls without an effect on the database, whatever they answer. -/
def IsRead : Op → Prop
  | .insertCheckpoint .. | .rollbackLegacyFrom .. | .writeEventsAndAdvanceCheckpoint .. => False
  | _ => True

/-- A call that failed, or one without an effect. -/
def Call.Quiet (c : Call) : Prop := IsRead c.op ∨ ∃ e, c.reply = .error e

/-- A call of the decoder. -/
def Call.IsDecode (c : Call) : Prop := ∃ log, c.op = .decode log

/-- `w'` is `w` after some calls of a kind that change nothing. -/
structure Extends (P : Call → Prop) (w w' : World Env) : Prop where
  db : w'.db = w.db
  env : w'.env = w.env
  past : ∃ new, w'.past = new ++ w.past ∧ ∀ c ∈ new, P c

variable {P P' : Call → Prop}

theorem Extends.refl (w : World Env) : Extends P w w :=
  ⟨rfl, rfl, [], rfl, by simp⟩

theorem Extends.trans {w w' w'' : World Env} (h : Extends P w w') (h' : Extends P w' w'') :
    Extends P w w'' := by
  obtain ⟨new, hnew, hP⟩ := h.past
  obtain ⟨new', hnew', hP'⟩ := h'.past
  refine ⟨h'.db.trans h.db, h'.env.trans h.env, new' ++ new, ?_, ?_⟩
  · rw [hnew', hnew, List.append_assoc]
  · intro c hc
    rcases List.mem_append.mp hc with hc | hc
    · exact hP' c hc
    · exact hP c hc

theorem Extends.imp {w w' : World Env} (h : Extends P w w') (hP : ∀ c, P c → P' c) :
    Extends P' w w' := by
  obtain ⟨new, hnew, hnewP⟩ := h.past
  exact ⟨h.db, h.env, new, hnew, fun c hc => hP c (hnewP c hc)⟩

theorem effect_of_isRead {op : Op} (h : IsRead op) (postgres : Postgres) (db : Database) :
    effect postgres db op = db := by
  cases op <;> first | rfl | exact h.elim

theorem extends_record_read {op : Op} (h : IsRead op) {postgres : Postgres} {w : World Env}
    {r : Except Error (Reply op)} (hP : P ⟨op, r⟩) : Extends P w (w.record postgres op r) := by
  refine ⟨?_, rfl, [⟨op, r⟩], rfl, fun c hc => ?_⟩
  · cases r with
    | ok a => exact effect_of_isRead h postgres w.db
    | error e => rfl
  · rw [List.mem_singleton.mp hc]
    exact hP

/-- A read keeps the world quiet. -/
theorem quiet_record_read {op : Op} (h : IsRead op) {postgres : Postgres} {w : World Env}
    {r : Except Error (Reply op)} : Extends Call.Quiet w (w.record postgres op r) :=
  extends_record_read h (.inl h)

/-- So does a call that fails. -/
theorem quiet_record_error {postgres : Postgres} {w : World Env} {op : Op} {e : Error} :
    Extends Call.Quiet w (w.record postgres op (.error e)) := by
  refine ⟨rfl, rfl, [⟨op, .error e⟩], rfl, fun c hc => ?_⟩
  rw [List.mem_singleton.mp hc]
  exact .inr ⟨e, rfl⟩

theorem Call.IsDecode.quiet {c : Call} (h : c.IsDecode) : c.Quiet := by
  obtain ⟨log, h⟩ := h
  exact .inl (by rw [h]; trivial)

/-! ## Rules for single calls -/

section

variable {ix : Indexer} {allowed : Answers Env} {α β : Type}
variable {G : World Env → Op → Prop} {Q : α → World Env → Prop} {E : Error → World Env → Prop}

theorem wp_withContext {m : String} {t : Async α} {w : World Env} :
    Wp (Serves ix allowed) G Q E (withContext m t) w ↔
      Wp (Serves ix allowed) G Q (fun e => E (m :: e)) t w :=
  wp_mapError

theorem wp_call (op : Op) {Q : Reply op → World Env → Prop} {w : World Env} :
    Wp (Serves ix allowed) G Q E (await op) w ↔
      G w op ∧
        (∀ a, storeAnswers ix w.db op a → allowed w op a →
          Q a (w.record ix.postgres op (.ok a))) ∧
        ∀ e, E e (w.record ix.postgres op (.error e)) := by
  rw [await, wp_await]
  refine and_congr_right fun _ => and_congr ⟨fun h a hs ha => ?_, fun h a w' hw => ?_⟩
    ⟨fun h e => ?_, fun h e w' hw => ?_⟩
  · refine h a _ ⟨fun b hb => ?_, rfl⟩
    cases hb
    exact ⟨hs, ha⟩
  · obtain ⟨hs, rfl⟩ := hw
    exact h a (hs a rfl).1 (hs a rfl).2
  · exact h e _ ⟨fun b hb => (nomatch hb), rfl⟩
  · obtain ⟨_, rfl⟩ := hw
    exact h e

/-! ## Decoding the logs of a range -/

/-- The events of some logs, as the decoder returns them. -/
def decodeAll (decoder : EventDecoder) : List DatalensLog → Except Error (List LegacyOrmPEvent)
  | [] => .ok []
  | log :: logs => do
      let events ← decoder.decode log
      let rest ← decodeAll decoder logs
      return events ++ rest

theorem decodeAll_cons_eq_ok {decoder : EventDecoder} {log : DatalensLog} {logs : List DatalensLog}
    {events : List LegacyOrmPEvent} : decodeAll decoder (log :: logs) = .ok events ↔
      ∃ first rest, decoder.decode log = .ok first ∧ decodeAll decoder logs = .ok rest ∧
        events = first ++ rest := by
  simp only [decodeAll, bind_eq_ok]
  constructor
  · rintro ⟨first, hfirst, rest, hrest, h⟩
    cases h
    exact ⟨first, rest, hfirst, hrest, rfl⟩
  · rintro ⟨first, rest, hfirst, hrest, rfl⟩
    exact ⟨first, hfirst, rest, hrest, rfl⟩

theorem mem_of_decodeAll {decoder : EventDecoder} {logs : List DatalensLog}
    {events : List LegacyOrmPEvent} (h : decodeAll decoder logs = .ok events) {e : LegacyOrmPEvent} :
    e ∈ events ↔ ∃ log ∈ logs, ∃ es, decoder.decode log = .ok es ∧ e ∈ es := by
  induction logs generalizing events with
  | nil =>
      cases h
      simp
  | cons log logs ih =>
      obtain ⟨first, rest, hfirst, hrest, rfl⟩ := decodeAll_cons_eq_ok.mp h
      rw [List.mem_append, ih hrest, List.exists_mem_cons_iff]
      refine or_congr_left ⟨fun he => ⟨first, hfirst, he⟩, fun ⟨es, hes, he⟩ => ?_⟩
      rw [hfirst] at hes
      cases hes
      exact he

/-- If all logs decode, each of them does. -/
theorem decode_of_decodeAll {decoder : EventDecoder} {logs : List DatalensLog}
    {events : List LegacyOrmPEvent} (h : decodeAll decoder logs = .ok events) :
    ∀ log ∈ logs, ∃ es, decoder.decode log = .ok es := by
  induction logs generalizing events with
  | nil => simp
  | cons log logs ih =>
      obtain ⟨first, rest, hfirst, hrest, rfl⟩ := decodeAll_cons_eq_ok.mp h
      intro l hl
      rcases List.mem_cons.mp hl with rfl | hl
      · exact ⟨first, hfirst⟩
      · exact ih hrest l hl

theorem wp_decodeLogs {logs : List DatalensLog} {w : World Env}
    {Q : List LegacyOrmPEvent → World Env → Prop}
    (call : ∀ w' log, Extends Call.IsDecode w w' → G w' (.decode log))
    (fail : ∀ e w', Extends Call.IsDecode w w' → E e w')
    (done : ∀ events w', decodeAll ix.decoder logs = .ok events → Extends Call.IsDecode w w' →
      Q events w') :
    Wp (Serves ix allowed) G Q E (decodeLogs logs) w := by
  induction logs generalizing w E Q with
  | nil => exact done [] w rfl (.refl w)
  | cons log logs ih =>
      have step : ∀ r, Extends Call.IsDecode w (w.record ix.postgres (.decode log) r) :=
        fun r => extends_record_read (show IsRead (.decode log) from trivial) ⟨log, rfl⟩
      rw [decodeLogs, wp_bind, wp_withContext, wp_call (.decode log)]
      refine ⟨call w log (.refl w), fun first hfirst _ => ?_, fun e => fail _ _ (step _)⟩
      rw [wp_bind]
      refine ih (fun w' l h => call w' l ((step _).trans h))
        (fun e w' h => fail e w' ((step _).trans h)) fun rest w' hrest h => ?_
      exact done (first ++ rest) w'
        (decodeAll_cons_eq_ok.mpr ⟨first, rest, hfirst, hrest, rfl⟩) ((step _).trans h)

end

end Runner

end OrmpIndexer
