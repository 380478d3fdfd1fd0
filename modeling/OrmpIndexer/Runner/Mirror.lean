/-
# OrmpIndexer.Runner.Mirror — from the contract to the row

The whole way of an event in the modes `finalized` and `durable`. A contract emits it, Datalens has its
log in a page of an answer, the HTTP client puts the pages of an answer together and tries again where a
request fails, the runner asks for range after range and stops anywhere, the decoder reads the log, and
the store writes its row.

Datalens promises (`Truthful`) that the rows of an answer are logs of the chain, and that all of them are
there for the blocks it says it serves. Which requests fail, how far an answer is served and in how many
pages it comes are open. Then the store mirrors the chain (`rows_mirror_chain`): below the checkpoint
every event has its row with the values it was emitted with, and there are no rows of anything else.
-/
import OrmpIndexer.Datalens.Client
import OrmpIndexer.Decoder.RoundTrip
import OrmpIndexer.Foundation.Together
import OrmpIndexer.Runner.Coverage

namespace OrmpIndexer

open Foundation Foundation.Task

namespace Runner

/-! ## What the client answers the runner -/

section

variable (fromStr : String → Except Error WireQuery) (truthful : List QueryPage → Prop)

/-- An attempt is one run of `query_pages`. Any reply may be a failure; if all are pages, they are
truthful. -/
def Attempted (past : List (Except CallError QueryPage)) (op : Unit) (r : Except CallError QueryPage)
    (past' : List (Except CallError QueryPage)) : Prop :=
  Received past op r past' ∧ ∃ posted replies,
    queryPages fromStr none [] [] replies = (posted, some r) ∧ posted.length = replies.length ∧
      ∀ pages : List QueryPage, replies.map (pageOf fromStr) = pages.map .ok → truthful pages

/-- The pages of an answer as one. -/
def Merged (page : QueryPage) : Prop :=
  ∃ init last, truthful (init ++ [last]) ∧
    page = { last with rows := (init ++ [last]).flatMap (·.rows) }

variable {fromStr truthful} {past past' : List (Except CallError QueryPage)} {page : QueryPage}

theorem merged_of_attempted (h : Attempted fromStr truthful past () (.ok page) past') :
    Merged truthful page := by
  obtain ⟨_, posted, replies, hruns, hused, htruthful⟩ := h
  obtain ⟨init, last, hpages, hlast, -⟩ := queryPages_eq_ok hruns hused
  exact ⟨init, last, htruthful _ hpages, hlast⟩

theorem merged_of_mem_pagesOf {t : Attempts (Except Error QueryPage)}
    {c : List (Except CallError QueryPage) × Attempts (Except Error QueryPage)}
    (h : Reaches (Attempted fromStr truthful) ([], t) c) :
    ∀ page ∈ pagesOf c.1, Merged truthful page := by
  induction h with
  | refl =>
      intro page hpage
      cases hpage
  | tail _ hstep ih =>
      cases hstep with
      | @call s s' _ _ r hserves =>
          intro page hpage
          obtain rfl : s' = r :: s := hserves.1
          cases r with
          | error error => exact ih page hpage
          | ok first =>
              rcases List.mem_cons.mp hpage with rfl | hpage
              · exact merged_of_attempted hserves
              · exact ih page hpage

/-- Whatever the attempts come to, what `post_query` returns is a whole answer to one of them. -/
theorem merged_of_postQuery {maxAttempts : Nat}
    (h : Reaches (Attempted fromStr truthful) ([], postQuery maxAttempts)
      (past, .done (.ok (.ok page)))) :
    Merged truthful page := by
  have hnothing : Kept [] none := ⟨fun _ => rfl, fun _ hpage => by cases hpage⟩
  have hwp : Wp (Attempted fromStr truthful) (fun _ _ => True) Returned (fun _ _ => False)
      (postQuery maxAttempts) [] :=
    Wp.view id (fun _ _ _ _ hserves => hserves.1)
      (wp_postAttempts maxAttempts maxAttempts 1 hnothing fun _ => trivial)
  have hreturned : Returned (.ok page) past := hwp.reaches h
  exact merged_of_mem_pagesOf h page (hreturned.page page rfl).1

end

/-- The logs the client keeps are those of the rows that lie in the window of the answer. -/
theorem mem_queryLogs_iff {page : QueryPage} {query : DatalensLogQuery} {result : DatalensLogQueryResult}
    (h : DatalensHttpClient.queryLogs (.ok page) query = .ok result) {start : Nat}
    (hstart : result.servedStart = some start) {log : DatalensLog} :
    log ∈ result.logs ↔ (∃ row ∈ page.rows, logFromRow row query.chainId = .ok log) ∧
      start ≤ log.blockNumber ∧ log.blockNumber ≤ result.servedEnd.getD start := by
  simp only [DatalensHttpClient.queryLogs, bind_eq_ok] at h
  obtain ⟨_, _, _, hpage, logs, hlogs, h⟩ := h
  cases hpage
  cases h
  dsimp only at hstart ⊢
  rw [logsFromPage, hstart] at hlogs
  obtain ⟨hkept, hall⟩ := mapM_eq_ok hlogs
  constructor
  · intro hlog
    obtain ⟨r, hr, hok⟩ := hkept log hlog
    obtain ⟨hrow, hwindow⟩ := List.mem_filter.mp hr
    obtain rfl : r = .ok log := hok
    obtain ⟨row, hmem, hrow⟩ := List.mem_map.mp hrow
    obtain ⟨hfrom, hto⟩ := Bool.and_eq_true_iff.mp hwindow
    exact ⟨⟨row, hmem, hrow⟩, of_decide_eq_true hfrom, of_decide_eq_true hto⟩
  · rintro ⟨⟨row, hmem, hrow⟩, hfrom, hto⟩
    obtain ⟨log', hlog', hsame⟩ := hall (.ok log) (List.mem_filter.mpr
      ⟨List.mem_map.mpr ⟨row, hmem, hrow⟩,
        Bool.and_eq_true_iff.mpr ⟨decide_eq_true hfrom, decide_eq_true hto⟩⟩)
    obtain rfl := Except.ok.inj hsame
    exact hlog'

/-- What Datalens promises of the pages of an answer, where the chain has these logs. -/
structure Truthful (logsOf : Nat → List DatalensLog) (chainId : Nat) (pages : List QueryPage) :
    Prop where
  /-- Rows are logs of the chain. -/
  sound : ∀ page ∈ pages, ∀ row ∈ page.rows, ∀ log, logFromRow row chainId = .ok log →
    log ∈ logsOf log.blockNumber
  /-- What the last page says is served is in order, and all its logs are in the pages. -/
  complete : ∀ last start stop, pages.getLast? = some last → last.servedStart = some start →
    last.servedEnd = some stop → start ≤ stop ∧ ∀ n, start ≤ n → n ≤ stop → ∀ log ∈ logsOf n,
      ∃ page ∈ pages, ∃ row ∈ page.rows, logFromRow row chainId = .ok log

/-- The runner is answered by the HTTP client, and the client by a Datalens that keeps its promise. -/
def HttpClient (fromStr : String → Except Error WireQuery) (maxAttempts : Nat)
    (logsOf : Nat → List DatalensLog) : Answers Unit
  | _, .queryLogs query, result => ∃ past page,
      Reaches (Attempted fromStr (Truthful logsOf query.chainId)) ([], postQuery maxAttempts)
        (past, .done (.ok (.ok page))) ∧
      DatalensHttpClient.queryLogs (.ok page) query = .ok result
  | _, _, _ => True

/-- All logs of an answer are logs of the chain. -/
def TrueLogs (logsOf : Nat → List DatalensLog) : Answers Unit
  | _, .queryLogs _, result => ∀ log ∈ result.logs, log ∈ logsOf log.blockNumber
  | _, _, _ => True

section

variable {fromStr : String → Except Error WireQuery} {maxAttempts : Nat}
variable {logsOf : Nat → List DatalensLog}

theorem trueLogs_of_httpClient (w : World Unit) (op : Op) (a : Reply op)
    (h : HttpClient fromStr maxAttempts logsOf w op a) : TrueLogs logsOf w op a := by
  cases op with
  | queryLogs query =>
      obtain ⟨past, page, hruns, hresult⟩ := h
      obtain ⟨init, last, truthful, rfl⟩ := merged_of_postQuery hruns
      intro log hlog
      obtain ⟨_, start, hstart, _⟩ := mem_queryLogs hresult hlog
      obtain ⟨⟨row, hrow, hlog⟩, _⟩ := (mem_queryLogs_iff hresult hstart).mp hlog
      obtain ⟨page, hpage, hrow⟩ := List.mem_flatMap.mp hrow
      exact truthful.sound page hpage row hrow log hlog
  | _ => trivial

theorem completeWindows_of_httpClient (hblocks : ∀ n, ∀ log ∈ logsOf n, log.blockNumber = n)
    (w : World Unit) (op : Op) (a : Reply op) (h : HttpClient fromStr maxAttempts logsOf w op a) :
    CompleteWindows logsOf w op a := by
  cases op with
  | queryLogs query =>
      obtain ⟨past, page, hruns, hresult⟩ := h
      obtain ⟨init, last, truthful, rfl⟩ := merged_of_postQuery hruns
      intro start stop hstart hstop
      obtain ⟨hfrom, hto⟩ := window_queryLogs hresult
      obtain ⟨ordered, complete⟩ := truthful.complete last start stop List.getLast?_concat
        (hfrom.symm.trans hstart) (hto.symm.trans hstop)
      refine ⟨ordered, fun n hlo hhi log hlog => ?_⟩
      obtain ⟨page, hpage, row, hrow, hread⟩ := complete n hlo hhi log hlog
      have hblock := hblocks n log hlog
      refine (mem_queryLogs_iff hresult hstart).mpr
        ⟨⟨row, List.mem_flatMap.mpr ⟨page, hpage, hrow⟩, hread⟩, by omega, ?_⟩
      rw [hstop, Option.getD_some]
      omega
  | _ => trivial

end

/-! ## Only what the chain has -/

/-- What was written are events of the chain's logs, and the rows are what was written. -/
structure Shown (ix : Indexer) (logsOf : Nat → List DatalensLog) (w : World Unit) : Prop where
  events : ∀ e ∈ writtenEvents (commits w.past), ∃ log, log ∈ logsOf log.blockNumber ∧
    ∃ es, ix.decoder.decode log = .ok es ∧ e ∈ es
  rows : ∀ k, w.db.eventRow k =
    (lastWhere (fun e => eventKey e == k) (writtenEvents (commits w.past))).map rowOf

section

variable {ix : Indexer} {config : RuntimeConfig} {chain : ChainConfig} {dataset : String}
variable {logsOf : Nat → List DatalensLog} {w w' : World Unit}

theorem Shown.congr (h : Shown ix logsOf w) (hrow : ∀ k, w'.db.eventRow k = w.db.eventRow k)
    (hpast : commits w'.past = commits w.past) : Shown ix logsOf w' where
  events := by
    rw [hpast]
    exact h.events
  rows k := by
    rw [hpast, hrow]
    exact h.rows k

theorem Shown.quiet (h : Shown ix logsOf w) (hw : Extends Call.Quiet w w') : Shown ix logsOf w' :=
  h.congr (fun _ => by rw [hw.db]) (commits_quiet hw)

theorem Shown.commit (h : Shown ix logsOf w) {range : BlockRange} {result : DatalensLogQueryResult}
    {servedEnd : Nat} {events : List LegacyOrmPEvent} {anchors : List BlockAnchor}
    (hc : CommitsAt ix (TrueLogs logsOf) chain dataset range w result servedEnd events anchors w')
    (written : Nat) : Shown ix logsOf (w'.record ix.postgres
      (commitOp chain dataset range servedEnd events anchors) (.ok written)) := by
  have hwritten : writtenEvents (commits (w'.record ix.postgres
      (commitOp chain dataset range servedEnd events anchors) (.ok written)).past) =
      writtenEvents (commits w.past) ++ events := by
    rw [hc.commits_record written]
    simp [writtenEvents, Commit.ofRange]
  refine ⟨fun e he => ?_, fun k => ?_⟩
  · rw [hwritten] at he
    rcases List.mem_append.mp he with he | he
    · exact h.events e he
    · obtain ⟨log, hlog, hdecode⟩ := (mem_of_decodeAll hc.decoded).mp he
      exact ⟨log, hc.answer log hlog, hdecode⟩
  · rw [hwritten, lastWhere_append, Option.map_or, ← h.rows k, ← hc.quiet.db]
    exact ix.postgres.eventRow_writeEvents w'.db events k

theorem keeps_shown (hmode : chain.finalityMode.usesReorgProtection = false) :
    Keeps ix (TrueLogs logsOf) config chain dataset (fun w _ => Shown ix logsOf w)
      (Shown ix logsOf) where
  call h _ := h
  quiet := Shown.quiet
  insert h := ⟨h, h.congr (fun _ => rfl) (List.append_nil _)⟩
  rollback _ mode _ := by
    rw [hmode] at mode
    cases mode
  commit h _ hc := ⟨h.quiet hc.quiet, h.commit hc⟩

end

/-! ## The chain -/

/-- An event that a contract emitted; the log says where. -/
structure Emission where
  event : ContractEvent
  layout : LogLayout
  log : DatalensLog

/-- The event as it is stored. -/
def Emission.Stores (emission : Emission) (e : LegacyOrmPEvent) : Prop :=
  ∃ metadata, evmMetadata emission.log = .ok metadata ∧ e = emission.event.decoded metadata

/-- What the contracts emitted in each block. The codec reads what was encoded, and no two events share a
row id. -/
structure EmittingChain (crates : Crates) (encode : List Token → List UInt8) where
  emissions : Nat → List Emission
  blockNumber : ∀ n, ∀ emission ∈ emissions n, emission.log.blockNumber = n
  abi : ∀ n, ∀ emission ∈ emissions n,
    crates.abiDecode (emission.event.dataTypes emission.layout)
      (encode (emission.event.dataTokens emission.layout)) =
        .ok (emission.event.dataTokens emission.layout)
  apart : ∀ m n, ∀ emission ∈ emissions m, ∀ other ∈ emissions n, ∀ e e', emission.Stores e →
    other.Stores e' → eventKey e = eventKey e' → e = e'

section

variable {crates : Crates} {encode : List Token → List UInt8}

/-- The logs of a block. -/
def EmittingChain.logs (emitting : EmittingChain crates encode) (n : Nat) : List DatalensLog :=
  (emitting.emissions n).map fun emission => emission.event.emit encode emission.layout emission.log

theorem EmittingChain.blockNumber_logs (emitting : EmittingChain crates encode) (n : Nat) :
    ∀ log ∈ emitting.logs n, log.blockNumber = n := by
  intro log hlog
  obtain ⟨emission, hemission, rfl⟩ := List.mem_map.mp hlog
  exact emitting.blockNumber n emission hemission

/-- A log that decodes gives its event back. -/
theorem EmittingChain.decode_eq_ok (documented : Documented crates)
    (emitting : EmittingChain crates encode) {n : Nat} {emission : Emission}
    (h : emission ∈ emitting.emissions n) {events : List LegacyOrmPEvent}
    (hdecode : (EvmEventDecoder crates).decode
      (emission.event.emit encode emission.layout emission.log) = .ok events) :
    ∃ e, emission.Stores e ∧ events = [e] := by
  cases hlog : decodeEvmLog crates (emission.event.emit encode emission.layout emission.log) with
  | error m => simp [EvmEventDecoder, hlog, Except.map] at hdecode
  | ok e =>
      simp only [EvmEventDecoder, hlog, Except.map, Except.ok.injEq] at hdecode
      have hmetadata : ∃ metadata, evmMetadata emission.log = .ok metadata := by
        simp only [decodeEvmLog, bind_eq_ok] at hlog
        obtain ⟨_, _, _, _, metadata, hmetadata, _⟩ := hlog
        exact ⟨metadata, hmetadata⟩
      obtain ⟨metadata, hmetadata⟩ := hmetadata
      rw [decodeEvmLog_emit_eq documented _ _ hmetadata] at hlog
      obtain ⟨_, rfl⟩ := (decoderOf_undoes documented emission.event emission.layout metadata e
        (emitting.abi n emission h)).mp hlog
      exact ⟨_, ⟨metadata, hmetadata, rfl⟩, hdecode.symm⟩

/-- A store that has never seen the chain and has no rows, before the first pass. -/
def Fresh (chain : ChainConfig) (dataset : String) (w : World Unit) : Prop :=
  NotBegun chain dataset w ∧ ∀ k, w.db.eventRow k = none

section

variable {ix : Indexer} {chain : ChainConfig} {dataset : String} {logsOf : Nat → List DatalensLog}
variable {w : World Unit}

theorem Fresh.covered (h : Fresh chain dataset w) : Covered ix chain dataset logsOf w := by
  obtain ⟨⟨hnone, hpast⟩, _⟩ := h
  refine ⟨?_, by simp [hpast, commits], by simp [hpast, commits, writtenEvents]⟩
  rw [CommitsTile, hpast, nextBlock, hnone]
  exact .nil

theorem Fresh.shown (h : Fresh chain dataset w) : Shown ix logsOf w := by
  obtain ⟨⟨_, hpast⟩, hrows⟩ := h
  refine ⟨by simp [hpast, commits, writtenEvents], fun k => ?_⟩
  rw [hpast, hrows k]
  rfl

end

variable {pg : Postgres} {config : RuntimeConfig} {chain : ChainConfig} {dataset : String}
variable {emitting : EmittingChain crates encode} {w : World Unit}

theorem Shown.stores (documented : Documented crates)
    (h : Shown ⟨pg, EvmEventDecoder crates⟩ emitting.logs w) {e : LegacyOrmPEvent}
    (he : e ∈ writtenEvents (commits w.past)) :
    ∃ n, ∃ emission ∈ emitting.emissions n, emission.Stores e := by
  obtain ⟨log, hlog, events, hdecode, he⟩ := h.events e he
  obtain ⟨emission, hemission, hsame⟩ := List.mem_map.mp hlog
  rw [← hsame] at hdecode
  obtain ⟨e', hstores, rfl⟩ := emitting.decode_eq_ok documented hemission hdecode
  rw [List.mem_singleton.mp he]
  exact ⟨_, emission, hemission, hstores⟩

/-- **From the contract to the row.** Whatever requests fail, however far answers are served and in how
many pages they come, and wherever the process stops: every event that was emitted below the checkpoint
has its row, with the values it was emitted with, and every row is the row of an event that was emitted. -/
theorem rows_mirror_chain (documented : Documented crates) {fromStr : String → Except Error WireQuery}
    {maxAttempts : Nat} (hd : chainDataset chain.chainId = .ok dataset)
    (hmode : chain.finalityMode = .finalized ∨ chain.finalityMode = .durable)
    {t : Async ChainRunReport}
    (hr : Reachable (Serves ⟨pg, EvmEventDecoder crates⟩ (HttpClient fromStr maxAttempts emitting.logs))
      (Fresh chain dataset) (fun w w' => w' = w) (runChainOnce config chain) w t) :
    (∀ n, chain.startBlock ≤ n → n < nextBlock chain dataset w.db →
      ∀ emission ∈ emitting.emissions n, ∃ e, emission.Stores e ∧
        w.db.eventRow (eventKey e) = some (rowOf e)) ∧
      ∀ k row, w.db.eventRow k = some row → ∃ n, ∃ emission ∈ emitting.emissions n,
        ∃ e, emission.Stores e ∧ k = eventKey e ∧ row = rowOf e := by
  have mode : chain.finalityMode.usesReorgProtection = false := by
    rcases hmode with h | h <;> rw [h] <;> rfl
  have covered : Covered ⟨pg, EvmEventDecoder crates⟩ chain dataset emitting.logs w := by
    refine ((keeps_covered mode).reachable hd (fun _ _ h => h) (fun _ h => Fresh.covered h)
      (fun _ _ h hw => hw ▸ h) (hr.mono fun w op r w' hs => ⟨fun a ha => ?_, hs.2⟩)).1
    exact ⟨(hs.1 a ha).1,
      completeWindows_of_httpClient emitting.blockNumber_logs w op a (hs.1 a ha).2⟩
  have shown : Shown ⟨pg, EvmEventDecoder crates⟩ emitting.logs w := by
    refine ((keeps_shown mode).reachable hd (fun _ _ h => h) (fun _ h => Fresh.shown h)
      (fun _ _ h hw => hw ▸ h) (hr.mono fun w op r w' hs => ⟨fun a ha => ?_, hs.2⟩)).1
    exact ⟨(hs.1 a ha).1, trueLogs_of_httpClient w op a (hs.1 a ha).2⟩
  refine ⟨fun n hlo hhi emission hemission => ?_, fun k row hrow => ?_⟩
  · obtain ⟨c, hc, hfrom, hto⟩ := covered.tiles.exists_mem hlo hhi
    obtain ⟨events, hdecode, hevents⟩ := covered.complete c hc n hfrom hto _
      (List.mem_map_of_mem hemission)
    obtain ⟨e, hstores, rfl⟩ := emitting.decode_eq_ok documented hemission hdecode
    have hwritten : e ∈ writtenEvents (commits w.past) :=
      List.mem_flatMap.mpr ⟨c, hc, hevents e List.mem_cons_self⟩
    -- what was written under the same id is the same event
    have hlast : lastWhere (fun e' => eventKey e' == eventKey e) (writtenEvents (commits w.past)) =
        some e := by
      refine lastWhere_eq_of_forall hwritten (beq_self_eq_true _) fun other hother hkey => ?_
      obtain ⟨m, emission', hemission', hstores'⟩ := shown.stores documented hother
      exact emitting.apart m n emission' hemission' emission hemission other e hstores' hstores
        (eq_of_beq hkey)
    exact ⟨e, hstores, by rw [shown.rows, hlast]; rfl⟩
  · rw [shown.rows] at hrow
    obtain ⟨e, he, rfl⟩ := Option.map_eq_some_iff.mp hrow
    obtain ⟨n, emission, hemission, hstores⟩ := shown.stores documented (mem_of_lastWhere he)
    have hkey : eventKey e = k := by simpa using holds_of_lastWhere he
    exact ⟨n, emission, hemission, e, hstores, hkey.symm, rfl⟩

end

/-! ### One event in block 5 -/

/-- `ethabi` for a flag. -/
def decodeDispatched : List ParamType → List UInt8 → Except Error (List Token)
  | [.bool], data => .ok [.bool (ofBigEndian (data.take 32) == 1)]
  | _, _ => .error ["not a flag"]

def encodeDispatched : List Token → List UInt8
  | [.bool flag] => bigEndian 32 flag.toNat
  | _ => []

def dispatchedCrates : Crates := { wordCrates with abiDecode := decodeDispatched }

/-- A message was dispatched. -/
def emittedFive : Emission where
  event := .messageDispatched ⟨List.replicate 32 0x5a, List.length_replicate⟩ true
  layout := .indexedInTopics
  log := { importedHashLog with id := some (logId 46 5 "0x01" 0), blockNumber := 5 }

theorem eq_emittedFive {n : Nat} {emission : Emission}
    (h : emission ∈ if n = 5 then [emittedFive] else []) : n = 5 ∧ emission = emittedFive := by
  split at h
  · exact ⟨‹_›, List.mem_singleton.mp h⟩
  · cases h

def emittingFive : EmittingChain dispatchedCrates encodeDispatched where
  emissions n := if n = 5 then [emittedFive] else []
  blockNumber n emission h := by
    obtain ⟨rfl, rfl⟩ := eq_emittedFive h
    rfl
  abi n emission h := by
    obtain ⟨rfl, rfl⟩ := eq_emittedFive h
    rfl
  apart m n emission h other h' e e' hstores hstores' _ := by
    obtain ⟨rfl, rfl⟩ := eq_emittedFive h
    obtain ⟨rfl, rfl⟩ := eq_emittedFive h'
    obtain ⟨metadata, hmetadata, rfl⟩ := hstores
    obtain ⟨metadata', hmetadata', rfl⟩ := hstores'
    rw [Except.ok.inj (hmetadata.symm.trans hmetadata')]

/-- Its log. -/
def loggedFive : DatalensLog :=
  emittedFive.event.emit encodeDispatched emittedFive.layout emittedFive.log

theorem logs_emittingFive (n : Nat) : emittingFive.logs n = if n = 5 then [loggedFive] else [] := by
  rw [EmittingChain.logs, emittingFive]
  dsimp only
  split <;> rfl

/-- The log as a row of an answer. -/
def rowFive : Value where
  asLog := .ok {
    blockNumber := 5
    blockHash := "0xaa"
    blockTimestamp := some 1700000000
    transactionHash := "0x01"
    transactionIndex := 0
    logIndex := 0
    address := ORMP_ADDRESS
    topics := loggedFive.topics
    data := loggedFive.data
    transactionFrom := none }
  asBlock := .error []

theorem logFromRow_rowFive : logFromRow rowFive 46 = .ok loggedFive := rfl

/-- An answer in two pages, the second of which has the row. -/
def fromFive (body : String) : Except Error WireQuery :=
  if body = "1" then .ok ⟨some ⟨5, 5⟩, none, [], some "cursor-1"⟩
  else .ok ⟨some ⟨5, 5⟩, none, [rowFive], none⟩

def mergedFive : QueryPage := ⟨some 5, some 5, none, none, [rowFive]⟩

def repliesFive : List HttpReply := [.answered 200 "200 OK" "1", .answered 200 "200 OK" "2"]

theorem pageOf_first : pageOf fromFive (.answered 200 "200 OK" "1") =
    .ok ⟨some 5, some 5, none, some "cursor-1", []⟩ := by
  have hread : fromFive "1" = .ok ⟨some ⟨5, 5⟩, none, [], some "cursor-1"⟩ := if_pos rfl
  exact pageOf_answered hread

theorem pageOf_second : pageOf fromFive (.answered 200 "200 OK" "2") = .ok mergedFive := by
  have hread : fromFive "2" = .ok ⟨some ⟨5, 5⟩, none, [rowFive], none⟩ := if_neg (by decide)
  exact pageOf_answered hread

theorem queryPages_repliesFive : queryPages fromFive none [] [] repliesFive =
    ([none, some "cursor-1"], some (.ok mergedFive)) :=
  queryPages_two pageOf_first rfl pageOf_second rfl

/-- The two pages have the log of the one block they are served for. -/
theorem truthful_repliesFive {pages : List QueryPage}
    (h : repliesFive.map (pageOf fromFive) = pages.map .ok) : Truthful emittingFive.logs 46 pages := by
  have hread : repliesFive.map (pageOf fromFive) =
      [⟨some 5, some 5, none, some "cursor-1", []⟩, mergedFive].map .ok := by
    rw [repliesFive, List.map_cons, List.map_singleton, pageOf_first, pageOf_second]
    rfl
  obtain rfl := List.map_injective_iff.mpr (fun _ _ hsame => Except.ok.inj hsame) (hread.symm.trans h)
  refine ⟨fun page hpage row hrow log hlog => ?_, fun last start stop hlast hstart hstop => ?_⟩
  · rcases List.mem_pair.mp hpage with rfl | rfl
    · cases hrow
    · rw [List.mem_singleton.mp hrow, logFromRow_rowFive] at hlog
      obtain rfl := Except.ok.inj hlog
      rw [logs_emittingFive]
      exact List.mem_singleton_self _
  · obtain rfl : mergedFive = last := Option.some.inj hlast
    obtain rfl : 5 = start := Option.some.inj hstart
    obtain rfl : 5 = stop := Option.some.inj hstop
    refine ⟨Nat.le_refl 5, fun n _ _ log hlog => ?_⟩
    rw [logs_emittingFive] at hlog
    split at hlog
    · rw [List.mem_singleton.mp hlog]
      exact ⟨mergedFive, List.mem_cons_of_mem _ List.mem_cons_self, rowFive, List.mem_cons_self,
        logFromRow_rowFive⟩
    · cases hlog

/-- A request that is not sent. -/
def notSent : CallError :=
  let operation := "Datalens query"
  let error := "timeout"
  .again s!"{operation} send failed: {error}"

theorem attempted_answers (past : List (Except CallError QueryPage)) (op : Unit) :
    Attempted fromFive (Truthful emittingFive.logs 46) past op
      (answers (.error notSent) (.ok mergedFive) past op).1
      (answers (.error notSent) (.ok mergedFive) past op).2 := by
  refine ⟨rfl, ?_⟩
  cases past with
  | nil =>
      refine ⟨[none], [.sendFailed "timeout"], rfl, rfl, fun pages hpages => ?_⟩
      cases pages with
      | nil => cases hpages
      | cons page pages => cases hpages
  | cons r past =>
      exact ⟨_, repliesFive, queryPages_repliesFive, rfl, fun _ => truthful_repliesFive⟩

/-- The head is block 5. A request for the logs is answered at the second attempt. -/
def servesFive : World Unit → (op : Op) → Except Error (Reply op)
  | _, .latestBlock .. => .ok 5
  | _, .queryLogs query =>
      if query.chainId = 46 then DatalensHttpClient.queryLogs (.ok mergedFive) query else .error []
  | _, _ => .error []

def indexFive : Indexer := ⟨Postgres.legacyStore, EvmEventDecoder dispatchedCrates⟩

theorem httpClient_servesFive (w : World Unit) (op : Op) (a : Reply op)
    (h : reply indexFive servesFive w op = .ok a) : HttpClient fromFive 2 emittingFive.logs w op a := by
  cases op with
  | queryLogs query =>
      change (if query.chainId = 46 then DatalensHttpClient.queryLogs (.ok mergedFive) query
        else .error []) = Except.ok a at h
      split at h
      · rename_i hchain
        have hruns := reaches_eval attempted_answers (postQuery 2) []
        rw [← hchain] at hruns
        exact ⟨_, mergedFive, hruns, h⟩
      · cases h
  | _ => trivial

/-- After one pass. -/
def mirroredFive : World Unit :=
  evalPasses (simulate indexFive servesFive) id (runChainOnce ⟨⟨0⟩, [], 0⟩ (darwinia 5 3 .finalized)) 1
    ⟨.empty, [], ()⟩

/-- The event has come through a failed request and an answer in two pages, and is stored. -/
theorem rows_mirror_chain_mirroredFive :
    nextBlock (darwinia 5 3 .finalized) EVM_LOGS_DATASET mirroredFive.db = 6 ∧
      ∃ e, emittedFive.Stores e ∧ mirroredFive.db.eventRow (eventKey e) = some (rowOf e) := by
  have next : nextBlock (darwinia 5 3 .finalized) EVM_LOGS_DATASET mirroredFive.db = 6 := by
    decide +kernel
  have reachable : Reachable (Serves indexFive (HttpClient fromFive 2 emittingFive.logs))
      (Fresh (darwinia 5 3 .finalized) EVM_LOGS_DATASET) (fun w w' => w' = w)
      (runChainOnce ⟨⟨0⟩, [], 0⟩ (darwinia 5 3 .finalized)) mirroredFive
      (runChainOnce ⟨⟨0⟩, [], 0⟩ (darwinia 5 3 .finalized)) := by
    refine reachable_evalPasses (serves_simulate httpClient_servesFive) (fun _ => ?_)
      ⟨⟨Table.get_empty _, rfl⟩, eventRow_empty⟩ 1
    rfl
  obtain ⟨stored, _⟩ := rows_mirror_chain (documented_withAbi documented_wordCrates decodeDispatched) rfl
    (.inl rfl) reachable
  exact ⟨next, stored 5 (by decide) (by rw [next]; decide) emittedFive List.mem_cons_self⟩

end Runner

end OrmpIndexer
