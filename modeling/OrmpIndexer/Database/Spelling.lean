/-
# OrmpIndexer.Database.Spelling — one log in two spellings

A server may spell a hash with upper-case or lower-case digits, with `0x`, `0X` or no prefix. The decoder
normalises what it reads (`normalizeHex_congr`, `decodeHex_congr`), and so does the id of block, hash prefix
and log index (`blockHashPrefix_congr`). The id that the client gives a log does not: it has the transaction
hash as the row spells it, and an assignment is filed under that id.
-/
import OrmpIndexer.Database.Rows
import OrmpIndexer.Decoder.RoundTrip

namespace OrmpIndexer

open Foundation

/-! ## Texts -/

@[simp]
theorem isWhitespace_lowerDigit (c : Char) : isWhitespace (lowerDigit c) = isWhitespace c :=
  apply_lowerDigit (by decide) c

theorem trim_map_lowerDigit (s : List Char) : trim (s.map lowerDigit) = (trim s).map lowerDigit := by
  have hspace : isWhitespace ∘ lowerDigit = isWhitespace := funext isWhitespace_lowerDigit
  rw [trim, trim, List.dropWhile_map, ← List.map_reverse, List.dropWhile_map, List.map_reverse, hspace]

theorem eq_cons_of_map_lowerDigit {s rest : List Char} {x : Char} (hx : x ∈ ['0', 'x', 'X'])
    (h : s.map lowerDigit = '0' :: x :: rest) : ∃ s', s = '0' :: x :: s' := by
  obtain ⟨c, s, rfl, hc, h⟩ := List.map_eq_cons_iff.mp h
  obtain ⟨d, s, rfl, hd, _⟩ := List.map_eq_cons_iff.mp h
  obtain rfl := (lowerDigit_eq_iff (by decide)).mp hc
  obtain rfl := (lowerDigit_eq_iff hx).mp hd
  exact ⟨s, rfl⟩

/-- Folding the case of the digits leaves a prefix where it is. -/
theorem stripHexPrefix_map_lowerDigit (s : List Char) :
    stripHexPrefix (s.map lowerDigit) = (stripHexPrefix s).map lowerDigit := by
  rw [stripHexPrefix.eq_def s]
  split
  · rfl
  · rfl
  · rename_i hx hX
    -- folding does not make a prefix of what is none
    unfold stripHexPrefix
    split
    · rename_i rest h
      obtain ⟨s, rfl⟩ := eq_cons_of_map_lowerDigit (by decide) h
      exact absurd rfl (hx s)
    · rename_i rest h
      obtain ⟨s, rfl⟩ := eq_cons_of_map_lowerDigit (by decide) h
      exact absurd rfl (hX s)
    · rfl

theorem bytePrefix_map_lowerDigit (n : Nat) (s : List Char) :
    bytePrefix n (s.map lowerDigit) = (bytePrefix n s).map (List.map lowerDigit) := by
  induction n, s using bytePrefix.induct with
  | case1 s => rw [bytePrefix, bytePrefix]; rfl
  | case2 n => rfl
  | case3 n c s h ih =>
      rw [List.map_cons, bytePrefix, bytePrefix, utf8Size_lowerDigit, if_pos h, if_pos h, ih]
      simp only [Option.map_map]
      rfl
  | case4 n c s h =>
      rw [List.map_cons, bytePrefix, bytePrefix, utf8Size_lowerDigit, if_neg h, if_neg h]
      rfl

theorem utf8Length_map_lowerDigit (s : List Char) : utf8Length (s.map lowerDigit) = utf8Length s := by
  rw [utf8Length, utf8Length, List.map_map, funext (f := _ ∘ _) utf8Size_lowerDigit]

/-- The same hex text: digits of another case, or another prefix before the digits. -/
def SameHex (s t : String) : Prop :=
  SameDigits s.toList t.toList ∨
    (stripHexPrefix s.toList).all Char.isHexDigit = true ∧
      SameDigits (stripHexPrefix s.toList) (stripHexPrefix t.toList)

theorem SameHex.strip {s t : String} (h : SameHex s t) :
    SameDigits (stripHexPrefix s.toList) (stripHexPrefix t.toList) := by
  rcases h with h | ⟨_, h⟩
  · rw [SameDigits, ← stripHexPrefix_map_lowerDigit, ← stripHexPrefix_map_lowerDigit, h]
  · exact h

/-- Hex texts have nothing to trim. -/
theorem trim_of_isHexDigit {s : List Char} (h : (stripHexPrefix s).all Char.isHexDigit = true) :
    trim s = s := by
  have hdigit : ∀ c : Char, c.isHexDigit = true → isWhitespace c = false := fun c =>
    forall_isHexDigit (P := fun c => isWhitespace c = false) (by decide)
  have hdigits : ∀ c ∈ stripHexPrefix s, isWhitespace c = false := fun c hc =>
    hdigit c (List.all_eq_true.mp h c hc)
  refine trim_eq_self fun c hc => ?_
  unfold stripHexPrefix at hdigits
  split at hdigits
  · rcases List.mem_cons.mp hc with rfl | hc
    · rfl
    rcases List.mem_cons.mp hc with rfl | hc
    · rfl
    · exact hdigits c hc
  · rcases List.mem_cons.mp hc with rfl | hc
    · rfl
    rcases List.mem_cons.mp hc with rfl | hc
    · rfl
    · exact hdigits c hc
  · exact hdigits c hc

/-- The digits that are read are the same. -/
theorem SameHex.digits {s t : String} (h : SameHex s t) :
    SameDigits (stripHexPrefix (trim s.toList)) (stripHexPrefix (trim t.toList)) := by
  rcases h with h | ⟨hs, h⟩
  · rw [SameDigits, ← stripHexPrefix_map_lowerDigit, ← stripHexPrefix_map_lowerDigit,
      ← trim_map_lowerDigit, ← trim_map_lowerDigit, h]
  · rw [trim_of_isHexDigit hs, trim_of_isHexDigit (h.all_isHexDigit ▸ hs)]
    exact h

theorem normalizeHex_congr {s t : String} (h : SameHex s t) : normalizeHex s = normalizeHex t := by
  have hlower : toAsciiLowercase (String.ofList (stripHexPrefix (trim s.toList))) =
      toAsciiLowercase (String.ofList (stripHexPrefix (trim t.toList))) := by
    rw [toAsciiLowercase, toAsciiLowercase, String.toList_ofList, String.toList_ofList,
      h.digits.map_toLower]
  simp only [normalizeHex, h.digits.all_isHexDigit, hlower]

theorem blockHashPrefix_congr {s t : String} (h : SameHex s t) :
    blockHashPrefix s = blockHashPrefix t := by
  have hsame := h.strip
  have hlength : utf8Length (stripHexPrefix s.toList) = utf8Length (stripHexPrefix t.toList) := by
    rw [← utf8Length_map_lowerDigit, hsame, utf8Length_map_lowerDigit]
  have hkept : SameDigits
      ((bytePrefix (min (utf8Length (stripHexPrefix s.toList)) 5)
        (stripHexPrefix s.toList)).getD (stripHexPrefix s.toList))
      ((bytePrefix (min (utf8Length (stripHexPrefix t.toList)) 5)
        (stripHexPrefix t.toList)).getD (stripHexPrefix t.toList)) := by
    have hprefix := congrArg (bytePrefix (min (utf8Length (stripHexPrefix t.toList)) 5)) hsame
    rw [bytePrefix_map_lowerDigit, bytePrefix_map_lowerDigit] at hprefix
    rw [SameDigits, hlength, ← Option.getD_map (List.map lowerDigit), hprefix, hsame, Option.getD_map]
  simp only [blockHashPrefix, toAsciiLowercase, String.toList_ofList, hkept.map_toLower]

/-! ## Decoders -/

/-- Where the first decoder succeeds, so does the second, with a related event. -/
def Follows (R : LegacyOrmPEvent → LegacyOrmPEvent → Prop) (x y : Except Error LegacyOrmPEvent) :
    Prop :=
  ∀ e, x = .ok e → ∃ e', y = .ok e' ∧ R e e'

/-- The same for decoders that still read the same tokens. -/
def Tokens.Follows (R : LegacyOrmPEvent → LegacyOrmPEvent → Prop) (x y : Tokens LegacyOrmPEvent) :
    Prop :=
  ∀ tokens, OrmpIndexer.Follows R (x.run' tokens) (y.run' tokens)

section

variable {R : LegacyOrmPEvent → LegacyOrmPEvent → Prop}

/-- The first part may yield another value, if the rest follows from it. -/
theorem Follows.bind_of {α β : Type} {r : Except Error α} {r' : Except Error β}
    {f : α → Except Error LegacyOrmPEvent} {g : β → Except Error LegacyOrmPEvent}
    (h : ∀ a, r = .ok a → ∃ b, r' = .ok b ∧ Follows R (f a) (g b)) :
    Follows R (r >>= f) (r' >>= g) := fun e he => by
  obtain ⟨a, ha, he⟩ := bind_eq_ok.mp he
  obtain ⟨b, hb, hfollows⟩ := h a ha
  obtain ⟨e', he', hR⟩ := hfollows e he
  exact ⟨e', bind_eq_ok.mpr ⟨b, hb, he'⟩, hR⟩

theorem Follows.bind {α : Type} {r : Except Error α} {f g : α → Except Error LegacyOrmPEvent}
    (h : ∀ a, Follows R (f a) (g a)) : Follows R (r >>= f) (r >>= g) :=
  .bind_of fun a ha => ⟨a, ha, h a⟩

theorem Follows.ite {p : Prop} [Decidable p] {x x' y y' : Except Error LegacyOrmPEvent}
    (h : p → Follows R x y) (h' : ¬p → Follows R x' y') :
    Follows R (if p then x else x') (if p then y else y') := by
  split
  · exact h ‹_›
  · exact h' ‹_›

theorem Follows.imp {R' : LegacyOrmPEvent → LegacyOrmPEvent → Prop}
    {x y : Except Error LegacyOrmPEvent} (h : Follows R x y) (himp : ∀ e e', R e e' → R' e e') :
    Follows R' x y := fun e he => by
  obtain ⟨e', he', hR⟩ := h e he
  exact ⟨e', he', himp e e' hR⟩

theorem Tokens.Follows.bind {α : Type} {x : Tokens α} {f g : α → Tokens LegacyOrmPEvent}
    (h : ∀ a, (f a).Follows R (g a)) : (x >>= f).Follows R (x >>= g) := fun tokens e he => by
  simp only [StateT.run', StateT.bind, Bind.bind] at he ⊢
  cases hx : x tokens with
  | error m => simp [hx, Except.bind, Functor.map, Except.map] at he
  | ok p =>
      simp only [hx, Except.bind] at he ⊢
      exact h p.1 p.2 e he

theorem Tokens.Follows.pure {e e' : LegacyOrmPEvent} (h : R e e') :
    Tokens.Follows R (Pure.pure e) (Pure.pure e') := fun tokens _ he => by
  cases he
  exact ⟨e', rfl, h⟩

end

/-- The metadata of the same log with another id and another spelling of the block hash. -/
def ChainLogMetadata.respelled (metadata : ChainLogMetadata) (id : String)
    (blockHash : Option String) : ChainLogMetadata :=
  { metadata with id, blockHash }

/-- The event of the same log with such metadata. -/
def LegacyOrmPEvent.respelled (id : String) (blockHash : Option String) :
    LegacyOrmPEvent → LegacyOrmPEvent
  | hashImported e => hashImported { e with metadata := e.metadata.respelled id blockHash }
  | messageAccepted e => messageAccepted { e with metadata := e.metadata.respelled id blockHash }
  | messageAssigned e => messageAssigned { e with metadata := e.metadata.respelled id blockHash }
  | messageDispatched e => messageDispatched { e with metadata := e.metadata.respelled id blockHash }
  | msgportMessageRecv e => msgportMessageRecv { e with metadata := e.metadata.respelled id blockHash }
  | msgportMessageSent e => msgportMessageSent { e with metadata := e.metadata.respelled id blockHash }
  | signatureSubmittion e =>
      signatureSubmittion { e with metadata := e.metadata.respelled id blockHash }

/-- The same topics, however they are spelled. -/
def SameTopics (topics topics' : List String) : Prop :=
  topics.map normalizeHex = topics'.map normalizeHex

section

variable {topics topics' : List String}

theorem sameTopics_of_forall₂ (h : List.Forall₂ SameHex topics topics') : SameTopics topics topics' := by
  induction h with
  | nil => rfl
  | cons h _ ih => exact congrArg₂ List.cons (normalizeHex_congr h) ih

theorem SameTopics.length_eq (h : SameTopics topics topics') : topics.length = topics'.length := by
  simpa using congrArg List.length h

theorem SameTopics.getElem? (h : SameTopics topics topics') (index : Nat) :
    topics[index]?.map normalizeHex = topics'[index]?.map normalizeHex := by
  rw [← List.getElem?_map, ← List.getElem?_map, h]

/-- A reader of a topic normalises it first. -/
theorem SameTopics.bind_congr (h : SameTopics topics topics') {α : Type} (index : Nat)
    (message : String) (f : String → Except Error α) :
    (do f (← normalizeHex (← contextOption message topics[index]?))) =
      (do f (← normalizeHex (← contextOption message topics'[index]?))) := by
  have hindex := h.getElem? index
  cases ht : topics[index]? with
  | none =>
      rw [ht] at hindex
      rw [Option.map_eq_none_iff.mp hindex.symm]
  | some topic =>
      rw [ht] at hindex
      obtain ⟨topic', ht', hsame⟩ := Option.map_eq_some_iff.mp hindex.symm
      rw [ht']
      exact congrArg (· >>= f) hsame.symm

/-- The readers of topics do not see the spelling. -/
theorem topicFixedBytes_congr (h : SameTopics topics topics') (index : Nat) (name : String) :
    topicFixedBytes topics index name = topicFixedBytes topics' index name :=
  h.bind_congr index _ _

theorem topicAddress_congr (h : SameTopics topics topics') (index : Nat) (name : String) :
    topicAddress topics index name = topicAddress topics' index name :=
  h.bind_congr index _ _

theorem topicUint_congr (crates : Crates) (h : SameTopics topics topics') (index : Nat)
    (name : String) : topicUint crates topics index name = topicUint crates topics' index name :=
  h.bind_congr index _ _

variable (crates : Crates) (metadata : ChainLogMetadata) (id : String) (blockHash : Option String)
  (data : List UInt8)

/-- The second event is the first one respelled, and an assignment or not. -/
def Respells (assigned : Prop) (e e' : LegacyOrmPEvent) : Prop :=
  e' = e.respelled id blockHash ∧ (IsMessageAssigned e ↔ assigned)

/-- Nor do the decoders: one lemma for each. -/
theorem decodeHashImported_respelled (h : SameTopics topics topics') :
    Follows (Respells id blockHash False) (decodeHashImported crates metadata topics data)
      (decodeHashImported crates (metadata.respelled id blockHash) topics' data) := by
  unfold decodeHashImported
  rw [h.length_eq]
  simp only [topicAddress_congr h]
  split
  all_goals
    refine Follows.bind fun tokens => Tokens.Follows.bind (fun _ => ?_) tokens
    repeat refine Tokens.Follows.bind fun _ => ?_
    exact Tokens.Follows.pure ⟨rfl, by simp [IsMessageAssigned]⟩

theorem messageFields_respelled (msgHash : Except Error String) (message : Token) :
    Follows (Respells id blockHash False) (messageFields crates metadata msgHash message)
      (messageFields crates (metadata.respelled id blockHash) msgHash message) := by
  unfold messageFields
  split
  · refine Follows.bind fun _ => Tokens.Follows.bind (fun _ => ?_) _
    repeat refine Tokens.Follows.bind fun _ => ?_
    exact Tokens.Follows.pure ⟨rfl, by simp [IsMessageAssigned]⟩
  · intro e he
    cases he

theorem decodeMessageAccepted_respelled (h : SameTopics topics topics') :
    Follows (Respells id blockHash False) (decodeMessageAccepted crates metadata topics data)
      (decodeMessageAccepted crates (metadata.respelled id blockHash) topics' data) := by
  unfold decodeMessageAccepted
  rw [h.length_eq, topicFixedBytes_congr h]
  split
  · exact Follows.bind fun _ => Follows.bind fun _ => messageFields_respelled crates _ _ _ _ _
  · exact Follows.bind fun _ => Follows.bind fun _ => Follows.bind fun _ => Follows.bind fun _ =>
      messageFields_respelled crates _ _ _ _ _

theorem decodeMessageAssigned_respelled (h : SameTopics topics topics') :
    Follows (Respells id blockHash True) (decodeMessageAssigned crates metadata topics data)
      (decodeMessageAssigned crates (metadata.respelled id blockHash) topics' data) := by
  unfold decodeMessageAssigned
  rw [h.length_eq]
  simp only [topicFixedBytes_congr h, topicAddress_congr h]
  split
  all_goals
    refine Follows.bind fun tokens => Tokens.Follows.bind (fun _ => ?_) tokens
    repeat refine Tokens.Follows.bind fun _ => ?_
    exact Tokens.Follows.pure ⟨rfl, by simp [IsMessageAssigned]⟩

theorem decodeMessageDispatched_respelled (h : SameTopics topics topics') :
    Follows (Respells id blockHash False) (decodeMessageDispatched crates metadata topics data)
      (decodeMessageDispatched crates (metadata.respelled id blockHash) topics' data) := by
  unfold decodeMessageDispatched
  rw [h.length_eq]
  simp only [topicFixedBytes_congr h]
  split
  all_goals
    refine Follows.bind fun tokens => Tokens.Follows.bind (fun _ => ?_) tokens
    repeat refine Tokens.Follows.bind fun _ => ?_
    exact Tokens.Follows.pure ⟨rfl, by simp [IsMessageAssigned]⟩

theorem decodeMsgportMessageRecv_respelled (h : SameTopics topics topics') :
    Follows (Respells id blockHash False) (decodeMsgportMessageRecv crates metadata topics data)
      (decodeMsgportMessageRecv crates (metadata.respelled id blockHash) topics' data) := by
  unfold decodeMsgportMessageRecv
  rw [h.length_eq]
  simp only [topicFixedBytes_congr h]
  split
  all_goals
    refine Follows.bind fun tokens => Tokens.Follows.bind (fun _ => ?_) tokens
    repeat refine Tokens.Follows.bind fun _ => ?_
    exact Tokens.Follows.pure ⟨rfl, by simp [IsMessageAssigned]⟩

theorem decodeMsgportMessageSent_respelled (h : SameTopics topics topics') :
    Follows (Respells id blockHash False) (decodeMsgportMessageSent crates metadata topics data)
      (decodeMsgportMessageSent crates (metadata.respelled id blockHash) topics' data) := by
  unfold decodeMsgportMessageSent
  rw [h.length_eq]
  simp only [topicFixedBytes_congr h]
  split
  all_goals
    refine Follows.bind fun tokens => Tokens.Follows.bind (fun _ => ?_) tokens
    repeat refine Tokens.Follows.bind fun _ => ?_
    exact Tokens.Follows.pure ⟨rfl, by simp [IsMessageAssigned]⟩

theorem decodeSignatureSubmittion_respelled (h : SameTopics topics topics') :
    Follows (Respells id blockHash False) (decodeSignatureSubmittion crates metadata topics data)
      (decodeSignatureSubmittion crates (metadata.respelled id blockHash) topics' data) := by
  unfold decodeSignatureSubmittion
  rw [h.length_eq]
  simp only [topicUint_congr crates h, topicAddress_congr h]
  split
  all_goals
    refine Follows.bind fun tokens => Tokens.Follows.bind (fun _ => ?_) tokens
    repeat refine Tokens.Follows.bind fun _ => ?_
    exact Tokens.Follows.pure ⟨rfl, by simp [IsMessageAssigned]⟩

end

/-! ## Logs -/

/-- `hex::decode` reads digits of either case. -/
def ReadsBothCases (crates : Crates) : Prop :=
  ∀ s t bytes, SameDigits s t → crates.hexDecode (String.ofList s) = .ok bytes →
    crates.hexDecode (String.ofList t) = .ok bytes

theorem decodeHex_congr {crates : Crates} (hcrates : ReadsBothCases crates) {s t : String}
    {bytes : List UInt8} (h : SameHex s t) (hs : decodeHex crates s = .ok bytes) :
    decodeHex crates t = .ok bytes :=
  hcrates _ _ _ h.digits hs

/-- Two rows that differ in the spelling of their hex texts only. -/
structure SameLog (row row' : WireLog) : Prop where
  blockNumber : row'.blockNumber = row.blockNumber
  blockTimestamp : row'.blockTimestamp = row.blockTimestamp
  transactionIndex : row'.transactionIndex = row.transactionIndex
  logIndex : row'.logIndex = row.logIndex
  blockHash : SameHex row.blockHash row'.blockHash
  transactionHash : SameHex row.transactionHash row'.transactionHash
  address : SameHex row.address row'.address
  transactionFrom : Option.Rel SameHex row.transactionFrom row'.transactionFrom
  topics : List.Forall₂ SameHex row.topics row'.topics
  data : SameHex row.data row'.data

/-- `log_from_row`, then `decode_evm_log`. -/
def decodeRow (crates : Crates) (chainId : Nat) (row : Value) : Except Error LegacyOrmPEvent := do
  decodeEvmLog crates (← logFromRow row chainId)

/-- The first topic chooses the decoder. -/
theorem SameTopics.head {topics topics' : List String} (h : SameTopics topics topics') :
    topics.head?.mapM normalizeHex = topics'.head?.mapM normalizeHex := by
  have hhead := congrArg List.head? h
  rw [List.head?_map, List.head?_map] at hhead
  cases ht : topics.head? with
  | none =>
      rw [ht] at hhead
      rw [Option.map_eq_none_iff.mp hhead.symm]
  | some topic =>
      rw [ht] at hhead
      obtain ⟨topic', ht', hsame⟩ := Option.map_eq_some_iff.mp hhead.symm
      rw [ht']
      exact congrArg (· >>= fun t => .ok (some t)) hsame.symm

theorem mapM_normalizeHex_congr {o o' : Option String} (h : Option.Rel SameHex o o') :
    o.mapM normalizeHex = o'.mapM normalizeHex := by
  cases h with
  | none => rfl
  | some h => exact congrArg (· >>= fun t => .ok (some t)) (normalizeHex_congr h)

/-- The log's topic names the event of an assignment. -/
def AssignedTopic (topics : List String) : Prop :=
  topics.head?.mapM normalizeHex = .ok (some ORMP_MESSAGE_ASSIGNED_TOPIC)

/-- The same log, as the client hands it to the decoder. -/
structure SameDecoded (log log' : DatalensLog) : Prop where
  chainId : log'.chainId = log.chainId
  blockNumber : log'.blockNumber = log.blockNumber
  blockTimestamp : log'.blockTimestamp = log.blockTimestamp
  transactionIndex : log'.transactionIndex = log.transactionIndex
  logIndex : log'.logIndex = log.logIndex
  transactionHash : SameHex log.transactionHash log'.transactionHash
  address : SameHex log.address log'.address
  transactionFrom : Option.Rel SameHex log.transactionFrom log'.transactionFrom
  topics : SameTopics log.topics log'.topics
  data : SameHex log.data log'.data

section

variable {log log' : DatalensLog} {id : String}

theorem evmMetadata_respelled (h : SameDecoded log log') (hid : log'.id = some id)
    {metadata : ChainLogMetadata} (hmetadata : evmMetadata log = .ok metadata) :
    evmMetadata log' = .ok (metadata.respelled id log'.blockHash) := by
  simp only [evmMetadata, bind_eq_ok] at hmetadata ⊢
  obtain ⟨seconds, hseconds, timestamp, htimestamp, _, _, hash, hhash, index, hindex, logIndex,
    hlogIndex, contract, hcontract, sender, hsender, ⟨⟩⟩ := hmetadata
  rw [normalizeHex_congr h.transactionHash] at hhash
  rw [normalizeHex_congr h.address] at hcontract
  rw [mapM_normalizeHex_congr h.transactionFrom] at hsender
  rw [h.blockTimestamp, h.transactionIndex, h.logIndex, h.chainId, h.blockNumber, hid]
  exact ⟨seconds, hseconds, timestamp, htimestamp, id, rfl, hash, hhash, index, hindex, logIndex,
    hlogIndex, contract, hcontract, sender, hsender, rfl⟩

theorem decodeEvmLog_respelled {crates : Crates} (hcrates : ReadsBothCases crates)
    (h : SameDecoded log log') (hid : log'.id = some id) :
    Follows (Respells id log'.blockHash (AssignedTopic log.topics)) (decodeEvmLog crates log)
      (decodeEvmLog crates log') := by
  unfold decodeEvmLog
  refine Follows.bind_of fun topic htopic => ⟨topic, h.topics.head ▸ htopic, ?_⟩
  refine Follows.bind_of fun topic0 htopic0 => ⟨topic0, htopic0, ?_⟩
  refine Follows.bind_of fun metadata hmetadata => ⟨_, evmMetadata_respelled h hid hmetadata, ?_⟩
  refine Follows.bind_of fun data hdata => ⟨data, context_eq_ok.mpr
    (decodeHex_congr hcrates h.data (context_eq_ok.mp hdata)), ?_⟩
  obtain rfl : topic = some topic0 := contextOption_eq_ok.mp htopic0
  have hassigned : AssignedTopic log.topics ↔ topic0 = ORMP_MESSAGE_ASSIGNED_TOPIC := by
    rw [AssignedTopic, htopic]
    exact ⟨fun h => Option.some.inj (Except.ok.inj h), fun h => by rw [h]⟩
  -- any other event than the assignment
  have hother : topic0 ≠ ORMP_MESSAGE_ASSIGNED_TOPIC → ∀ e e',
      Respells id log'.blockHash False e e' →
        Respells id log'.blockHash (AssignedTopic log.topics) e e' :=
    fun hne e e' h => ⟨h.1, h.2.trans (iff_of_false (fun h => h) (hne ∘ hassigned.mp))⟩
  refine Follows.ite (fun heq => ?_) fun _ => ?_
  · exact (decodeHashImported_respelled crates _ id _ _ h.topics).imp
      (hother (heq ▸ by decide +kernel))
  refine Follows.ite (fun heq => ?_) fun _ => ?_
  · exact (decodeMessageAccepted_respelled crates _ id _ _ h.topics).imp
      (hother (heq ▸ by decide +kernel))
  refine Follows.ite (fun heq => ?_) fun hne => ?_
  · exact (decodeMessageAssigned_respelled crates _ id _ _ h.topics).imp
      fun e e' h => ⟨h.1, h.2.trans (iff_of_true trivial (hassigned.mpr heq))⟩
  refine Follows.ite (fun _ => ?_) fun _ => ?_
  · exact (decodeMessageDispatched_respelled crates _ id _ _ h.topics).imp (hother hne)
  refine Follows.ite (fun _ => ?_) fun _ => ?_
  · exact (decodeMsgportMessageRecv_respelled crates _ id _ _ h.topics).imp (hother hne)
  refine Follows.ite (fun _ => ?_) fun _ => ?_
  · exact (decodeMsgportMessageSent_respelled crates _ id _ _ h.topics).imp (hother hne)
  refine Follows.ite (fun _ => ?_) fun _ => ?_
  · exact (decodeSignatureSubmittion_respelled crates _ id _ _ h.topics).imp (hother hne)
  · intro e he
    cases he

end

section

variable {row row' : Value} {w w' : WireLog} {chainId : Nat}

theorem logFromRow_respelled (hrow : row.asLog = .ok w) (hrow' : row'.asLog = .ok w')
    (hsame : SameLog w w') {log : DatalensLog} (h : logFromRow row chainId = .ok log) :
    log.topics = w.topics ∧ ∃ log', logFromRow row' chainId = .ok log' ∧ SameDecoded log log' ∧
      log'.id = some (logId chainId w'.blockNumber w'.transactionHash w'.logIndex) ∧
      log'.blockHash = some w'.blockHash := by
  simp only [logFromRow, hrow, hrow', bind_eq_ok] at h ⊢
  obtain ⟨_, ⟨⟩, transactionIndex, hindex, ⟨⟩⟩ := h
  rw [← hsame.transactionIndex] at hindex
  refine ⟨rfl, _, ⟨w', rfl, transactionIndex, hindex, rfl⟩, ?_, rfl, rfl⟩
  exact ⟨rfl, hsame.blockNumber, hsame.blockTimestamp, rfl, hsame.logIndex, hsame.transactionHash,
    hsame.address, hsame.transactionFrom, sameTopics_of_forall₂ hsame.topics, hsame.data⟩

/-- A decoded row, once more in another spelling. -/
theorem decodeRow_respelled {crates : Crates} (hcrates : ReadsBothCases crates)
    (hrow : row.asLog = .ok w) (hrow' : row'.asLog = .ok w') (hsame : SameLog w w')
    {e : LegacyOrmPEvent} (h : decodeRow crates chainId row = .ok e) :
    ∃ e', decodeRow crates chainId row' = .ok e' ∧
      Respells (logId chainId w'.blockNumber w'.transactionHash w'.logIndex) (some w'.blockHash)
        (AssignedTopic w.topics) e e' := by
  obtain ⟨log, hlog, h⟩ := bind_eq_ok.mp h
  obtain ⟨htopics, log', hlog', hdecoded, hid, hblockHash⟩ :=
    logFromRow_respelled hrow hrow' hsame hlog
  obtain ⟨e', he', hrespells⟩ := decodeEvmLog_respelled hcrates hdecoded hid e h
  rw [htopics, hblockHash] at hrespells
  exact ⟨e', bind_eq_ok.mpr ⟨log', hlog', he'⟩, hrespells⟩

end

/-! ## Rows -/

theorem legacyEventLogId_respelled {metadata : ChainLogMetadata} {blockHash blockHash' : String}
    (hhash : metadata.blockHash = some blockHash) (hsame : SameHex blockHash blockHash') (id : String) :
    legacyEventLogId (metadata.respelled id (some blockHash')) = legacyEventLogId metadata := by
  simp only [legacyEventLogId, ChainLogMetadata.respelled, hhash, blockHashPrefix_congr hsame]

/-- Only the row of an assignment shows the id of its log. -/
theorem rowOf_respelled {e : LegacyOrmPEvent} {blockHash blockHash' : String}
    (hhash : e.metadata.blockHash = some blockHash) (hsame : SameHex blockHash blockHash')
    (id : String) :
    rowOf e = rowOf (e.respelled id (some blockHash')) ↔
      (IsMessageAssigned e → e.metadata.id = id) := by
  have hid := fun (metadata : ChainLogMetadata) (h : metadata.blockHash = some blockHash) =>
    legacyEventLogId_respelled h hsame id
  cases e with
  | messageAssigned a =>
      constructor
      · intro h _
        exact congrArg LegacyRow.id h
      · intro h
        have ha : a.metadata.id = id := h ⟨a, rfl⟩
        rw [← ha]
        rfl
  | msgportMessageRecv m =>
      refine iff_of_true ?_ (by rintro ⟨_, ⟨⟩⟩)
      simp only [rowOf, LegacyOrmPEvent.respelled, MsgportMessageRecvRow.fromEvent]
      rw [hid m.metadata hhash]
      rfl
  | msgportMessageSent m =>
      refine iff_of_true ?_ (by rintro ⟨_, ⟨⟩⟩)
      simp only [rowOf, LegacyOrmPEvent.respelled, MsgportMessageSentRow.fromEvent]
      rw [hid m.metadata hhash]
      rfl
  | signatureSubmittion m =>
      refine iff_of_true ?_ (by rintro ⟨_, ⟨⟩⟩)
      simp only [rowOf, LegacyOrmPEvent.respelled, SignaturePubSignatureSubmittionRow.fromEvent]
      rw [hid m.metadata hhash]
      rfl
  | _ => exact iff_of_true rfl (by rintro ⟨_, ⟨⟩⟩)

theorem logId_transactionHash_inj {chainId blockNumber logIndex : Nat} {t u : String} :
    logId chainId blockNumber t logIndex = logId chainId blockNumber u logIndex ↔ t = u := by
  refine ⟨fun h => ?_, fun h => by rw [h]⟩
  have hlist := congrArg String.toList h
  rw [toList_logId, toList_logId] at hlist
  have hlist := List.cons_inj_right _ |>.mp (List.append_cancel_left hlist)
  have hlist := List.cons_inj_right _ |>.mp (List.append_cancel_left hlist)
  exact String.toList_inj.mp (List.append_cancel_right hlist)

/-- **Row identity and spelling.** A log that is decoded is decoded in every other spelling, too. The two rows
are one and the same row exactly if the log is no assignment or the transaction hash is spelled alike. -/
theorem row_identity_iff {crates : Crates} (hcrates : ReadsBothCases crates) {row row' : Value}
    {w w' : WireLog} (hrow : row.asLog = .ok w) (hrow' : row'.asLog = .ok w') (hsame : SameLog w w')
    {chainId : Nat} {e : LegacyOrmPEvent} (h : decodeRow crates chainId row = .ok e) :
    ∃ e', decodeRow crates chainId row' = .ok e' ∧
      ((rowOf e = rowOf e' ∧ ∀ (postgres : Postgres) db k,
          ((postgres.writeEvents (postgres.writeEvents db [e]) [e']).eventRow k).isSome →
            ((postgres.writeEvents db [e]).eventRow k).isSome) ↔
        (AssignedTopic w.topics → w.transactionHash = w'.transactionHash)) := by
  obtain ⟨e', he', hrespelled, hassigned⟩ := decodeRow_respelled hcrates hrow hrow' hsame h
  obtain ⟨log, hlog, hdecoded⟩ := bind_eq_ok.mp h
  have hkeeps := keepsLog_of_decodeEvmLog hdecoded
  simp only [logFromRow, hrow, bind_eq_ok] at hlog
  obtain ⟨_, ⟨⟩, transactionIndex, _, ⟨⟩⟩ := hlog
  have hid : e.metadata.id = logId chainId w.blockNumber w.transactionHash w.logIndex :=
    (Option.some.inj hkeeps.id).symm
  have hrows : rowOf e = rowOf e' ↔ (AssignedTopic w.topics → w.transactionHash = w'.transactionHash) := by
    rw [hrespelled, rowOf_respelled hkeeps.blockHash hsame.blockHash, hassigned, hid, hsame.blockNumber,
      hsame.logIndex, logId_transactionHash_inj]
  refine ⟨e', he', fun h => hrows.mp h.1, fun h => ⟨hrows.mpr h, fun postgres db k hk => ?_⟩⟩
  have hkey : eventKey e' = eventKey e := congrArg LegacyRow.key (hrows.mpr h).symm
  have hsingle : ∀ (d : Database) (f : LegacyOrmPEvent), (postgres.writeEvents d [f]).eventRow k =
      if eventKey f = k then some (rowOf f) else d.eventRow k :=
    fun d f => postgres.eventRow_writeLegacyEvent d f k
  rw [hsingle, hkey] at hk
  split at hk
  · rw [hsingle, if_pos ‹_›]
    rfl
  · exact hk

/-! ## One assignment in two spellings -/

theorem readsBothCases_emptyBytesCrates : ReadsBothCases emptyBytesCrates := by
  intro s t bytes hsame hs
  have hread : hexBytes s = hexBytes t := by
    rw [← hexBytes_map_lowerDigit, hsame, hexBytes_map_lowerDigit]
  have hs : contextOption "invalid hex" (hexBytes (String.ofList s).toList) = .ok bytes := hs
  show contextOption "invalid hex" (hexBytes (String.ofList t).toList) = .ok bytes
  rw [String.toList_ofList] at hs ⊢
  rwa [← hread]

/-- A row of the assignment with these hashes. -/
def assignedRow (blockHash transactionHash : String) : WireLog where
  blockNumber := 200
  blockHash := blockHash
  blockTimestamp := some 1732494016
  transactionHash := transactionHash
  transactionIndex := 0
  logIndex := 4
  address := ORMP_ADDRESS
  topics := sampleEmission.topics .indexedInTopics
  data := ContractEvent.spelled (encodeEmptyBytes (sampleEmission.dataTokens .indexedInTopics))
  transactionFrom := none

/-- An assignment as Datalens returns it, in any spelling of its hashes. -/
def assignedValue (blockHash transactionHash : String) : Value where
  asLog := .ok (assignedRow blockHash transactionHash)
  asBlock := .error ["missing field number"]

/-- Where the client puts that row. -/
def assignedPlace (blockHash transactionHash : String) : DatalensLog where
  id := some (logId 46 200 transactionHash 4)
  chainId := 46
  blockNumber := 200
  blockHash := some blockHash
  parentHash := none
  blockTimestamp := some 1732494016
  transactionHash := transactionHash
  transactionIndex := some 0
  logIndex := 4
  address := ORMP_ADDRESS
  transactionFrom := none
  topics := []
  data := "0x"

theorem decodeRow_assignedValue (blockHash transactionHash : String)
    (hhash : HexText transactionHash) :
    ∃ a, decodeRow emptyBytesCrates 46 (assignedValue blockHash transactionHash) =
      .ok (.messageAssigned a) ∧ a.metadata.id = logId 46 200 transactionHash 4 := by
  have haddress : HexText ORMP_ADDRESS := by
    unfold HexText
    rfl
  have hpresent : MetadataPresent (assignedPlace blockHash transactionHash) :=
    ⟨rfl, rfl, hhash, rfl, Nat.le_of_ble_eq_true rfl, haddress, nofun⟩
  obtain ⟨metadata, hmetadata, hsmall, -⟩ := decodeEvmLog_emit
    (documented_withAbi documented_wordCrates decodeEmptyBytes) sampleEmission .indexedInTopics
    hpresent decodeEmptyBytes_sampleEmission
  have hid := Option.some.inj (keepsLog_of_evmMetadata hmetadata).id
  exact ⟨_, hsmall (by decide), hid.symm⟩

theorem sameLog_assignedRow {blockHash blockHash' transactionHash transactionHash' : String}
    (hblock : SameHex blockHash blockHash') (hhash : SameHex transactionHash transactionHash') :
    SameLog (assignedRow blockHash transactionHash) (assignedRow blockHash' transactionHash') := by
  have hrefl : ∀ s : String, SameHex s s := fun s => .inl rfl
  exact ⟨rfl, rfl, rfl, rfl, hblock, hhash, hrefl _, .none,
    List.forall₂_same.mpr fun s _ => hrefl s, hrefl _⟩

/-- With another prefix of the block hash and digits of another case it is one row. -/
theorem row_identity_iff_blockHash :
    ∃ e e', decodeRow emptyBytesCrates 46 (assignedValue "0xABCDEF" "0xa200") = .ok e ∧
      decodeRow emptyBytesCrates 46 (assignedValue "abcdef" "0xa200") = .ok e' ∧ rowOf e = rowOf e' := by
  obtain ⟨a, ha, _⟩ := decodeRow_assignedValue "0xABCDEF" "0xa200"
    rfl
  have hblock : SameHex "0xABCDEF" "abcdef" := by
    unfold SameHex SameDigits
    decide +kernel
  have hrow' : (assignedValue "abcdef" "0xa200").asLog = .ok (assignedRow "abcdef" "0xa200") := rfl
  obtain ⟨e', he', hrows⟩ := row_identity_iff readsBothCases_emptyBytesCrates rfl hrow'
    (sameLog_assignedRow hblock (.inl rfl)) ha
  exact ⟨_, e', ha, he', (hrows.mpr fun _ => rfl).1⟩

/-- With another prefix of the transaction hash the assignment is stored twice. -/
theorem assignment_stored_twice :
    SameLog (assignedRow "0xb200" "0xa200") (assignedRow "0xb200" "a200") ∧
      ∃ e e', decodeRow emptyBytesCrates 46 (assignedValue "0xb200" "0xa200") = .ok e ∧
        decodeRow emptyBytesCrates 46 (assignedValue "0xb200" "a200") = .ok e' ∧
        rowOf e ≠ rowOf e' ∧
        ((Postgres.legacyStore.writeEvents .empty [e, e']).eventRow
          (.ormpMessageAssigned, "46-200-0xa200-4")).isSome ∧
        ((Postgres.legacyStore.writeEvents .empty [e, e']).eventRow
          (.ormpMessageAssigned, "46-200-a200-4")).isSome := by
  have hhash : SameHex "0xa200" "a200" := by
    unfold SameHex SameDigits
    decide +kernel
  obtain ⟨a, ha, hid⟩ := decodeRow_assignedValue "0xb200" "0xa200"
    rfl
  obtain ⟨a', ha', hid'⟩ := decodeRow_assignedValue "0xb200" "a200"
    rfl
  have hid : a.metadata.id = "46-200-0xa200-4" := hid.trans rfl
  have hid' : a'.metadata.id = "46-200-a200-4" := hid'.trans rfl
  have hkey : eventKey (.messageAssigned a) = (.ormpMessageAssigned, "46-200-0xa200-4") :=
    congrArg _ hid
  have hkey' : eventKey (.messageAssigned a') = (.ormpMessageAssigned, "46-200-a200-4") :=
    congrArg _ hid'
  refine ⟨sameLog_assignedRow (.inl rfl) hhash, _, _, ha, ha', fun h => ?_, ?_, ?_⟩
  · have hsame : a.metadata.id = a'.metadata.id := congrArg LegacyRow.id h
    rw [hid, hid'] at hsame
    exact absurd hsame (by decide)
  · rw [Postgres.eventRow_writeEvents]
    simp [lastWhere, hkey, hkey']
  · rw [Postgres.eventRow_writeEvents]
    simp [lastWhere, hkey']

end OrmpIndexer
