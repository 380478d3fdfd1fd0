/-
# OrmpIndexer.Decoder.RoundTrip — decoding undoes emitting

The decoders of `Decoder.Abi` against the events of `Decoder.Emission`: on the log of an event, in
either layout, a decoder returns the event, or nothing where an unsigned integer does not fit into
`u128` (`Undoes`). The seven decoders are gone through one by one; a field read at another place or
from another topic would not give the value back. `decodeEvmLog_emit` is the whole of it, with the
dispatch on the first topic and with the metadata.
-/
import OrmpIndexer.Decoder.Emission

namespace OrmpIndexer

open Foundation ContractEvent

section

variable {crates : Crates} (documented : Documented crates) {encode : List Token → List UInt8}
  {metadata : ChainLogMetadata} {e : LegacyOrmPEvent}

/-! ## The decoders -/

/-- An event decoder that gives the event back, or nothing where an integer is too large. -/
def Undoes (crates : Crates) (encode : List Token → List UInt8)
    (decode : ChainLogMetadata → List String → List UInt8 → Except Error LegacyOrmPEvent)
    (event : ContractEvent) : Prop :=
  ∀ layout metadata e,
    crates.abiDecode (event.dataTypes layout) (encode (event.dataTokens layout)) =
      .ok (event.dataTokens layout) →
    (decode metadata (event.topics layout) (encode (event.dataTokens layout)) = .ok e ↔
      (∀ n ∈ event.uints, n < 2 ^ 128) ∧ e = event.decoded metadata)

theorem bind_eq_ok_of_eq_ok {α β : Type} {r : Except Error α} {a : α} (h : r = .ok a)
    (f : α → Except Error β) {b : β} : r >>= f = .ok b ↔ f a = .ok b := by
  rw [h]
  rfl

include documented in
theorem decodeHashImported_undoes (oracle : Address) (chainId : U256) (channel : Address)
    (msgIndex : U256) (hash : Word) :
    Undoes crates encode (decodeHashImported crates)
      (hashImported oracle chainId channel msgIndex hash) := by
  intro layout metadata e habi
  cases layout with
  | allInData =>
      rw [decodeHashImported, if_neg (by simp [topics, topicFields])]
      refine (bind_eq_ok_of_eq_ok (context_eq_ok.mpr habi) _).trans ?_
      simp only [dataTokens, dataFields, fields, Field.uint, Field.address, Field.word, List.map,
        run'_take, run'_lift, run'_pure, tokenUint_eq_ok, tokenAddress_eq documented,
        tokenFixedBytes_eq documented, Except.ok.injEq, exists_eq_left']
      simp [uints, decoded, and_assoc]
  | indexedInTopics =>
      rw [decodeHashImported, if_pos (by simp [topics, topicFields, fields, Field.uint,
        Field.address, Field.word])]
      refine (bind_eq_ok_of_eq_ok (context_eq_ok.mpr habi) _).trans ?_
      have horacle : topicAddress (topics .indexedInTopics
          (hashImported oracle chainId channel msgIndex hash)) 1 "oracle" =
          .ok (spelled oracle.bytes) := topicAddress_eq rfl _
      simp only [horacle, dataTokens, dataFields, fields, Field.uint, Field.address, Field.word,
        List.map, List.filter, Bool.not_true, Bool.not_false, run'_take, run'_lift, run'_pure,
        tokenUint_eq_ok, tokenAddress_eq documented, tokenFixedBytes_eq documented, Except.ok.injEq,
        exists_eq_left']
      simp [uints, decoded, and_assoc]

include documented in
/-- Both layouts of MessageAccepted come to the same tuple. -/
theorem messageFields_eq_ok (msgHash : Word) (channel : Address) (index fromChainId : U256)
    (fromAddress : Address) (toChainId : U256) (toAddress : Address) (gasLimit : U256)
    (encoded : List UInt8) {hash : Except Error String}
    (hhash : hash = .ok (spelled msgHash.bytes)) :
    messageFields crates metadata hash
        (.tuple [.address channel.bytes, .uint index.value, .uint fromChainId.value,
          .address fromAddress.bytes, .uint toChainId.value, .address toAddress.bytes,
          .uint gasLimit.value, .bytes encoded]) = .ok e ↔
      (∀ n ∈ [index.value, fromChainId.value, toChainId.value, gasLimit.value], n < 2 ^ 128) ∧
        e = (messageAccepted msgHash channel index fromChainId fromAddress toChainId toAddress
          gasLimit encoded).decoded metadata := by
  rw [messageFields, hhash]
  refine (bind_eq_ok_of_eq_ok (a := ()) rfl _).trans ?_
  simp only [run'_take, run'_lift, run'_pure, tokenUint_eq_ok, tokenAddress_eq documented,
    tokenBytes_eq documented, Except.ok.injEq, exists_eq_left']
  simp [decoded, and_assoc]

include documented in
theorem decodeMessageAccepted_undoes (msgHash : Word) (channel : Address) (index fromChainId : U256)
    (fromAddress : Address) (toChainId : U256) (toAddress : Address) (gasLimit : U256)
    (encoded : List UInt8) :
    Undoes crates encode (decodeMessageAccepted crates)
      (messageAccepted msgHash channel index fromChainId fromAddress toChainId toAddress gasLimit
        encoded) := by
  intro layout metadata e habi
  cases layout with
  | allInData =>
      rw [decodeMessageAccepted, if_neg (by simp [topics, topicFields])]
      refine (bind_eq_ok_of_eq_ok (context_eq_ok.mpr habi) _).trans ?_
      refine (bind_eq_ok_of_eq_ok rfl _).trans ?_
      refine (bind_eq_ok_of_eq_ok (tokenFixedBytes_eq documented msgHash) _).trans ?_
      refine (bind_eq_ok_of_eq_ok rfl _).trans ?_
      exact messageFields_eq_ok documented msgHash channel index fromChainId fromAddress toChainId
        toAddress gasLimit encoded rfl
  | indexedInTopics =>
      rw [decodeMessageAccepted, if_pos (by simp [topics, topicFields, fields, Field.word,
        Field.tuple])]
      refine (bind_eq_ok_of_eq_ok (context_eq_ok.mpr habi) _).trans ?_
      refine (bind_eq_ok_of_eq_ok rfl _).trans ?_
      exact messageFields_eq_ok documented msgHash channel index fromChainId fromAddress toChainId
        toAddress gasLimit encoded (topicFixedBytes_eq rfl "msgHash")

include documented in
theorem decodeMessageAssigned_undoes (msgHash : Word) (oracle relayer : Address)
    (oracleFee relayerFee : U256) (params : List UInt8) :
    Undoes crates encode (decodeMessageAssigned crates)
      (messageAssigned msgHash oracle relayer oracleFee relayerFee params) := by
  intro layout metadata e habi
  cases layout with
  | allInData =>
      rw [decodeMessageAssigned, if_neg (by simp [topics, topicFields])]
      refine (bind_eq_ok_of_eq_ok (context_eq_ok.mpr habi) _).trans ?_
      simp only [dataTokens, dataFields, fields, Field.uint, Field.address, Field.word, Field.bytes,
        List.map, run'_take, run'_lift, run'_pure, tokenUint_eq_ok, tokenAddress_eq documented,
        tokenFixedBytes_eq documented, tokenBytes_eq documented, Except.ok.injEq, exists_eq_left']
      simp [uints, decoded, and_assoc]
  | indexedInTopics =>
      rw [decodeMessageAssigned, if_pos (by simp [topics, topicFields, fields, Field.uint,
        Field.address, Field.word, Field.bytes])]
      refine (bind_eq_ok_of_eq_ok (context_eq_ok.mpr habi) _).trans ?_
      have hmsgHash : topicFixedBytes (topics .indexedInTopics
          (messageAssigned msgHash oracle relayer oracleFee relayerFee params)) 1 "msgHash" =
          .ok (spelled msgHash.bytes) := topicFixedBytes_eq rfl _
      have horacle : topicAddress (topics .indexedInTopics
          (messageAssigned msgHash oracle relayer oracleFee relayerFee params)) 2 "oracle" =
          .ok (spelled oracle.bytes) := topicAddress_eq rfl _
      have hrelayer : topicAddress (topics .indexedInTopics
          (messageAssigned msgHash oracle relayer oracleFee relayerFee params)) 3 "relayer" =
          .ok (spelled relayer.bytes) := topicAddress_eq rfl _
      simp only [hmsgHash, horacle, hrelayer, dataTokens, dataFields, fields, Field.uint,
        Field.address, Field.word, Field.bytes, List.map, List.filter, Bool.not_true,
        Bool.not_false, run'_take, run'_lift, run'_pure, tokenUint_eq_ok,
        tokenBytes_eq documented, Except.ok.injEq, exists_eq_left']
      simp [uints, decoded, and_assoc]

include documented in
theorem decodeMessageDispatched_undoes (msgHash : Word) (dispatchResult : Bool) :
    Undoes crates encode (decodeMessageDispatched crates)
      (messageDispatched msgHash dispatchResult) := by
  intro layout metadata e habi
  cases layout with
  | allInData =>
      rw [decodeMessageDispatched, if_neg (by simp [topics, topicFields])]
      refine (bind_eq_ok_of_eq_ok (context_eq_ok.mpr habi) _).trans ?_
      simp only [dataTokens, dataFields, fields, Field.word, Field.bool, List.map, run'_take,
        run'_lift, run'_pure, tokenFixedBytes_eq documented, tokenBool, Except.ok.injEq,
        exists_eq_left']
      simp [uints, decoded]
  | indexedInTopics =>
      rw [decodeMessageDispatched, if_pos (by simp [topics, topicFields, fields, Field.word,
        Field.bool])]
      refine (bind_eq_ok_of_eq_ok (context_eq_ok.mpr habi) _).trans ?_
      have hmsgHash : topicFixedBytes (topics .indexedInTopics
          (messageDispatched msgHash dispatchResult)) 1 "msgHash" =
          .ok (spelled msgHash.bytes) := topicFixedBytes_eq rfl _
      simp only [hmsgHash, dataTokens, dataFields, fields, Field.word, Field.bool, List.map,
        List.filter, Bool.not_true, Bool.not_false, run'_take, run'_lift, run'_pure,
        tokenBool, Except.ok.injEq, exists_eq_left']
      simp [uints, decoded]

include documented in
theorem decodeMsgportMessageRecv_undoes (msgId : Word) (result : Bool) (returnData : List UInt8) :
    Undoes crates encode (decodeMsgportMessageRecv crates)
      (msgportMessageRecv msgId result returnData) := by
  intro layout metadata e habi
  cases layout with
  | allInData =>
      rw [decodeMsgportMessageRecv, if_neg (by simp [topics, topicFields])]
      refine (bind_eq_ok_of_eq_ok (context_eq_ok.mpr habi) _).trans ?_
      simp only [dataTokens, dataFields, fields, Field.word, Field.bool, Field.bytes, List.map,
        run'_take, run'_lift, run'_pure, tokenFixedBytes_eq documented, tokenBool,
        tokenBytes_eq documented, Except.ok.injEq, exists_eq_left']
      simp [uints, decoded]
  | indexedInTopics =>
      rw [decodeMsgportMessageRecv, if_pos (by simp [topics, topicFields, fields, Field.word,
        Field.bool, Field.bytes])]
      refine (bind_eq_ok_of_eq_ok (context_eq_ok.mpr habi) _).trans ?_
      have hmsgId : topicFixedBytes (topics .indexedInTopics
          (msgportMessageRecv msgId result returnData)) 1 "msgId" =
          .ok (spelled msgId.bytes) := topicFixedBytes_eq rfl _
      simp only [hmsgId, dataTokens, dataFields, fields, Field.word, Field.bool, Field.bytes,
        List.map, List.filter, Bool.not_true, Bool.not_false, run'_take, run'_lift, run'_pure,
        tokenBool, tokenBytes_eq documented, Except.ok.injEq,
        exists_eq_left']
      simp [uints, decoded]

include documented in
theorem decodeMsgportMessageSent_undoes (msgId : Word) (fromDapp : Address) (toChainId : U256)
    (toDapp : Address) (message params : List UInt8) :
    Undoes crates encode (decodeMsgportMessageSent crates)
      (msgportMessageSent msgId fromDapp toChainId toDapp message params) := by
  intro layout metadata e habi
  cases layout with
  | allInData =>
      rw [decodeMsgportMessageSent, if_neg (by simp [topics, topicFields])]
      refine (bind_eq_ok_of_eq_ok (context_eq_ok.mpr habi) _).trans ?_
      simp only [dataTokens, dataFields, fields, Field.word, Field.address, Field.uint, Field.bytes,
        List.map, run'_take, run'_lift, run'_pure, tokenFixedBytes_eq documented,
        tokenAddress_eq documented, tokenUint_eq_ok, tokenBytes_eq documented, Except.ok.injEq,
        exists_eq_left']
      simp [uints, decoded]
  | indexedInTopics =>
      rw [decodeMsgportMessageSent, if_pos (by simp [topics, topicFields, fields, Field.word,
        Field.address, Field.uint, Field.bytes])]
      refine (bind_eq_ok_of_eq_ok (context_eq_ok.mpr habi) _).trans ?_
      have hmsgId : topicFixedBytes (topics .indexedInTopics
          (msgportMessageSent msgId fromDapp toChainId toDapp message params)) 1 "msgId" =
          .ok (spelled msgId.bytes) := topicFixedBytes_eq rfl _
      simp only [hmsgId, dataTokens, dataFields, fields, Field.word, Field.address, Field.uint,
        Field.bytes, List.map, List.filter, Bool.not_true, Bool.not_false, run'_take, run'_lift,
        run'_pure, tokenAddress_eq documented, tokenUint_eq_ok,
        tokenBytes_eq documented, Except.ok.injEq, exists_eq_left']
      simp [uints, decoded]

include documented in
theorem decodeSignatureSubmittion_undoes (chainId : U256) (channel signer : Address)
    (msgIndex : U256) (signature data : List UInt8) :
    Undoes crates encode (decodeSignatureSubmittion crates)
      (signatureSubmittion chainId channel signer msgIndex signature data) := by
  intro layout metadata e habi
  cases layout with
  | allInData =>
      rw [decodeSignatureSubmittion, if_neg (by simp [topics, topicFields])]
      refine (bind_eq_ok_of_eq_ok (context_eq_ok.mpr habi) _).trans ?_
      simp only [dataTokens, dataFields, fields, Field.uint, Field.address, Field.bytes, List.map,
        run'_take, run'_lift, run'_pure, tokenUint_eq_ok, tokenAddress_eq documented,
        tokenBytes_eq documented, Except.ok.injEq, exists_eq_left']
      simp [uints, decoded, and_assoc]
  | indexedInTopics =>
      rw [decodeSignatureSubmittion, if_pos (by simp [topics, topicFields, fields, Field.uint,
        Field.address, Field.bytes])]
      refine (bind_eq_ok_of_eq_ok (context_eq_ok.mpr habi) _).trans ?_
      have hchainId (m) : topicUint crates (topics .indexedInTopics
          (signatureSubmittion chainId channel signer msgIndex signature data)) 1 "chainId" =
          .ok m ↔ m = chainId.value ∧ chainId.value < 2 ^ 128 :=
        topicUint_eq_ok documented rfl _
      have hchannel : topicAddress (topics .indexedInTopics
          (signatureSubmittion chainId channel signer msgIndex signature data)) 2 "channel" =
          .ok (spelled channel.bytes) := topicAddress_eq rfl _
      have hsigner : topicAddress (topics .indexedInTopics
          (signatureSubmittion chainId channel signer msgIndex signature data)) 3 "signer" =
          .ok (spelled signer.bytes) := topicAddress_eq rfl _
      simp only [hchainId, hchannel, hsigner, dataTokens, dataFields, fields, Field.uint,
        Field.address, Field.bytes, List.map, List.filter, Bool.not_true, Bool.not_false, run'_take,
        run'_lift, run'_pure, tokenUint_eq_ok, tokenBytes_eq documented,
        Except.ok.injEq, exists_eq_left']
      simp [uints, decoded, and_assoc]

/-! ## The dispatch -/

/-- The decoder of an event. -/
def decoderOf (crates : Crates) : ContractEvent → ChainLogMetadata → List String → List UInt8 →
    Except Error LegacyOrmPEvent
  | hashImported .. => decodeHashImported crates
  | messageAccepted .. => decodeMessageAccepted crates
  | messageAssigned .. => decodeMessageAssigned crates
  | messageDispatched .. => decodeMessageDispatched crates
  | msgportMessageRecv .. => decodeMsgportMessageRecv crates
  | msgportMessageSent .. => decodeMsgportMessageSent crates
  | signatureSubmittion .. => decodeSignatureSubmittion crates

include documented in
theorem decoderOf_undoes (event : ContractEvent) :
    Undoes crates encode (decoderOf crates event) event := by
  cases event with
  | hashImported oracle chainId channel msgIndex hash =>
      exact decodeHashImported_undoes documented oracle chainId channel msgIndex hash
  | messageAccepted msgHash channel index fromChainId fromAddress toChainId toAddress gasLimit
      encoded =>
      exact decodeMessageAccepted_undoes documented msgHash channel index fromChainId fromAddress
        toChainId toAddress gasLimit encoded
  | messageAssigned msgHash oracle relayer oracleFee relayerFee params =>
      exact decodeMessageAssigned_undoes documented msgHash oracle relayer oracleFee relayerFee
        params
  | messageDispatched msgHash dispatchResult =>
      exact decodeMessageDispatched_undoes documented msgHash dispatchResult
  | msgportMessageRecv msgId result returnData =>
      exact decodeMsgportMessageRecv_undoes documented msgId result returnData
  | msgportMessageSent msgId fromDapp toChainId toDapp message params =>
      exact decodeMsgportMessageSent_undoes documented msgId fromDapp toChainId toDapp message
        params
  | signatureSubmittion chainId channel signer msgIndex signature data =>
      exact decodeSignatureSubmittion_undoes documented chainId channel signer msgIndex signature
        data

theorem exists_digits_topic0 (event : ContractEvent) : ∃ digits : List Char,
    event.topic0 = String.ofList ('0' :: 'x' :: digits) ∧ ∀ c ∈ digits, NormalDigit c := by
  suffices h : ∃ digits : List Char, event.topic0 = String.ofList ('0' :: 'x' :: digits) ∧
      digits.all (fun c => decide (NormalDigit c)) = true by
    obtain ⟨digits, htopic, hdigits⟩ := h
    exact ⟨digits, htopic, by simpa using hdigits⟩
  cases event <;> exact ⟨_, rfl, by decide⟩

theorem normalizeHex_topic0 (event : ContractEvent) :
    normalizeHex event.topic0 = .ok event.topic0 := by
  obtain ⟨digits, htopic, hdigits⟩ := exists_digits_topic0 event
  rw [htopic]
  exact normalizeHex_ofList hdigits

include documented in
/-- The first topic selects the decoder of the event. -/
theorem decodeEvmLog_emit_eq (event : ContractEvent) (layout : LogLayout) {log : DatalensLog}
    (hmetadata : evmMetadata log = .ok metadata) :
    decodeEvmLog crates (event.emit encode layout log) =
      decoderOf crates event metadata (event.topics layout)
        (encode (event.dataTokens layout)) := by
  have htopic : (event.emit encode layout log).topics.head?.mapM normalizeHex =
      .ok (some event.topic0) := by
    show (do return some (← normalizeHex event.topic0)) = _
    rw [normalizeHex_topic0]
    rfl
  have hdata : decodeHex crates (event.emit encode layout log).data =
      .ok (encode (event.dataTokens layout)) := decodeHex_spelled documented _
  have hsame : evmMetadata (event.emit encode layout log) = .ok metadata := hmetadata
  rw [decodeEvmLog, htopic, hdata, hsame]
  cases event with
  | hashImported => rfl
  | messageAccepted => rfl
  | messageAssigned => rfl
  | messageDispatched => rfl
  | msgportMessageRecv => rfl
  | msgportMessageSent => rfl
  | signatureSubmittion => rfl

/-! ## The metadata -/

/-- A text of hexadecimal digits, with or without the prefix. -/
def HexText (value : String) : Prop :=
  (stripHexPrefix (trim value.toList)).all Char.isHexDigit = true

/-- Everything the metadata is made of is there. -/
structure MetadataPresent (log : DatalensLog) : Prop where
  id : log.id.isSome
  blockTimestamp : log.blockTimestamp.isSome
  transactionHash : HexText log.transactionHash
  transactionIndex : log.transactionIndex.isSome
  logIndex : log.logIndex ≤ i32Max
  address : HexText log.address
  transactionFrom : ∀ transactionFrom ∈ log.transactionFrom, HexText transactionFrom

theorem exists_normalizeHex {value : String} (h : HexText value) :
    ∃ hex, normalizeHex value = .ok hex := by
  refine ⟨"0x" ++ toAsciiLowercase (String.ofList (stripHexPrefix (trim value.toList))), ?_⟩
  have htext : (stripHexPrefix (trim value.toList)).all Char.isHexDigit = true := h
  simp only [normalizeHex, htext]
  rfl

/-- Milliseconds of a timestamp in seconds fit. -/
theorem exists_normalizeBlockTimestamp (value : Nat) :
    ∃ timestamp, normalizeBlockTimestamp value = some timestamp := by
  unfold normalizeBlockTimestamp
  by_cases hseconds : 1000000000 ≤ value ∧ value < 10000000000
  · have hfits : value * 1000 ≤ u64Max := by
      have h : value * 1000 ≤ 9999999999 * 1000 := Nat.mul_le_mul_right 1000 (by omega)
      exact h.trans (by decide)
    exact ⟨_, by rw [if_pos hseconds, if_pos hfits]⟩
  · exact ⟨_, by rw [if_neg hseconds]⟩

theorem exists_evmMetadata {log : DatalensLog} (h : MetadataPresent log) :
    ∃ metadata, evmMetadata log = .ok metadata := by
  obtain ⟨id, hid⟩ := Option.isSome_iff_exists.mp h.id
  obtain ⟨seconds, hseconds⟩ := Option.isSome_iff_exists.mp h.blockTimestamp
  obtain ⟨timestamp, htimestamp⟩ := exists_normalizeBlockTimestamp seconds
  obtain ⟨transactionHash, hhash⟩ := exists_normalizeHex h.transactionHash
  obtain ⟨transactionIndex, hindex⟩ := Option.isSome_iff_exists.mp h.transactionIndex
  obtain ⟨address, haddress⟩ := exists_normalizeHex h.address
  have hfrom : ∃ transactionFrom,
      log.transactionFrom.mapM normalizeHex = .ok transactionFrom := by
    cases hoption : log.transactionFrom with
    | none => exact ⟨none, rfl⟩
    | some value =>
        obtain ⟨hex, hhex⟩ := exists_normalizeHex (h.transactionFrom value hoption)
        refine ⟨some hex, ?_⟩
        show (do return some (← normalizeHex value)) = _
        rw [hhex]
        rfl
  obtain ⟨transactionFrom, hfrom⟩ := hfrom
  have hlogIndex :=
    (i32TryFrom_eq_ok (m := "EVM log index overflows i32")).mpr ⟨h.logIndex, rfl⟩
  simp only [evmMetadata, bind_eq_ok, contextOption_eq_ok]
  exact ⟨_, seconds, hseconds, timestamp, htimestamp, id, hid, transactionHash, hhash,
    transactionIndex, hindex, _, hlogIndex, address, haddress, transactionFrom, hfrom, rfl⟩

include documented in
/-- Decoding undoes emitting: in either layout the fields come back as they were, and where one of
the unsigned integers does not fit into `u128` there is an error. -/
theorem decodeEvmLog_emit (event : ContractEvent) (layout : LogLayout) {log : DatalensLog}
    (hlog : MetadataPresent log)
    (habi : crates.abiDecode (event.dataTypes layout) (encode (event.dataTokens layout)) =
      .ok (event.dataTokens layout)) :
    ∃ metadata, evmMetadata log = .ok metadata ∧
      ((∀ n ∈ event.uints, n < 2 ^ 128) →
        decodeEvmLog crates (event.emit encode layout log) = .ok (event.decoded metadata)) ∧
      ((∃ n ∈ event.uints, 2 ^ 128 ≤ n) →
        ∃ error, decodeEvmLog crates (event.emit encode layout log) = .error error) := by
  obtain ⟨metadata, hmetadata⟩ := exists_evmMetadata hlog
  have hundoes := fun e => decoderOf_undoes documented event layout metadata e habi
  rw [decodeEvmLog_emit_eq documented event layout hmetadata]
  refine ⟨metadata, hmetadata, ?_, ?_⟩
  · intro hsmall
    exact (hundoes _).mpr ⟨hsmall, rfl⟩
  · rintro ⟨n, hn, hlarge⟩
    cases hdecoded : decoderOf crates event metadata (event.topics layout)
        (encode (event.dataTokens layout)) with
    | error m => exact ⟨m, rfl⟩
    | ok e => exact absurd (((hundoes e).mp hdecoded).1 n hn) (Nat.not_lt.mpr hlarge)

end

/-! ## Events of one-word fields -/

/-- A field whose type takes one word. -/
inductive OneWord : Field → Prop
  | address (a : Address) (indexed : Bool) : OneWord (.address a indexed)
  | word (w : Word) (indexed : Bool) : OneWord (.word w indexed)
  | uint (n : U256) (indexed : Bool) : OneWord (.uint n indexed)

/-- `ethabi::decode` of a type that takes one word. -/
def decodeWord : ParamType → List UInt8 → Except Error Token
  | .address, word => .ok (.address (word.drop 12))
  | .uint _, word => .ok (.uint (ofBigEndian word))
  | .fixedBytes size, word => .ok (.fixedBytes (word.take size))
  | _, _ => .error ["not a type of one word"]

/-- `ethabi::decode` of types that take one word each. -/
def decodeWords : List ParamType → List UInt8 → Except Error (List Token)
  | [], _ => .ok []
  | type :: types, data => do
      ensure (32 ≤ data.length) "Invalid data"
      let token ← decodeWord type (data.take 32)
      return token :: (← decodeWords types (data.drop 32))

/-- `ethabi::encode` of tokens that take one word each. -/
def encodeWords (tokens : List Token) : List UInt8 := tokens.flatMap topicWord

theorem length_topicWord {field : Field} (h : OneWord field) :
    (topicWord field.token).length = 32 := by
  cases h with
  | address a indexed =>
      show (List.replicate 12 0 ++ a.bytes).length = 32
      rw [List.length_append, List.length_replicate, a.length_bytes]
  | word w indexed => exact w.length_bytes
  | uint n indexed => exact length_bigEndian 32 n.value

theorem decodeWord_topicWord {field : Field} (h : OneWord field) :
    decodeWord field.type (topicWord field.token) = .ok field.token := by
  cases h with
  | address a indexed => rfl
  | word w indexed =>
      show Except.ok (Token.fixedBytes (w.bytes.take 32)) = .ok (.fixedBytes w.bytes)
      rw [List.take_of_length_le (Nat.le_of_eq w.length_bytes)]
  | uint n indexed =>
      show Except.ok (Token.uint (ofBigEndian (bigEndian 32 n.value))) = .ok (.uint n.value)
      rw [ofBigEndian_bigEndian_of_bits rfl n.value_lt]

theorem decodeWords_encodeWords {fields : List Field} (h : ∀ field ∈ fields, OneWord field) :
    decodeWords (fields.map (·.type)) (encodeWords (fields.map (·.token))) =
      .ok (fields.map (·.token)) := by
  induction fields with
  | nil => rfl
  | cons field fields ih =>
      have hfield := h field List.mem_cons_self
      have hfields := ih fun f hf => h f (List.mem_cons_of_mem field hf)
      have hlength := length_topicWord hfield
      have htake : (encodeWords ((field :: fields).map (·.token))).take 32 =
          topicWord field.token := List.take_left' hlength
      have hdrop : (encodeWords ((field :: fields).map (·.token))).drop 32 =
          encodeWords (fields.map (·.token)) := List.drop_left' hlength
      have hlong : 32 ≤ (encodeWords ((field :: fields).map (·.token))).length := by
        show 32 ≤ (topicWord field.token ++ encodeWords (fields.map (·.token))).length
        rw [List.length_append, hlength]
        exact Nat.le_add_right 32 _
      rw [List.map_cons, decodeWords, htake, hdrop, decodeWord_topicWord hfield, hfields,
        ensure, if_pos (decide_eq_true hlong)]
      rfl

/-- Crates that behave as documented where every type takes one word. -/
def wordCrates : Crates where
  abiDecode := decodeWords
  hexEncode bytes := String.ofList (hexChars bytes)
  hexDecode value := contextOption "invalid hex" (hexBytes value.toList)
  u256FromHex value := contextOption "invalid hex" ((hexBytes value.toList).map ofBigEndian)

theorem documented_wordCrates : Documented wordCrates where
  hexEncode _ := rfl
  hexDecode bytes := by
    simp only [wordCrates, String.toList_ofList, hexBytes_hexChars]
    rfl
  u256FromHex value hvalue := by
    have hread : ofBigEndian (bigEndian 32 value) = value :=
      ofBigEndian_bigEndian_of_bits rfl hvalue
    simp only [wordCrates, String.toList_ofList, hexBytes_hexChars, Option.map_some, hread,
      contextOption]

/-- A HashImported with this message index. -/
def importedHash (msgIndex : U256) : ContractEvent :=
  .hashImported ⟨List.replicate 20 0x11, rfl⟩ ⟨1, Nat.one_lt_two_pow (by decide)⟩
    ⟨List.replicate 20 0x22, rfl⟩ msgIndex ⟨List.replicate 32 0x33, rfl⟩

theorem oneWord_importedHash (msgIndex : U256) (layout : LogLayout) :
    ∀ field ∈ (importedHash msgIndex).dataFields layout, OneWord field := by
  have hfields : ∀ field ∈ (importedHash msgIndex).fields, OneWord field := by
    simp [importedHash, fields, OneWord.address, OneWord.word, OneWord.uint]
  cases layout with
  | allInData => exact hfields
  | indexedInTopics =>
      intro field hfield
      exact hfields field (List.mem_filter.mp hfield).1

def importedHashLog : DatalensLog where
  id := some "evm:46:2830101:0x01:0"
  chainId := 46
  blockNumber := 2830101
  blockHash := some "0xaa"
  parentHash := none
  blockTimestamp := some 1700000000
  transactionHash := "0x01"
  transactionIndex := some 0
  logIndex := 0
  address := ORMP_ADDRESS
  transactionFrom := none
  topics := []
  data := "0x"

theorem metadataPresent_importedHashLog : MetadataPresent importedHashLog where
  id := rfl
  blockTimestamp := rfl
  transactionHash := rfl
  transactionIndex := rfl
  logIndex := by decide
  address := rfl
  transactionFrom := by intro transactionFrom h; cases h

/-- With the message index `2 ^ 128` the log is refused, with a smaller one it is read. -/
theorem decodeEvmLog_emit_importedHash :
    (∃ metadata, decodeEvmLog wordCrates ((importedHash ⟨7, by decide⟩).emit encodeWords
        .indexedInTopics importedHashLog) = .ok ((importedHash ⟨7, by decide⟩).decoded metadata)) ∧
      ∃ error, decodeEvmLog wordCrates ((importedHash ⟨2 ^ 128, by decide⟩).emit encodeWords
        .indexedInTopics importedHashLog) = .error error := by
  obtain ⟨metadata, -, hsmall, -⟩ := decodeEvmLog_emit documented_wordCrates
    (importedHash ⟨7, by decide⟩) .indexedInTopics metadataPresent_importedHashLog
    (decodeWords_encodeWords (oneWord_importedHash _ _))
  obtain ⟨_, -, -, hlarge⟩ := decodeEvmLog_emit documented_wordCrates
    (importedHash ⟨2 ^ 128, by decide⟩) .indexedInTopics metadataPresent_importedHashLog
    (decodeWords_encodeWords (oneWord_importedHash _ _))
  refine ⟨⟨metadata, hsmall ?_⟩, hlarge ⟨2 ^ 128, ?_, Nat.le_refl _⟩⟩
  · simp [importedHash, uints]
  · simp [importedHash, uints]

/-! ## Events that end with empty bytes -/

/-- `ethabi` where the last parameter is an empty `bytes`, behind words. -/
def decodeEmptyBytes (types : List ParamType) (data : List UInt8) : Except Error (List Token) := do
  let words ← decodeWords types.dropLast (data.take (32 * types.dropLast.length))
  return words ++ [.bytes []]

def encodeEmptyBytes (tokens : List Token) : List UInt8 :=
  encodeWords tokens.dropLast ++ bigEndian 32 (32 * tokens.length) ++ bigEndian 32 0

def emptyBytesCrates : Crates := { wordCrates with abiDecode := decodeEmptyBytes }

/-- Nothing else depends on the ABI codec. -/
theorem documented_withAbi {crates : Crates} (h : Documented crates)
    (abiDecode : List ParamType → List UInt8 → Except Error (List Token)) :
    Documented { crates with abiDecode } := ⟨h.hexEncode, h.hexDecode, h.u256FromHex⟩

/-- An assignment with fees and no parameters. -/
def sampleEmission : ContractEvent :=
  .messageAssigned ⟨List.replicate 32 0xa4, rfl⟩ ⟨List.replicate 20 0x2c, rfl⟩
    ⟨List.replicate 20 0xb6, rfl⟩ ⟨72727, by decide +kernel⟩ ⟨118694, by decide +kernel⟩ []

theorem decodeEmptyBytes_sampleEmission :
    decodeEmptyBytes (sampleEmission.dataTypes .indexedInTopics)
      (encodeEmptyBytes (sampleEmission.dataTokens .indexedInTopics)) =
      .ok (sampleEmission.dataTokens .indexedInTopics) := by
  have hfees : ∀ field ∈ [Field.uint ⟨72727, by decide +kernel⟩ false,
      Field.uint ⟨118694, by decide +kernel⟩ false], OneWord field := by
    intro field hfield
    rcases List.mem_pair.mp hfield with rfl | rfl <;> exact .uint _ _
  have hwords := decodeWords_encodeWords hfees
  have htake : (encodeEmptyBytes (sampleEmission.dataTokens .indexedInTopics)).take 64 =
      encodeWords [.uint 72727, .uint 118694] := rfl
  change (do
    let words ← decodeWords [.uint 256, .uint 256]
      ((encodeEmptyBytes (sampleEmission.dataTokens .indexedInTopics)).take 64)
    return words ++ [Token.bytes []]) = _
  rw [htake]
  exact congrArg (· >>= fun words => pure (words ++ [Token.bytes []])) hwords

end OrmpIndexer
