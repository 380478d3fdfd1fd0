/-
# OrmpIndexer.Decoder.Emission — decoding undoes emitting

What a contract emits, by the rules of its ABI: an event is a list of typed fields in declared order
(`ContractEvent.fields`); in one layout all of them are encoded into the data, in the other the indexed
ones are words of the topics and the data holds the rest (`emit`). This is written without looking at the
decoders, which read the fields by position (`Decoder.RoundTrip` compares the two). The lemmas below say
what each reader of a token or of a topic makes of a value.

The ABI codec is known through one property, that decoding the encoding of these tokens for these types
gives the tokens back. `Documented` is what is relied on of the other crates.
-/
import OrmpIndexer.Decoder.Evm
import OrmpIndexer.Foundation.Hex

namespace OrmpIndexer

open Foundation

/-! ## Contract events -/

/-- A 20-byte address. -/
structure Address where
  bytes : List UInt8
  length_bytes : bytes.length = 20

/-- A 32-byte word. -/
structure Word where
  bytes : List UInt8
  length_bytes : bytes.length = 32

/-- A `uint256`. -/
structure U256 where
  value : Nat
  value_lt : value < 2 ^ 256

/-- The seven events with the values a contract gives them. -/
inductive ContractEvent where
  | hashImported (oracle : Address) (chainId : U256) (channel : Address) (msgIndex : U256)
      (hash : Word)
  | messageAccepted (msgHash : Word) (channel : Address) (index fromChainId : U256)
      (fromAddress : Address) (toChainId : U256) (toAddress : Address) (gasLimit : U256)
      (encoded : List UInt8)
  | messageAssigned (msgHash : Word) (oracle relayer : Address) (oracleFee relayerFee : U256)
      (params : List UInt8)
  | messageDispatched (msgHash : Word) (dispatchResult : Bool)
  | msgportMessageRecv (msgId : Word) (result : Bool) (returnData : List UInt8)
  | msgportMessageSent (msgId : Word) (fromDapp : Address) (toChainId : U256) (toDapp : Address)
      (message params : List UInt8)
  | signatureSubmittion (chainId : U256) (channel signer : Address) (msgIndex : U256)
      (signature data : List UInt8)

/-- A parameter of an event: its type, its value, and whether it is declared `indexed`. -/
structure Field where
  type : ParamType
  token : Token
  indexed : Bool

def Field.address (a : Address) (indexed : Bool) : Field := ⟨.address, .address a.bytes, indexed⟩
def Field.word (w : Word) (indexed : Bool) : Field := ⟨.fixedBytes 32, .fixedBytes w.bytes, indexed⟩
def Field.uint (n : U256) (indexed : Bool) : Field := ⟨.uint 256, .uint n.value, indexed⟩
def Field.bool (b : Bool) : Field := ⟨.bool, .bool b, false⟩
def Field.bytes (b : List UInt8) : Field := ⟨.bytes, .bytes b, false⟩

/-- A struct, which is never indexed here. -/
def Field.tuple (components : List Field) : Field :=
  ⟨.tuple (components.map (·.type)), .tuple (components.map (·.token)), false⟩

namespace ContractEvent

/-- The parameters in declared order. -/
def fields : ContractEvent → List Field
  | hashImported oracle chainId channel msgIndex hash =>
      [.address oracle true, .uint chainId false, .address channel false, .uint msgIndex false,
        .word hash false]
  | messageAccepted msgHash channel index fromChainId fromAddress toChainId toAddress gasLimit
      encoded =>
      [.word msgHash true,
        .tuple [.address channel false, .uint index false, .uint fromChainId false,
          .address fromAddress false, .uint toChainId false, .address toAddress false,
          .uint gasLimit false, .bytes encoded]]
  | messageAssigned msgHash oracle relayer oracleFee relayerFee params =>
      [.word msgHash true, .address oracle true, .address relayer true, .uint oracleFee false,
        .uint relayerFee false, .bytes params]
  | messageDispatched msgHash dispatchResult => [.word msgHash true, .bool dispatchResult]
  | msgportMessageRecv msgId result returnData =>
      [.word msgId true, .bool result, .bytes returnData]
  | msgportMessageSent msgId fromDapp toChainId toDapp message params =>
      [.word msgId true, .address fromDapp false, .uint toChainId false, .address toDapp false,
        .bytes message, .bytes params]
  | signatureSubmittion chainId channel signer msgIndex signature data =>
      [.uint chainId true, .address channel true, .address signer true, .uint msgIndex false,
        .bytes signature, .bytes data]

/-- The hash of the event's signature. -/
def topic0 : ContractEvent → String
  | hashImported .. => ORMP_HASH_IMPORTED_TOPIC
  | messageAccepted .. => ORMP_MESSAGE_ACCEPTED_TOPIC
  | messageAssigned .. => ORMP_MESSAGE_ASSIGNED_TOPIC
  | messageDispatched .. => ORMP_MESSAGE_DISPATCHED_TOPIC
  | msgportMessageRecv .. => MSGPORT_MESSAGE_RECV_TOPIC
  | msgportMessageSent .. => MSGPORT_MESSAGE_SENT_TOPIC
  | signatureSubmittion .. => SIGNATURE_PUB_SIGNATURE_SUBMITTION_TOPIC

/-- The unsigned integers of the event. -/
def uints : ContractEvent → List Nat
  | hashImported _ chainId _ msgIndex _ => [chainId.value, msgIndex.value]
  | messageAccepted _ _ index fromChainId _ toChainId _ gasLimit _ =>
      [index.value, fromChainId.value, toChainId.value, gasLimit.value]
  | messageAssigned _ _ _ oracleFee relayerFee _ => [oracleFee.value, relayerFee.value]
  | messageDispatched .. => []
  | msgportMessageRecv .. => []
  | msgportMessageSent _ _ toChainId _ _ _ => [toChainId.value]
  | signatureSubmittion chainId _ _ msgIndex _ _ => [chainId.value, msgIndex.value]

/-- The lower-case spelling of some bytes, with `0x`. -/
def spelled (bytes : List UInt8) : String := "0x" ++ String.ofList (hexChars bytes)

/-- The event as the indexer knows it. -/
def decoded (metadata : ChainLogMetadata) : ContractEvent → LegacyOrmPEvent
  | hashImported oracle chainId channel msgIndex hash => .hashImported {
      metadata
      srcChainId := chainId.value
      targetChainId := metadata.chainId
      oracle := spelled oracle.bytes
      channel := spelled channel.bytes
      msgIndex := msgIndex.value
      hash := spelled hash.bytes }
  | messageAccepted msgHash channel index fromChainId fromAddress toChainId toAddress gasLimit
      encoded => .messageAccepted {
      metadata
      msgHash := spelled msgHash.bytes
      channel := spelled channel.bytes
      index := index.value
      fromChainId := fromChainId.value
      fromAddress := spelled fromAddress.bytes
      toChainId := toChainId.value
      toAddress := spelled toAddress.bytes
      gasLimit := gasLimit.value
      encoded := spelled encoded }
  | messageAssigned msgHash oracle relayer oracleFee relayerFee params => .messageAssigned {
      metadata
      msgHash := spelled msgHash.bytes
      oracle := spelled oracle.bytes
      relayer := spelled relayer.bytes
      oracleFee := oracleFee.value
      relayerFee := relayerFee.value
      params := spelled params }
  | messageDispatched msgHash dispatchResult => .messageDispatched {
      metadata
      targetChainId := metadata.chainId
      msgHash := spelled msgHash.bytes
      dispatchResult }
  | msgportMessageRecv msgId result returnData => .msgportMessageRecv {
      metadata
      msgId := spelled msgId.bytes
      result
      returnData := spelled returnData }
  | msgportMessageSent msgId fromDapp toChainId toDapp message params => .msgportMessageSent {
      metadata
      msgId := spelled msgId.bytes
      fromDapp := spelled fromDapp.bytes
      toChainId := toChainId.value
      toDapp := spelled toDapp.bytes
      message := spelled message
      params := spelled params }
  | signatureSubmittion chainId channel signer msgIndex signature data => .signatureSubmittion {
      metadata
      chainId := chainId.value
      channel := spelled channel.bytes
      signer := spelled signer.bytes
      msgIndex := msgIndex.value
      signature := spelled signature
      data := spelled data }

end ContractEvent

/-! ## Logs -/

/-- Where the indexed parameters are. -/
inductive LogLayout where
  | allInData
  | indexedInTopics
deriving DecidableEq, Repr

/-- The word of an indexed parameter. No event indexes a parameter of another type. -/
def topicWord : Token → List UInt8
  | .address value => List.replicate 12 0 ++ value
  | .uint value => bigEndian 32 value
  | .fixedBytes value => value
  | _ => []

namespace ContractEvent

/-- The parameters in the data. -/
def dataFields (layout : LogLayout) (event : ContractEvent) : List Field :=
  match layout with
  | .allInData => event.fields
  | .indexedInTopics => event.fields.filter fun field => !field.indexed

/-- The parameters in the topics. -/
def topicFields (layout : LogLayout) (event : ContractEvent) : List Field :=
  match layout with
  | .allInData => []
  | .indexedInTopics => event.fields.filter (·.indexed)

def dataTypes (layout : LogLayout) (event : ContractEvent) : List ParamType :=
  (event.dataFields layout).map (·.type)

def dataTokens (layout : LogLayout) (event : ContractEvent) : List Token :=
  (event.dataFields layout).map (·.token)

def topics (layout : LogLayout) (event : ContractEvent) : List String :=
  event.topic0 :: (event.topicFields layout).map fun field => spelled (topicWord field.token)

/-- The log of an event, at the place of `log`. -/
def emit (encode : List Token → List UInt8) (layout : LogLayout) (event : ContractEvent)
    (log : DatalensLog) : DatalensLog :=
  { log with
    topics := event.topics layout
    data := spelled (encode (event.dataTokens layout)) }

end ContractEvent

/-- What is relied on of `hex` and of `U256::from_str_radix`: lower-case digits are written, they are
read back, and 64 of them are read as a big-endian number. -/
structure Documented (crates : Crates) : Prop where
  hexEncode : ∀ bytes, crates.hexEncode bytes = String.ofList (hexChars bytes)
  hexDecode : ∀ bytes, crates.hexDecode (String.ofList (hexChars bytes)) = .ok bytes
  u256FromHex : ∀ value, value < 2 ^ 256 →
    crates.u256FromHex (String.ofList (hexChars (bigEndian 32 value))) = .ok value

/-! ## Texts -/

section

open ContractEvent

theorem spelled_eq (bytes : List UInt8) :
    spelled bytes = String.ofList ('0' :: 'x' :: hexChars bytes) := by
  rw [spelled, show '0' :: 'x' :: hexChars bytes = ['0', 'x'] ++ hexChars bytes from rfl,
    String.ofList_append]

theorem toList_spelled (bytes : List UInt8) :
    (spelled bytes).toList = '0' :: 'x' :: hexChars bytes := by
  rw [spelled_eq, String.toList_ofList]

theorem trim_eq_self {s : List Char} (h : ∀ c ∈ s, isWhitespace c = false) : trim s = s := by
  have keep : ∀ l : List Char, (∀ c ∈ l, isWhitespace c = false) → l.dropWhile isWhitespace = l := by
    intro l hl
    cases l with
    | nil => rfl
    | cons c l => rw [List.dropWhile_cons_of_neg (by simp [hl c List.mem_cons_self])]
  rw [trim, keep s h, keep s.reverse fun c hc => h c (List.mem_reverse.mp hc), List.reverse_reverse]

/-- A digit that normalising leaves alone. -/
def NormalDigit (c : Char) : Prop :=
  c.isHexDigit = true ∧ c.toLower = c ∧ isWhitespace c = false

instance : DecidablePred NormalDigit := fun c =>
  inferInstanceAs (Decidable (c.isHexDigit = true ∧ c.toLower = c ∧ isWhitespace c = false))

theorem normalDigit_of_mem_hexChars {bytes : List UInt8} : ∀ c ∈ hexChars bytes, NormalDigit c :=
  forall_mem_hexChars (by decide) bytes

theorem trim_prefixed {digits : List Char} (h : ∀ c ∈ digits, NormalDigit c) :
    trim ('0' :: 'x' :: digits) = '0' :: 'x' :: digits := by
  apply trim_eq_self
  intro c hc
  rcases List.mem_cons.mp hc with rfl | hc
  · rfl
  rcases List.mem_cons.mp hc with rfl | hc
  · rfl
  · exact (h c hc).2.2

/-- A normal text is normalised to itself. -/
theorem normalizeHex_ofList {digits : List Char} (h : ∀ c ∈ digits, NormalDigit c) :
    normalizeHex (String.ofList ('0' :: 'x' :: digits)) =
      .ok (String.ofList ('0' :: 'x' :: digits)) := by
  have hdigits : digits.all Char.isHexDigit = true := List.all_eq_true.mpr fun c hc => (h c hc).1
  have lower : toAsciiLowercase (String.ofList digits) = String.ofList digits := by
    have same : ∀ c ∈ digits, c.toLower = id c := fun c hc => (h c hc).2.1
    rw [toAsciiLowercase, String.toList_ofList, List.map_congr_left same, List.map_id]
  rw [normalizeHex, String.toList_ofList, trim_prefixed h]
  show (do ensure (digits.all Char.isHexDigit) "invalid hex value"
           return "0x" ++ toAsciiLowercase (String.ofList digits)) = _
  rw [hdigits, lower, show '0' :: 'x' :: digits = ['0', 'x'] ++ digits from rfl,
    String.ofList_append]
  rfl

theorem normalizeHex_spelled (bytes : List UInt8) :
    normalizeHex (spelled bytes) = .ok (spelled bytes) := by
  rw [spelled_eq]
  exact normalizeHex_ofList normalDigit_of_mem_hexChars

variable {crates : Crates} (documented : Documented crates)

include documented in
theorem decodeHex_spelled (bytes : List UInt8) : decodeHex crates (spelled bytes) = .ok bytes := by
  rw [decodeHex, toList_spelled, trim_prefixed normalDigit_of_mem_hexChars]
  exact documented.hexDecode bytes

/-! ## Tokens and topics -/

include documented in
theorem tokenAddress_eq (a : Address) :
    tokenAddress crates (.address a.bytes) = .ok (spelled a.bytes) := by
  rw [tokenAddress, documented.hexEncode]
  rfl

include documented in
theorem tokenFixedBytes_eq (w : Word) :
    tokenFixedBytes crates (.fixedBytes w.bytes) = .ok (spelled w.bytes) := by
  rw [tokenFixedBytes, documented.hexEncode]
  rfl

include documented in
theorem tokenBytes_eq (b : List UInt8) : tokenBytes crates (.bytes b) = .ok (spelled b) := by
  rw [tokenBytes, documented.hexEncode]
  rfl

theorem tokenUint_eq_ok {n : U256} {m : Nat} :
    tokenUint (.uint n.value) = .ok m ↔ m = n.value ∧ n.value < 2 ^ 128 := by
  rw [tokenUint]
  split
  · rename_i h
    rw [Except.ok.injEq]
    constructor
    · intro hm
      exact ⟨hm.symm, h⟩
    · intro hm
      exact hm.1.symm
  · rename_i h
    exact iff_of_false (by simp) fun hm => h hm.2

theorem hexDigits_spelled (bytes : List UInt8) :
    hexDigits (spelled bytes) = .ok (hexChars bytes) := by
  rw [hexDigits, toList_spelled]
  rfl

theorem topicFixedBytes_eq {topics : List String} {index : Nat} {w : Word}
    (h : topics[index]? = some (spelled w.bytes)) (name : String) :
    topicFixedBytes topics index name = .ok (spelled w.bytes) := by
  have length : (spelled w.bytes).toList.length = 66 := by
    rw [toList_spelled, List.length_cons, List.length_cons, length_hexChars, w.length_bytes]
  simp only [topicFixedBytes, h, bind_eq_ok, contextOption_eq_ok]
  exact ⟨_, rfl, _, normalizeHex_spelled _, (), by rw [length]; rfl, rfl⟩

theorem topicAddress_eq {topics : List String} {index : Nat} {a : Address}
    (h : topics[index]? = some (spelled (topicWord (.address a.bytes)))) (name : String) :
    topicAddress topics index name = .ok (spelled a.bytes) := by
  have length : (hexChars (topicWord (.address a.bytes))).length = 64 := by
    rw [length_hexChars, topicWord, List.length_append, List.length_replicate, a.length_bytes]
  have last : (hexChars (topicWord (.address a.bytes))).drop 24 = hexChars a.bytes := by
    rw [topicWord, hexChars_append]
    exact List.drop_left' (by rw [length_hexChars, List.length_replicate])
  simp only [topicAddress, h, bind_eq_ok, contextOption_eq_ok]
  refine ⟨_, rfl, _, normalizeHex_spelled _, _, hexDigits_spelled _, (), by rw [length]; rfl, ?_⟩
  rw [last]
  rfl

theorem topicUint_eq_ok_of_digits {topics : List String} {index n m : Nat} {topic : String}
    {digits : List Char} (h : topics[index]? = some topic) (hnormal : normalizeHex topic = .ok topic)
    (hdigits : hexDigits topic = .ok digits)
    (hvalue : crates.u256FromHex (String.ofList digits) = .ok n) (name : String) :
    topicUint crates topics index name = .ok m ↔ m = n ∧ n < 2 ^ 128 := by
  simp only [topicUint, h, bind_eq_ok, contextOption_eq_ok]
  constructor
  · rintro ⟨_, htopic, _, hnormal', _, hdigits', value, hvalue', _, hsmall, hm⟩
    obtain rfl := Option.some.inj htopic
    obtain rfl := Except.ok.inj (hnormal.symm.trans hnormal')
    obtain rfl := Except.ok.inj (hdigits.symm.trans hdigits')
    obtain rfl := Except.ok.inj (hvalue.symm.trans hvalue')
    rw [ensure] at hsmall
    split at hsmall
    · rename_i hlt
      exact ⟨(Except.ok.inj hm).symm, of_decide_eq_true hlt⟩
    · cases hsmall
  · rintro ⟨rfl, hlt⟩
    refine ⟨_, rfl, _, hnormal, _, hdigits, _, hvalue, (), ?_, rfl⟩
    rw [ensure, if_pos (decide_eq_true hlt)]

include documented in
theorem topicUint_eq_ok {topics : List String} {index : Nat} {n : U256}
    (h : topics[index]? = some (spelled (topicWord (.uint n.value)))) (name : String) {m : Nat} :
    topicUint crates topics index name = .ok m ↔ m = n.value ∧ n.value < 2 ^ 128 :=
  topicUint_eq_ok_of_digits h (normalizeHex_spelled _) (hexDigits_spelled _)
    (documented.u256FromHex n.value n.value_lt) name

/-! ## Reading the tokens from left to right -/

theorem run'_take (name : String) (f : Token → Tokens LegacyOrmPEvent) (t : Token) (ts : List Token) :
    (take name >>= f).run' (t :: ts) = (f t).run' ts := rfl

theorem run'_lift {α : Type} (x : Except Error α) (f : α → Tokens LegacyOrmPEvent) (ts : List Token)
    {e : LegacyOrmPEvent} :
    ((liftM x : Tokens α) >>= f).run' ts = .ok e ↔ ∃ a, x = .ok a ∧ (f a).run' ts = .ok e := by
  cases x with
  | ok a =>
      constructor
      · intro h
        exact ⟨a, rfl, h⟩
      · rintro ⟨b, hb, h⟩
        cases hb
        exact h
  | error m => exact iff_of_false (by intro h; cases h) fun ⟨_, h, _⟩ => nomatch h

theorem run'_pure {e e' : LegacyOrmPEvent} (ts : List Token) :
    (pure e' : Tokens LegacyOrmPEvent).run' ts = .ok e ↔ e = e' := by
  show Except.ok e' = Except.ok e ↔ _
  rw [Except.ok.injEq, eq_comm]

end

end OrmpIndexer
