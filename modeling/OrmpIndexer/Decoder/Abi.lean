/-
# OrmpIndexer.Decoder.Abi — the seven event decoders

`decoder/abi.rs`. The ABI decoder, the hex codec and the 256-bit integer parser are third-party crates
and stay parameters (`Crates`); everything the source does with their results is here. A decoder reads
the tokens from left to right (`Tokens`), each event in one of two layouts: with its indexed fields in
the topics, or with all fields in the data.

Whatever a decoder reads, the event it returns carries the metadata it was given
(`decodeHashImported_metadata` and its six siblings).
-/
import OrmpIndexer.Schema.Types

namespace OrmpIndexer

open Foundation

/-! ## Third-party crates -/

/-- The ABI types the decoders ask for. -/
inductive ParamType where
  | address
  | bytes
  | bool
  | uint (bits : Nat)
  | fixedBytes (size : Nat)
  | tuple (components : List ParamType)

/-- ABI values. `other` stands for the kinds no decoder accepts. -/
inductive Token where
  | address (value : List UInt8)
  | fixedBytes (value : List UInt8)
  | bytes (value : List UInt8)
  | bool (value : Bool)
  | uint (value : Nat)
  | tuple (components : List Token)
  | other

/-- What the decoder takes from `ethabi` and `hex`. -/
structure Crates where
  /-- `ethabi::decode` -/
  abiDecode : List ParamType → List UInt8 → Except Error (List Token)
  /-- `hex::encode` -/
  hexEncode : List UInt8 → String
  /-- `hex::decode` -/
  hexDecode : String → Except Error (List UInt8)
  /-- `U256::from_str_radix(_, 16)` -/
  u256FromHex : String → Except Error Nat

/-! ## Hex texts -/

/-- Hex in lower case with `0x`, white space around it removed. -/
def normalizeHex (value : String) : Except Error String := do
  let value := stripHexPrefix (trim value.toList)
  ensure (value.all Char.isHexDigit) "invalid hex value"
  return "0x" ++ toAsciiLowercase (String.ofList value)

/-- Seconds become milliseconds; the source decides by magnitude. -/
def normalizeBlockTimestamp (value : Nat) : Option Nat :=
  if 1000000000 ≤ value ∧ value < 10000000000 then
    if value * 1000 ≤ u64Max then some (value * 1000) else none
  else some value

def decodeHex (crates : Crates) (value : String) : Except Error (List UInt8) :=
  crates.hexDecode (String.ofList (stripHexPrefix (trim value.toList)))

/-! ## Tokens -/

/-- A computation that consumes the decoded tokens. -/
abbrev Tokens := StateT (List Token) (Except Error)

/-- The next token, an error if there is none. -/
def take (name : String) : Tokens Token := fun tokens =>
  match tokens with
  | [] => .error [s!"ABI token {name} is missing"]
  | token :: rest => .ok (token, rest)

section

variable (crates : Crates)

def decodeEvent (types : List ParamType) (data : List UInt8) : Except Error (List Token) :=
  context "decode ABI event data" (crates.abiDecode types data)

def tokenAddress : Token → Except Error String
  | .address value => .ok ("0x" ++ crates.hexEncode value)
  | _ => .error ["ABI token is not an address"]

def tokenFixedBytes : Token → Except Error String
  | .fixedBytes value => .ok ("0x" ++ crates.hexEncode value)
  | _ => .error ["ABI token is not fixed bytes"]

def tokenBytes : Token → Except Error String
  | .bytes value => .ok ("0x" ++ crates.hexEncode value)
  | _ => .error ["ABI token is not bytes"]

def tokenBool : Token → Except Error Bool
  | .bool value => .ok value
  | _ => .error ["ABI token is not bool"]

def tokenUint : Token → Except Error Nat
  | .uint value => if value < 2 ^ 128 then .ok value else .error ["ABI uint overflows u128"]
  | _ => .error ["ABI token is not uint"]

/-! ## Indexed topics -/

def topicFixedBytes (topics : List String) (index : Nat) (name : String) : Except Error String := do
  let topic ← contextOption s!"EVM indexed topic {name} is missing" topics[index]?
  let topic ← normalizeHex topic
  ensure (topic.toList.length = 66) s!"EVM indexed topic {name} must be 32 bytes"
  return topic

/-- The digits of a normalised hex text. -/
def hexDigits (topic : String) : Except Error (List Char) :=
  match topic.toList with
  | '0' :: 'x' :: digits => .ok digits
  | _ => .error ["normalized topic is missing 0x prefix"]

def topicAddress (topics : List String) (index : Nat) (name : String) : Except Error String := do
  let topic ← contextOption s!"EVM indexed topic {name} is missing" topics[index]?
  let address ← hexDigits (← normalizeHex topic)
  ensure (address.length = 64) s!"EVM indexed topic {name} must be 32 bytes"
  return "0x" ++ String.ofList (address.drop 24)

def topicUint (topics : List String) (index : Nat) (name : String) : Except Error Nat := do
  let topic ← contextOption s!"EVM indexed topic {name} is missing" topics[index]?
  let digits ← hexDigits (← normalizeHex topic)
  let value ← crates.u256FromHex (String.ofList digits)
  ensure (value < 2 ^ 128) s!"EVM indexed topic {name} overflows u128"
  return value

/-! ## Events -/

/-- One decoder for each event. The layout of its topics is told by their number where there are two. -/
def decodeHashImported (metadata : ChainLogMetadata) (topics : List String) (data : List UInt8) :
    Except Error LegacyOrmPEvent :=
  if 1 < topics.length then do
    let tokens ← decodeEvent crates [.uint 256, .address, .uint 256, .fixedBytes 32] data
    let fields : Tokens LegacyOrmPEvent := do
      let oracle ← topicAddress topics 1 "oracle"
      let srcChainId ← tokenUint (← take "chainId")
      let channel ← tokenAddress crates (← take "channel")
      let msgIndex ← tokenUint (← take "msgIndex")
      let hash ← tokenFixedBytes crates (← take "hash")
      return .hashImported
        { metadata, srcChainId, targetChainId := metadata.chainId, oracle, channel, msgIndex, hash }
    fields.run' tokens
  else do
    let tokens ← decodeEvent crates [.address, .uint 256, .address, .uint 256, .fixedBytes 32] data
    let fields : Tokens LegacyOrmPEvent := do
      let oracle ← tokenAddress crates (← take "oracle")
      let srcChainId ← tokenUint (← take "chainId")
      let channel ← tokenAddress crates (← take "channel")
      let msgIndex ← tokenUint (← take "msgIndex")
      let hash ← tokenFixedBytes crates (← take "hash")
      return .hashImported
        { metadata, srcChainId, targetChainId := metadata.chainId, oracle, channel, msgIndex, hash }
    fields.run' tokens

/-- The components of the `Message` struct of the contract. -/
def messageComponents : ParamType :=
  .tuple [.address, .uint 256, .uint 256, .address, .uint 256, .address, .uint 256, .bytes]

/-- Both layouts of MessageAccepted read the message itself from the same tuple. -/
def messageFields (metadata : ChainLogMetadata) (msgHash : Except Error String) (message : Token) :
    Except Error LegacyOrmPEvent :=
  match message with
  | .tuple message => do
      ensure (message.length = 8) "message tuple must contain 8 fields"
      let fields : Tokens LegacyOrmPEvent := do
        let msgHash ← msgHash
        let channel ← tokenAddress crates (← take "message.channel")
        let index ← tokenUint (← take "message.index")
        let fromChainId ← tokenUint (← take "message.fromChainId")
        let fromAddress ← tokenAddress crates (← take "message.from")
        let toChainId ← tokenUint (← take "message.toChainId")
        let toAddress ← tokenAddress crates (← take "message.to")
        let gasLimit ← tokenUint (← take "message.gasLimit")
        let encoded ← tokenBytes crates (← take "message.encoded")
        return .messageAccepted
          { metadata, msgHash, channel, index, fromChainId, fromAddress, toChainId, toAddress,
            gasLimit, encoded }
      fields.run' message
  | _ => .error ["message is not an ABI tuple"]

def decodeMessageAccepted (metadata : ChainLogMetadata) (topics : List String)
    (data : List UInt8) : Except Error LegacyOrmPEvent :=
  if 1 < topics.length then do
    let tokens ← decodeEvent crates [messageComponents] data
    let (message, _) ← (take "message").run tokens
    messageFields crates metadata (topicFixedBytes topics 1 "msgHash") message
  else do
    let tokens ← decodeEvent crates [.fixedBytes 32, messageComponents] data
    let (msgHash, tokens) ← (take "msgHash").run tokens
    let msgHash ← tokenFixedBytes crates msgHash
    let (message, _) ← (take "message").run tokens
    messageFields crates metadata (.ok msgHash) message

def decodeMessageAssigned (metadata : ChainLogMetadata) (topics : List String)
    (data : List UInt8) : Except Error LegacyOrmPEvent :=
  if 3 < topics.length then do
    let tokens ← decodeEvent crates [.uint 256, .uint 256, .bytes] data
    let fields : Tokens LegacyOrmPEvent := do
      let msgHash ← topicFixedBytes topics 1 "msgHash"
      let oracle ← topicAddress topics 2 "oracle"
      let relayer ← topicAddress topics 3 "relayer"
      let oracleFee ← tokenUint (← take "oracleFee")
      let relayerFee ← tokenUint (← take "relayerFee")
      let params ← tokenBytes crates (← take "params")
      return .messageAssigned { metadata, msgHash, oracle, relayer, oracleFee, relayerFee, params }
    fields.run' tokens
  else do
    let tokens ← decodeEvent crates
      [.fixedBytes 32, .address, .address, .uint 256, .uint 256, .bytes] data
    let fields : Tokens LegacyOrmPEvent := do
      let msgHash ← tokenFixedBytes crates (← take "msgHash")
      let oracle ← tokenAddress crates (← take "oracle")
      let relayer ← tokenAddress crates (← take "relayer")
      let oracleFee ← tokenUint (← take "oracleFee")
      let relayerFee ← tokenUint (← take "relayerFee")
      let params ← tokenBytes crates (← take "params")
      return .messageAssigned { metadata, msgHash, oracle, relayer, oracleFee, relayerFee, params }
    fields.run' tokens

def decodeMessageDispatched (metadata : ChainLogMetadata) (topics : List String)
    (data : List UInt8) : Except Error LegacyOrmPEvent :=
  if 1 < topics.length then do
    let tokens ← decodeEvent crates [.bool] data
    let fields : Tokens LegacyOrmPEvent := do
      let msgHash ← topicFixedBytes topics 1 "msgHash"
      let dispatchResult ← tokenBool (← take "dispatchResult")
      return .messageDispatched
        { metadata, targetChainId := metadata.chainId, msgHash, dispatchResult }
    fields.run' tokens
  else do
    let tokens ← decodeEvent crates [.fixedBytes 32, .bool] data
    let fields : Tokens LegacyOrmPEvent := do
      let msgHash ← tokenFixedBytes crates (← take "msgHash")
      let dispatchResult ← tokenBool (← take "dispatchResult")
      return .messageDispatched
        { metadata, targetChainId := metadata.chainId, msgHash, dispatchResult }
    fields.run' tokens

def decodeMsgportMessageRecv (metadata : ChainLogMetadata) (topics : List String)
    (data : List UInt8) : Except Error LegacyOrmPEvent :=
  if 1 < topics.length then do
    let tokens ← decodeEvent crates [.bool, .bytes] data
    let fields : Tokens LegacyOrmPEvent := do
      let msgId ← topicFixedBytes topics 1 "msgId"
      let result ← tokenBool (← take "result")
      let returnData ← tokenBytes crates (← take "returnData")
      return .msgportMessageRecv { metadata, msgId, result, returnData }
    fields.run' tokens
  else do
    let tokens ← decodeEvent crates [.fixedBytes 32, .bool, .bytes] data
    let fields : Tokens LegacyOrmPEvent := do
      let msgId ← tokenFixedBytes crates (← take "msgId")
      let result ← tokenBool (← take "result")
      let returnData ← tokenBytes crates (← take "returnData")
      return .msgportMessageRecv { metadata, msgId, result, returnData }
    fields.run' tokens

def decodeMsgportMessageSent (metadata : ChainLogMetadata) (topics : List String)
    (data : List UInt8) : Except Error LegacyOrmPEvent :=
  if 1 < topics.length then do
    let tokens ← decodeEvent crates [.address, .uint 256, .address, .bytes, .bytes] data
    let fields : Tokens LegacyOrmPEvent := do
      let msgId ← topicFixedBytes topics 1 "msgId"
      let fromDapp ← tokenAddress crates (← take "fromDapp")
      let toChainId ← tokenUint (← take "toChainId")
      let toDapp ← tokenAddress crates (← take "toDapp")
      let message ← tokenBytes crates (← take "message")
      let params ← tokenBytes crates (← take "params")
      return .msgportMessageSent { metadata, msgId, fromDapp, toChainId, toDapp, message, params }
    fields.run' tokens
  else do
    let tokens ← decodeEvent crates
      [.fixedBytes 32, .address, .uint 256, .address, .bytes, .bytes] data
    let fields : Tokens LegacyOrmPEvent := do
      let msgId ← tokenFixedBytes crates (← take "msgId")
      let fromDapp ← tokenAddress crates (← take "fromDapp")
      let toChainId ← tokenUint (← take "toChainId")
      let toDapp ← tokenAddress crates (← take "toDapp")
      let message ← tokenBytes crates (← take "message")
      let params ← tokenBytes crates (← take "params")
      return .msgportMessageSent { metadata, msgId, fromDapp, toChainId, toDapp, message, params }
    fields.run' tokens

def decodeSignatureSubmittion (metadata : ChainLogMetadata) (topics : List String)
    (data : List UInt8) : Except Error LegacyOrmPEvent :=
  if 3 < topics.length then do
    let tokens ← decodeEvent crates [.uint 256, .bytes, .bytes] data
    let fields : Tokens LegacyOrmPEvent := do
      let chainId ← topicUint crates topics 1 "chainId"
      let channel ← topicAddress topics 2 "channel"
      let signer ← topicAddress topics 3 "signer"
      let msgIndex ← tokenUint (← take "msgIndex")
      let signature ← tokenBytes crates (← take "signature")
      let data ← tokenBytes crates (← take "data")
      return .signatureSubmittion { metadata, chainId, channel, signer, msgIndex, signature, data }
    fields.run' tokens
  else do
    let tokens ← decodeEvent crates
      [.uint 256, .address, .address, .uint 256, .bytes, .bytes] data
    let fields : Tokens LegacyOrmPEvent := do
      let chainId ← tokenUint (← take "chainId")
      let channel ← tokenAddress crates (← take "channel")
      let signer ← tokenAddress crates (← take "signer")
      let msgIndex ← tokenUint (← take "msgIndex")
      let signature ← tokenBytes crates (← take "signature")
      let data ← tokenBytes crates (← take "data")
      return .signatureSubmittion { metadata, chainId, channel, signer, msgIndex, signature, data }
    fields.run' tokens

/-! ## What holds of every decoded event -/

/-- A successful decoder returns an event with this property. -/
def Yields (P : LegacyOrmPEvent → Prop) (r : Except Error LegacyOrmPEvent) : Prop :=
  ∀ e, r = .ok e → P e

/-- The same for a decoder that still reads tokens. -/
def Tokens.Yields (P : LegacyOrmPEvent → Prop) (x : Tokens LegacyOrmPEvent) : Prop :=
  ∀ tokens, OrmpIndexer.Yields P (x.run' tokens)

variable {P : LegacyOrmPEvent → Prop}

theorem Yields.bind {α : Type} {r : Except Error α} {f : α → Except Error LegacyOrmPEvent}
    (h : ∀ a, Yields P (f a)) : Yields P (r >>= f) := fun e he => by
  obtain ⟨a, _, ha⟩ := bind_eq_ok.mp he
  exact h a e ha

theorem Tokens.Yields.bind {α : Type} {x : Tokens α} {f : α → Tokens LegacyOrmPEvent}
    (h : ∀ a, (f a).Yields P) : (x >>= f).Yields P := fun tokens e he => by
  simp only [StateT.run', StateT.bind, Bind.bind] at he
  cases hx : x tokens with
  | error m => simp [hx, Except.bind, Functor.map, Except.map] at he
  | ok p =>
      simp only [hx, Except.bind] at he
      exact h p.1 p.2 e he

theorem Tokens.Yields.pure {e : LegacyOrmPEvent} (h : P e) :
    Tokens.Yields P (Pure.pure e) := fun tokens e' he => by
  cases he
  exact h

/-! ## Events carry the metadata they are given -/

/-- A successful decoder returns an event with this metadata. -/
def Carries (metadata : ChainLogMetadata) (r : Except Error LegacyOrmPEvent) : Prop :=
  ∀ e, r = .ok e → e.metadata = metadata

/-- The same for a decoder that still reads tokens. -/
def Tokens.Carries (metadata : ChainLogMetadata) (x : Tokens LegacyOrmPEvent) : Prop :=
  ∀ tokens, OrmpIndexer.Carries metadata (x.run' tokens)

variable {metadata : ChainLogMetadata}

theorem Carries.bind {α : Type} {r : Except Error α} {f : α → Except Error LegacyOrmPEvent}
    (h : ∀ a, Carries metadata (f a)) : Carries metadata (r >>= f) :=
  Yields.bind (P := (·.metadata = metadata)) h

theorem Tokens.Carries.bind {α : Type} {x : Tokens α} {f : α → Tokens LegacyOrmPEvent}
    (h : ∀ a, (f a).Carries metadata) : (x >>= f).Carries metadata :=
  Tokens.Yields.bind (P := (·.metadata = metadata)) h

theorem Tokens.Carries.pure {e : LegacyOrmPEvent} (h : e.metadata = metadata) :
    Tokens.Carries metadata (Pure.pure e) :=
  Tokens.Yields.pure (P := (·.metadata = metadata)) h

theorem decodeHashImported_metadata (topics : List String) (data : List UInt8) :
    Carries metadata (decodeHashImported crates metadata topics data) := by
  unfold decodeHashImported
  split
  all_goals
    refine Carries.bind fun tokens => Tokens.Carries.bind (fun _ => ?_) tokens
    repeat refine Tokens.Carries.bind fun _ => ?_
    exact Tokens.Carries.pure rfl

theorem messageFields_metadata (msgHash : Except Error String) (message : Token) :
    Carries metadata (messageFields crates metadata msgHash message) := by
  unfold messageFields
  split
  · refine Carries.bind fun _ => Tokens.Carries.bind (fun _ => ?_) _
    repeat refine Tokens.Carries.bind fun _ => ?_
    exact Tokens.Carries.pure rfl
  · intro e he
    cases he

theorem decodeMessageAccepted_metadata (topics : List String) (data : List UInt8) :
    Carries metadata (decodeMessageAccepted crates metadata topics data) := by
  unfold decodeMessageAccepted
  split
  · exact Carries.bind fun _ => Carries.bind fun _ => messageFields_metadata crates _ _
  · exact Carries.bind fun _ => Carries.bind fun _ => Carries.bind fun _ => Carries.bind fun _ =>
      messageFields_metadata crates _ _

theorem decodeMessageAssigned_metadata (topics : List String) (data : List UInt8) :
    Carries metadata (decodeMessageAssigned crates metadata topics data) := by
  unfold decodeMessageAssigned
  split
  all_goals
    refine Carries.bind fun tokens => Tokens.Carries.bind (fun _ => ?_) tokens
    repeat refine Tokens.Carries.bind fun _ => ?_
    exact Tokens.Carries.pure rfl

theorem decodeMessageDispatched_metadata (topics : List String) (data : List UInt8) :
    Carries metadata (decodeMessageDispatched crates metadata topics data) := by
  unfold decodeMessageDispatched
  split
  all_goals
    refine Carries.bind fun tokens => Tokens.Carries.bind (fun _ => ?_) tokens
    repeat refine Tokens.Carries.bind fun _ => ?_
    exact Tokens.Carries.pure rfl

theorem decodeMsgportMessageRecv_metadata (topics : List String) (data : List UInt8) :
    Carries metadata (decodeMsgportMessageRecv crates metadata topics data) := by
  unfold decodeMsgportMessageRecv
  split
  all_goals
    refine Carries.bind fun tokens => Tokens.Carries.bind (fun _ => ?_) tokens
    repeat refine Tokens.Carries.bind fun _ => ?_
    exact Tokens.Carries.pure rfl

theorem decodeMsgportMessageSent_metadata (topics : List String) (data : List UInt8) :
    Carries metadata (decodeMsgportMessageSent crates metadata topics data) := by
  unfold decodeMsgportMessageSent
  split
  all_goals
    refine Carries.bind fun tokens => Tokens.Carries.bind (fun _ => ?_) tokens
    repeat refine Tokens.Carries.bind fun _ => ?_
    exact Tokens.Carries.pure rfl

theorem decodeSignatureSubmittion_metadata (topics : List String) (data : List UInt8) :
    Carries metadata (decodeSignatureSubmittion crates metadata topics data) := by
  unfold decodeSignatureSubmittion
  split
  all_goals
    refine Carries.bind fun tokens => Tokens.Carries.bind (fun _ => ?_) tokens
    repeat refine Tokens.Carries.bind fun _ => ?_
    exact Tokens.Carries.pure rfl

/-! ## Events of one kind -/

/-- The three kinds of event that a recovery reads. -/
def IsMessageAccepted (e : LegacyOrmPEvent) : Prop := ∃ a, e = .messageAccepted a
def IsMessageAssigned (e : LegacyOrmPEvent) : Prop := ∃ a, e = .messageAssigned a
def IsMsgportMessageSent (e : LegacyOrmPEvent) : Prop := ∃ m, e = .msgportMessageSent m

theorem decodeMessageAccepted_kind (metadata : ChainLogMetadata) (topics : List String)
    (data : List UInt8) :
    Yields IsMessageAccepted (decodeMessageAccepted crates metadata topics data) := by
  have hfields : ∀ msgHash message,
      Yields IsMessageAccepted (messageFields crates metadata msgHash message) := by
    intro msgHash message
    unfold messageFields
    split
    · refine Yields.bind fun _ => Tokens.Yields.bind (fun _ => ?_) _
      repeat refine Tokens.Yields.bind fun _ => ?_
      exact Tokens.Yields.pure ⟨_, rfl⟩
    · intro e he
      cases he
  unfold decodeMessageAccepted
  split
  · exact Yields.bind fun _ => Yields.bind fun _ => hfields _ _
  · exact Yields.bind fun _ => Yields.bind fun _ => Yields.bind fun _ => Yields.bind fun _ =>
      hfields _ _

theorem decodeMessageAssigned_kind (metadata : ChainLogMetadata) (topics : List String)
    (data : List UInt8) :
    Yields IsMessageAssigned (decodeMessageAssigned crates metadata topics data) := by
  unfold decodeMessageAssigned
  split
  all_goals
    refine Yields.bind fun tokens => Tokens.Yields.bind (fun _ => ?_) tokens
    repeat refine Tokens.Yields.bind fun _ => ?_
    exact Tokens.Yields.pure ⟨_, rfl⟩

theorem decodeMsgportMessageSent_kind (metadata : ChainLogMetadata) (topics : List String)
    (data : List UInt8) :
    Yields IsMsgportMessageSent (decodeMsgportMessageSent crates metadata topics data) := by
  unfold decodeMsgportMessageSent
  split
  all_goals
    refine Yields.bind fun tokens => Tokens.Yields.bind (fun _ => ?_) tokens
    repeat refine Tokens.Yields.bind fun _ => ?_
    exact Tokens.Yields.pure ⟨_, rfl⟩

end

end OrmpIndexer
