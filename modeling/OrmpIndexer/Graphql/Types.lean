/-
# OrmpIndexer.Graphql.Types — filters, orders and tables

`graphql/types.rs` and `migrations/0001_schema_compat.sql`, with the default feature
`legacy-query-compat`. A filter has a field for every column and comparison it knows, and two lists of
filters. The input types that only rename these (`MsgportMessageSentWhereInput` and the like) are
converted before they get here.
-/
import OrmpIndexer.Foundation.Sql.Condition
import Mathlib.Algebra.Group.Nat.Defs

namespace OrmpIndexer.Graphql

open Foundation

/-- An integer as the text GraphQL sent. -/
structure BigInt where
  text : String
deriving DecidableEq, Repr

/-- A value in a request or an answer; a number is the text it has there. -/
inductive Value where
  | number (text : String)
  | string (text : String)
  | other
deriving DecidableEq, Repr

inductive InputValueError where
  | custom (message : String)
  | expectedType (value : Value)
deriving DecidableEq, Repr

/-- Digits up to a limit, after the value of the ones before. -/
def parseMagnitude (limit : Nat) : Nat → List Char → Option Nat
  | value, [] => some value
  | value, c :: digits =>
      if !c.isDigit then none
      else if limit < value * 10 + (c.toNat - '0'.toNat) then none
      else parseMagnitude limit (value * 10 + (c.toNat - '0'.toNat)) digits

/-- `str::parse::<i128>`: a sign may come first. -/
def parseI128 (value : String) : Option Int :=
  match value.toList with
  | [] => none
  | ['+'] => none
  | ['-'] => none
  | '+' :: digits => (parseMagnitude (2 ^ 127 - 1) 0 digits).map Int.ofNat
  | '-' :: digits => (parseMagnitude (2 ^ 127) 0 digits).map fun n => -Int.ofNat n
  | digits => (parseMagnitude (2 ^ 127 - 1) 0 digits).map Int.ofNat

def BigInt.parse : Value → Except InputValueError BigInt
  | .number text => .ok ⟨text⟩
  | .string text =>
      if (parseI128 text).isSome then .ok ⟨text⟩
      else .error (.custom "BigInt must be an integer")
  | value => .error (.expectedType value)

def BigInt.toValue (value : BigInt) : Value := .string value.text

/-- The comparisons of a `LegacyWhereInput`. -/
structure WhereFields where
  idEq : Option String := none
  idNotEq : Option String := none
  idIn : Option (List String) := none
  idNotIn : Option (List String) := none
  blockNumberEq : Option BigInt := none
  blockNumberGt : Option BigInt := none
  blockNumberGte : Option BigInt := none
  blockNumberLt : Option BigInt := none
  blockNumberLte : Option BigInt := none
  blockNumberIn : Option (List BigInt) := none
  transactionHashEq : Option String := none
  transactionHashIn : Option (List String) := none
  blockTimestampEq : Option BigInt := none
  blockTimestampGt : Option BigInt := none
  blockTimestampGte : Option BigInt := none
  blockTimestampLt : Option BigInt := none
  blockTimestampLte : Option BigInt := none
  chainIdEq : Option BigInt := none
  chainIdIn : Option (List BigInt) := none
  logIndexEq : Option Int := none
  logIndexGt : Option Int := none
  logIndexGte : Option Int := none
  logIndexLt : Option Int := none
  logIndexLte : Option Int := none
  transactionIndexEq : Option Int := none
  msgHashEq : Option String := none
  msgHashIn : Option (List String) := none
  msgIdEq : Option String := none
  msgIdIn : Option (List String) := none
  hashEq : Option String := none
  channelEq : Option String := none
  oracleEq : Option String := none
  relayerEq : Option String := none
  signerEq : Option String := none
  signerIn : Option (List String) := none
  portAddressEq : Option String := none
  fromEq : Option String := none
  toEq : Option String := none
  fromDappEq : Option String := none
  fromDappIn : Option (List String) := none
  toDappEq : Option String := none
  toDappIn : Option (List String) := none
  transactionFromEq : Option String := none
  fromChainIdEq : Option BigInt := none
  fromChainIdIn : Option (List BigInt) := none
  toChainIdEq : Option BigInt := none
  toChainIdIn : Option (List BigInt) := none
  srcChainIdEq : Option BigInt := none
  targetChainIdEq : Option BigInt := none
  targetChainIdIn : Option (List BigInt) := none
  dispatchResultEq : Option Bool := none
  msgIndexEq : Option BigInt := none
  msgIndexGt : Option BigInt := none
  msgIndexGte : Option BigInt := none
  msgIndexLt : Option BigInt := none
  msgIndexLte : Option BigInt := none
  indexEq : Option BigInt := none
  indexGt : Option BigInt := none
  indexGte : Option BigInt := none
  indexLt : Option BigInt := none
  indexLte : Option BigInt := none
  oracleAssignedEq : Option Bool := none
  relayerAssignedEq : Option Bool := none
deriving DecidableEq, Repr

inductive LegacyWhereInput where
  | mk (fields : WhereFields) (and or : Option (List LegacyWhereInput))

inductive LegacyOrderByInput where
  | idAsc
  | idDesc
  | blockNumberAsc
  | blockNumberDesc
  | blockTimestampAsc
  | blockTimestampDesc
  | chainIdAsc
  | chainIdDesc
  | logIndexAsc
  | logIndexDesc
  | transactionIndexAsc
  | transactionIndexDesc
  | msgHashAsc
  | msgHashDesc
  | msgIdAsc
  | msgIdDesc
  | indexAsc
  | indexDesc
  | msgIndexAsc
  | msgIndexDesc
deriving DecidableEq, Repr

/-! ## Tables -/

/-- The tables with a query of their own. -/
inductive LegacyTable where
  | ormpHashImported
  | ormpMessageAccepted
  | ormpMessageAssigned
  | ormpMessageDispatched
  | msgportMessageRecv
  | msgportMessageSent
  | signaturePubSignatureSubmittion
deriving DecidableEq, Repr

def LegacyTable.name : LegacyTable → String
  | .ormpHashImported => "ormp_hash_imported"
  | .ormpMessageAccepted => "ormp_message_accepted"
  | .ormpMessageAssigned => "ormp_message_assigned"
  | .ormpMessageDispatched => "ormp_message_dispatched"
  | .msgportMessageRecv => "msgport_message_recv"
  | .msgportMessageSent => "msgport_message_sent"
  | .signaturePubSignatureSubmittion => "signature_pub_signature_submittion"

def LegacyTable.columns : LegacyTable → Sql.Columns
  | .ormpHashImported =>
      [("id", .text), ("block_number", .numeric), ("transaction_hash", .text),
      ("block_timestamp", .numeric), ("chain_id", .numeric), ("src_chain_id", .numeric),
      ("target_chain_id", .numeric), ("oracle", .text), ("channel", .text),
      ("msg_index", .numeric), ("hash", .text)]
  | .ormpMessageAccepted =>
      [("id", .text), ("block_number", .numeric), ("transaction_hash", .text),
      ("block_timestamp", .numeric), ("chain_id", .numeric), ("log_index", .integer),
      ("msg_hash", .text), ("channel", .text), ("index", .numeric), ("from_chain_id", .numeric),
      ("from", .text), ("to_chain_id", .numeric), ("to", .text), ("gas_limit", .numeric),
      ("encoded", .text), ("oracle", .text), ("oracle_assigned", .boolean),
      ("oracle_assigned_fee", .numeric), ("relayer", .text), ("relayer_assigned", .boolean),
      ("relayer_assigned_fee", .numeric)]
  | .ormpMessageAssigned =>
      [("id", .text), ("block_number", .numeric), ("transaction_hash", .text),
      ("block_timestamp", .numeric), ("chain_id", .numeric), ("msg_hash", .text),
      ("oracle", .text), ("relayer", .text), ("oracle_fee", .numeric), ("relayer_fee", .numeric),
      ("params", .text)]
  | .ormpMessageDispatched =>
      [("id", .text), ("block_number", .numeric), ("transaction_hash", .text),
      ("block_timestamp", .numeric), ("chain_id", .numeric), ("target_chain_id", .numeric),
      ("msg_hash", .text), ("dispatch_result", .boolean)]
  | .msgportMessageRecv =>
      [("id", .text), ("block_number", .numeric), ("transaction_hash", .text),
      ("block_timestamp", .numeric), ("transaction_index", .integer), ("log_index", .integer),
      ("chain_id", .numeric), ("port_address", .text), ("msg_id", .text), ("result", .boolean),
      ("return_data", .text)]
  | .msgportMessageSent =>
      [("id", .text), ("block_number", .numeric), ("transaction_hash", .text),
      ("block_timestamp", .numeric), ("transaction_index", .integer), ("log_index", .integer),
      ("chain_id", .numeric), ("port_address", .text), ("transaction_from", .text),
      ("from_chain_id", .numeric), ("msg_id", .text), ("from_dapp", .text),
      ("to_chain_id", .numeric), ("to_dapp", .text), ("message", .text), ("params", .text)]
  | .signaturePubSignatureSubmittion =>
      [("id", .text), ("block_number", .numeric), ("transaction_hash", .text),
      ("block_timestamp", .numeric), ("chain_id", .numeric), ("channel", .text),
      ("signer", .text), ("msg_index", .numeric), ("signature", .text), ("data", .text)]

/-- The type every table declares a column of this name with. -/
def filterType (column : String) : Sql.ScalarType :=
  if column ∈ ["log_index", "transaction_index"] then .integer
  else if column ∈ ["oracle_assigned", "relayer_assigned", "dispatch_result", "result"] then .boolean
  else if column ∈ ["block_number", "block_timestamp", "chain_id", "src_chain_id", "target_chain_id",
    "msg_index", "index", "from_chain_id", "to_chain_id", "gas_limit", "oracle_assigned_fee",
    "relayer_assigned_fee", "oracle_fee", "relayer_fee"] then .numeric
  else .text

theorem type_eq_filterType (table : LegacyTable) :
    ∀ column ∈ table.columns, column.2 = filterType column.1 := by
  cases table <;> decide

end OrmpIndexer.Graphql
