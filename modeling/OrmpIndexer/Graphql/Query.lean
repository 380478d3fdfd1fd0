/-
# OrmpIndexer.Graphql.Query — the statements of the GraphQL queries

`graphql/query.rs` and `graphql/pagination.rs`. A statement is put together in a `QueryBuilder`: the
SELECT it starts from, which is a constant, and the text pushed after it, with the bound values in their
places. The macros of `push_where_group` are the definitions up to `boolCmp`; `pushField` is what they
share.
-/
import OrmpIndexer.Basic
import OrmpIndexer.Graphql.Types

namespace OrmpIndexer.Graphql

open Foundation
open Foundation.Sql (Text Scalar ofString)

/-! ## The query builder -/

/-- What a statement selects: the rows of a table, or their number. -/
inductive Selection where
  | rows (table : LegacyTable)
  | count (table : LegacyTable)
deriving DecidableEq, Repr

/-- One item of a SELECT list: a column, or a column that is cast to TEXT under its own name. -/
inductive Output where
  | column (name : String)
  | castText (name : String)
deriving DecidableEq, Repr

/-- A cast column keeps its name, so a bare name in ORDER BY is the text. -/
def Output.text : Output → String
  | .column name => name
  | .castText name => name ++ "::TEXT AS " ++ name

/-- The SELECT lists, in the order of the source. -/
def LegacyTable.outputs : LegacyTable → List Output
  | .ormpHashImported =>
      [.column "id", .castText "block_number", .column "transaction_hash",
      .castText "block_timestamp", .castText "chain_id",
      .castText "src_chain_id", .castText "target_chain_id",
      .column "oracle", .column "channel", .castText "msg_index", .column "hash"]
  | .ormpMessageAccepted =>
      [.column "id", .castText "block_number", .column "transaction_hash",
      .castText "block_timestamp", .castText "chain_id",
      .column "log_index", .column "msg_hash", .column "channel", .castText "\"index\"",
      .castText "from_chain_id", .column "\"from\"", .castText "to_chain_id",
      .column "\"to\"", .castText "gas_limit", .column "encoded", .column "oracle",
      .column "oracle_assigned", .castText "oracle_assigned_fee", .column "relayer",
      .column "relayer_assigned", .castText "relayer_assigned_fee"]
  | .ormpMessageAssigned =>
      [.column "id", .castText "block_number", .column "transaction_hash",
      .castText "block_timestamp", .castText "chain_id",
      .column "msg_hash", .column "oracle", .column "relayer", .castText "oracle_fee",
      .castText "relayer_fee", .column "params"]
  | .ormpMessageDispatched =>
      [.column "id", .castText "block_number", .column "transaction_hash",
      .castText "block_timestamp", .castText "chain_id",
      .castText "target_chain_id", .column "msg_hash", .column "dispatch_result"]
  | .msgportMessageRecv =>
      [.column "id", .castText "block_number", .column "transaction_hash",
      .castText "block_timestamp", .column "transaction_index", .column "log_index",
      .castText "chain_id", .column "port_address", .column "msg_id", .column "result",
      .column "return_data"]
  | .msgportMessageSent =>
      [.column "id", .castText "block_number", .column "transaction_hash",
      .castText "block_timestamp", .column "transaction_index", .column "log_index",
      .castText "chain_id", .column "port_address", .column "transaction_from",
      .castText "from_chain_id", .column "msg_id", .column "from_dapp",
      .castText "to_chain_id", .column "to_dapp", .column "message", .column "params"]
  | .signaturePubSignatureSubmittion =>
      [.column "id", .castText "block_number", .column "transaction_hash",
      .castText "block_timestamp", .castText "chain_id",
      .column "channel", .column "signer", .castText "msg_index", .column "signature",
      .column "data"]

/-- The items with a comma between them. -/
def outputsText : List Output → String
  | [] => ""
  | [output] => output.text
  | output :: outputs => output.text ++ ", " ++ outputsText outputs

/-- The SELECT a statement starts with; a line break is a space here. -/
def Selection.text : Selection → String
  | .rows table => "SELECT " ++ outputsText table.outputs ++ " FROM " ++ table.name
  | .count table => "SELECT COUNT(*)::int8 AS total_count FROM " ++ table.name

/-- What is selected, and the text behind it with the values in their places. -/
structure QueryBuilder where
  selection : Selection
  sql : Text
deriving DecidableEq, Repr

namespace QueryBuilder

def new (selection : Selection) : QueryBuilder := ⟨selection, []⟩

/-- `new`, with the SELECT as text. -/
def start (selection : Selection) : QueryBuilder := ⟨selection, ofString selection.text⟩

/-- `query.push(..)`. -/
def push (query : QueryBuilder) (s : String) : QueryBuilder :=
  { query with sql := query.sql ++ ofString s }

/-- `query.push_bind(..)`: the value is not part of the text. -/
def pushBind (query : QueryBuilder) (value : Scalar) : QueryBuilder :=
  { query with sql := query.sql ++ [.placeholder value] }

end QueryBuilder

/-! ## Comparisons -/

/-- A query and its `has_condition`. -/
structure Group where
  query : QueryBuilder
  hasCondition : Bool

/-- AND, but not in front of the first condition. -/
def pushAnd (group : Group) : Group where
  query := if group.hasCondition then group.query.push " AND " else group.query
  hasCondition := true

/-- What every macro does with a field that is given. -/
def pushField {α : Type} (field : Option α) (push : α → QueryBuilder → QueryBuilder)
    (group : Group) : Group :=
  match field with
  | some value => { pushAnd group with query := push value (pushAnd group).query }
  | none => group

/-- `text_cmp!`. -/
def textCmp (field : Option String) (column op : String) : Group → Group :=
  pushField field fun value query => ((query.push column).push op).pushBind (.text value)

/-- `query.separated(", ")`, where `bind` is what is pushed for a value. -/
def pushSeparated {α : Type} (values : List α) (bind : α → QueryBuilder → QueryBuilder)
    (query : QueryBuilder) : QueryBuilder :=
  match values with
  | [] => query
  | [value] => bind value query
  | value :: values => pushSeparated values bind ((bind value query).push ", ")

/-- `text_in!`. An empty list leaves the parentheses empty. -/
def textIn (field : Option (List String)) (column : String) (negated : Bool) : Group → Group :=
  pushField field fun values query =>
    let query := query.push column
    let query := if negated then query.push " NOT" else query
    let query := query.push " IN ("
    (pushSeparated values (fun value query => query.pushBind (.text value)) query).push ")"

/-- `bigint_cmp!`: the text is bound, and cast by the statement. -/
def bigintCmp (field : Option BigInt) (column op : String) : Group → Group :=
  pushField field fun value query =>
    (((query.push column).push op).pushBind (.text value.text)).push "::NUMERIC"

def bigintIn (field : Option (List BigInt)) (column : String) : Group → Group :=
  pushField field fun values query =>
    let query := (query.push column).push " IN ("
    (pushSeparated values
      (fun value query => (query.pushBind (.text value.text)).push "::NUMERIC") query).push ")"

def intCmp (field : Option Int) (column op : String) : Group → Group :=
  pushField field fun value query => ((query.push column).push op).pushBind (.integer value)

def boolCmp (field : Option Bool) (column op : String) : Group → Group :=
  pushField field fun value query => ((query.push column).push op).pushBind (.boolean value)

/-- The comparisons of `push_where_group`, in its order. -/
def comparisons (where_ : WhereFields) : List (Group → Group) := [
  textCmp where_.idEq "id" " = ",
  textCmp where_.idNotEq "id" " <> ",
  textIn where_.idIn "id" false,
  textIn where_.idNotIn "id" true,
  bigintCmp where_.blockNumberEq "block_number" " = ",
  bigintCmp where_.blockNumberGt "block_number" " > ",
  bigintCmp where_.blockNumberGte "block_number" " >= ",
  bigintCmp where_.blockNumberLt "block_number" " < ",
  bigintCmp where_.blockNumberLte "block_number" " <= ",
  bigintIn where_.blockNumberIn "block_number",
  textCmp where_.transactionHashEq "transaction_hash" " = ",
  textIn where_.transactionHashIn "transaction_hash" false,
  bigintCmp where_.blockTimestampEq "block_timestamp" " = ",
  bigintCmp where_.blockTimestampGt "block_timestamp" " > ",
  bigintCmp where_.blockTimestampGte "block_timestamp" " >= ",
  bigintCmp where_.blockTimestampLt "block_timestamp" " < ",
  bigintCmp where_.blockTimestampLte "block_timestamp" " <= ",
  bigintCmp where_.chainIdEq "chain_id" " = ",
  bigintIn where_.chainIdIn "chain_id",
  intCmp where_.logIndexEq "log_index" " = ",
  intCmp where_.logIndexGt "log_index" " > ",
  intCmp where_.logIndexGte "log_index" " >= ",
  intCmp where_.logIndexLt "log_index" " < ",
  intCmp where_.logIndexLte "log_index" " <= ",
  intCmp where_.transactionIndexEq "transaction_index" " = ",
  textCmp where_.msgHashEq "msg_hash" " = ",
  textIn where_.msgHashIn "msg_hash" false,
  textCmp where_.msgIdEq "msg_id" " = ",
  textIn where_.msgIdIn "msg_id" false,
  textCmp where_.hashEq "hash" " = ",
  textCmp where_.channelEq "channel" " = ",
  textCmp where_.oracleEq "oracle" " = ",
  textCmp where_.relayerEq "relayer" " = ",
  textCmp where_.signerEq "signer" " = ",
  textIn where_.signerIn "signer" false,
  textCmp where_.portAddressEq "port_address" " = ",
  textCmp where_.fromEq "\"from\"" " = ",
  textCmp where_.toEq "\"to\"" " = ",
  textCmp where_.fromDappEq "from_dapp" " = ",
  textIn where_.fromDappIn "from_dapp" false,
  textCmp where_.toDappEq "to_dapp" " = ",
  textIn where_.toDappIn "to_dapp" false,
  textCmp where_.transactionFromEq "transaction_from" " = ",
  bigintCmp where_.fromChainIdEq "from_chain_id" " = ",
  bigintIn where_.fromChainIdIn "from_chain_id",
  bigintCmp where_.toChainIdEq "to_chain_id" " = ",
  bigintIn where_.toChainIdIn "to_chain_id",
  bigintCmp where_.srcChainIdEq "src_chain_id" " = ",
  bigintCmp where_.targetChainIdEq "target_chain_id" " = ",
  bigintIn where_.targetChainIdIn "target_chain_id",
  bigintCmp where_.msgIndexEq "msg_index" " = ",
  bigintCmp where_.msgIndexGt "msg_index" " > ",
  bigintCmp where_.msgIndexGte "msg_index" " >= ",
  bigintCmp where_.msgIndexLt "msg_index" " < ",
  bigintCmp where_.msgIndexLte "msg_index" " <= ",
  bigintCmp where_.indexEq "\"index\"" " = ",
  bigintCmp where_.indexGt "\"index\"" " > ",
  bigintCmp where_.indexGte "\"index\"" " >= ",
  bigintCmp where_.indexLt "\"index\"" " < ",
  bigintCmp where_.indexLte "\"index\"" " <= ",
  boolCmp where_.oracleAssignedEq "oracle_assigned" " = ",
  boolCmp where_.relayerAssignedEq "relayer_assigned" " = ",
  boolCmp where_.dispatchResultEq "dispatch_result" " = "]

/-! ## WHERE -/

/-- The groups of an AND or of an OR, of which there is one at least, in parentheses. -/
def pushLogicalGroups (isEmpty : Bool) (members : QueryBuilder → QueryBuilder) (group : Group) :
    Group :=
  if isEmpty then group
  else { pushAnd group with query := (members ((pushAnd group).query.push "(")).push ")" }

mutual

/-- `push_where_group`: the fields, then AND, then OR. -/
def pushWhereGroup : LegacyWhereInput → Group → Group
  | .mk fields and or, group =>
      let group := (comparisons fields).foldl (fun group push => push group) group
      let group := match and with
        | some groups => pushLogicalGroups groups.isEmpty (pushMembers groups " AND " true) group
        | none => group
      match or with
        | some groups => pushLogicalGroups groups.isEmpty (pushMembers groups " OR " true) group
        | none => group

/-- The loop of `push_logical_groups`: every group in parentheses, `TRUE` if it has no condition. -/
def pushMembers : List LegacyWhereInput → String → Bool → QueryBuilder → QueryBuilder
  | [], _, _, query => query
  | member :: members, op, first, query =>
      let query := if first then query else query.push op
      let group := pushWhereGroup member ⟨query.push "(", false⟩
      let query := if group.hasCondition then group.query else group.query.push "TRUE"
      pushMembers members op false (query.push ")")

end

/-- A filter without a condition is `TRUE`. -/
def pushWhere (query : QueryBuilder) : Option LegacyWhereInput → QueryBuilder
  | none => query
  | some where_ =>
      let group := pushWhereGroup where_ ⟨query.push " WHERE ", false⟩
      if group.hasCondition then group.query else group.query.push " TRUE"

/-! ## ORDER BY -/

/-- The column, the direction, and whether the column is qualified with the table. -/
def LegacyOrderByInput.key : LegacyOrderByInput → String × String × Bool
  | .idAsc => ("id", "ASC", false)
  | .idDesc => ("id", "DESC", false)
  | .blockNumberAsc => ("block_number", "ASC", true)
  | .blockNumberDesc => ("block_number", "DESC", true)
  | .blockTimestampAsc => ("block_timestamp", "ASC", true)
  | .blockTimestampDesc => ("block_timestamp", "DESC", true)
  | .chainIdAsc => ("chain_id", "ASC", true)
  | .chainIdDesc => ("chain_id", "DESC", true)
  | .logIndexAsc => ("log_index", "ASC", true)
  | .logIndexDesc => ("log_index", "DESC", true)
  | .transactionIndexAsc => ("transaction_index", "ASC", true)
  | .transactionIndexDesc => ("transaction_index", "DESC", true)
  | .msgHashAsc => ("msg_hash", "ASC", false)
  | .msgHashDesc => ("msg_hash", "DESC", false)
  | .msgIdAsc => ("msg_id", "ASC", false)
  | .msgIdDesc => ("msg_id", "DESC", false)
  | .indexAsc => ("\"index\"", "ASC", true)
  | .indexDesc => ("\"index\"", "DESC", true)
  | .msgIndexAsc => ("msg_index", "ASC", true)
  | .msgIndexDesc => ("msg_index", "DESC", true)

/-- One item of ORDER BY. -/
def pushOrder (table : LegacyTable) (order : LegacyOrderByInput) (query : QueryBuilder) :
    QueryBuilder :=
  let (column, direction, qualify) := order.key
  if qualify then query.push (table.name ++ "." ++ column ++ " " ++ direction)
  else query.push (column ++ " " ++ direction)

/-- The default order ends with the id; an order that is given is taken as it is. -/
def pushOrderBy (query : QueryBuilder) (table : LegacyTable)
    (orderBy : Option (List LegacyOrderByInput)) : QueryBuilder :=
  let orders := orderBy.getD []
  let query := query.push " ORDER BY "
  if orders.isEmpty then query.push (table.name ++ ".block_number ASC, id ASC")
  else pushSeparated orders (pushOrder table) query

/-! ## Pages -/

def DEFAULT_PAGE_LIMIT : Int := 100
def MAX_PAGE_LIMIT : Int := 1000

/-- A negative offset is 0, and a limit is between 0 and 1000. -/
def pageArgs (offset limit : Option Int) : Int × Int :=
  (max (offset.getD 0) 0, min (max (limit.getD DEFAULT_PAGE_LIMIT) 0) MAX_PAGE_LIMIT)

/-- LIMIT comes first. -/
def pushPage (query : QueryBuilder) (offset limit : Int) : QueryBuilder :=
  let query := (query.push " LIMIT ").pushBind (.integer limit)
  (query.push " OFFSET ").pushBind (.integer offset)

/-- What a request is answered with; the other end is PostgreSQL. -/
structure Connection where
  fetchAll : QueryBuilder → Except Error (List Sql.Row)
  fetchCount : QueryBuilder → Except Error Nat

/-- The statement of a page. -/
def fetchPage (connection : Connection) (table : LegacyTable) (where_ : Option LegacyWhereInput)
    (orderBy : Option (List LegacyOrderByInput)) (offset limit : Int) :
    Except Error (List Sql.Row) :=
  let query := pushWhere (.new (.rows table)) where_
  let query := pushOrderBy query table orderBy
  connection.fetchAll (pushPage query offset limit)

/-- The statement of the total count, which has the same filter. -/
def countRows (connection : Connection) (table : LegacyTable) (where_ : Option LegacyWhereInput) :
    Except Error Nat :=
  connection.fetchCount (pushWhere (.new (.count table)) where_)

/-- A page as it is returned, with the offset and the limit that were used. -/
structure Page where
  totalCount : Nat
  offset : Int
  limit : Int
  items : List Sql.Row

/-- The page query of a table (`query_fns!`). -/
def queryPage (connection : Connection) (table : LegacyTable) (where_ : Option LegacyWhereInput)
    (orderBy : Option (List LegacyOrderByInput)) (offset limit : Option Int) :
    Except Error Page := do
  let (offset, limit) := pageArgs offset limit
  let totalCount ← countRows connection table where_
  let items ← if limit = 0 then pure []
    else fetchPage connection table where_ orderBy offset limit
  return { totalCount, offset, limit, items }

end OrmpIndexer.Graphql
