/-
# OrmpIndexer.Graphql.Filter — what a filter asks for

The rows a `LegacyWhereInput` is meant to select, said field by field and list by list, by the names the
GraphQL schema gives the fields: `blockNumber_gte` is about `block_number` and not less. Nothing of the
statements is used here; `Graphql.Where` compares the two.
-/
import OrmpIndexer.Graphql.Types

namespace OrmpIndexer.Graphql

open Foundation Foundation.Sql

/-! ## Tests -/

/-- What one field asks of a row. -/
inductive Test where
  | is (op : Op) (column : String) (value : Scalar)
  | among (column : String) (values : List Scalar)
  | notAmong (column : String) (values : List Scalar)

namespace Test

/-- NULL passes no test. -/
def Holds (row : Row) : Test → Prop
  | is op column value => ∃ v, row column = some v ∧ op.test v value = true
  | among column values => ∃ v, row column = some v ∧ v ∈ values
  | notAmong column values => ∃ v, row column = some v ∧ v ∉ values

/-- The column a test is about. -/
def column : Test → String
  | is _ column _ => column
  | among column _ => column
  | notAmong column _ => column

/-- A list of values is not empty. -/
def NonEmpty : Test → Prop
  | is .. => True
  | among _ values => values ≠ []
  | notAmong _ values => values ≠ []

/-- The test is about a column of the table, and a list of values is not empty. -/
def Fits (columns : Columns) (test : Test) : Prop :=
  test.column ∈ columns.map (·.1) ∧ test.NonEmpty

end Test

section

variable (numeric : String → Rat)

/-- A field that is not given asks nothing. -/
def isText (op : Op) (column : String) (field : Option String) : Option Test :=
  field.map fun value => .is op column (.text value)

/-- The numbers of the API are texts. -/
def isNumeric (op : Op) (column : String) (field : Option BigInt) : Option Test :=
  field.map fun value => .is op column (.numeric (numeric value.text))

def isInteger (op : Op) (column : String) (field : Option Int) : Option Test :=
  field.map fun value => .is op column (.integer value)

def isBoolean (op : Op) (column : String) (field : Option Bool) : Option Test :=
  field.map fun value => .is op column (.boolean value)

/-- `_in`: any of the values. -/
def amongText (column : String) (field : Option (List String)) : Option Test :=
  field.map fun values => .among column (values.map .text)

/-- `_not_in`: none of the values. -/
def notAmongText (column : String) (field : Option (List String)) : Option Test :=
  field.map fun values => .notAmong column (values.map .text)

def amongNumeric (column : String) (field : Option (List BigInt)) : Option Test :=
  field.map fun values => .among column (values.map fun value => .numeric (numeric value.text))

/-- The tests of the fields, where `numeric` is the number a text spells. -/
def WhereFields.tests (where_ : WhereFields) : List (Option Test) := [
  isText .eq "id" where_.idEq,
  isText .ne "id" where_.idNotEq,
  amongText "id" where_.idIn,
  notAmongText "id" where_.idNotIn,
  isNumeric numeric .eq "block_number" where_.blockNumberEq,
  isNumeric numeric .gt "block_number" where_.blockNumberGt,
  isNumeric numeric .gte "block_number" where_.blockNumberGte,
  isNumeric numeric .lt "block_number" where_.blockNumberLt,
  isNumeric numeric .lte "block_number" where_.blockNumberLte,
  amongNumeric numeric "block_number" where_.blockNumberIn,
  isText .eq "transaction_hash" where_.transactionHashEq,
  amongText "transaction_hash" where_.transactionHashIn,
  isNumeric numeric .eq "block_timestamp" where_.blockTimestampEq,
  isNumeric numeric .gt "block_timestamp" where_.blockTimestampGt,
  isNumeric numeric .gte "block_timestamp" where_.blockTimestampGte,
  isNumeric numeric .lt "block_timestamp" where_.blockTimestampLt,
  isNumeric numeric .lte "block_timestamp" where_.blockTimestampLte,
  isNumeric numeric .eq "chain_id" where_.chainIdEq,
  amongNumeric numeric "chain_id" where_.chainIdIn,
  isInteger .eq "log_index" where_.logIndexEq,
  isInteger .gt "log_index" where_.logIndexGt,
  isInteger .gte "log_index" where_.logIndexGte,
  isInteger .lt "log_index" where_.logIndexLt,
  isInteger .lte "log_index" where_.logIndexLte,
  isInteger .eq "transaction_index" where_.transactionIndexEq,
  isText .eq "msg_hash" where_.msgHashEq,
  amongText "msg_hash" where_.msgHashIn,
  isText .eq "msg_id" where_.msgIdEq,
  amongText "msg_id" where_.msgIdIn,
  isText .eq "hash" where_.hashEq,
  isText .eq "channel" where_.channelEq,
  isText .eq "oracle" where_.oracleEq,
  isText .eq "relayer" where_.relayerEq,
  isText .eq "signer" where_.signerEq,
  amongText "signer" where_.signerIn,
  isText .eq "port_address" where_.portAddressEq,
  isText .eq "from" where_.fromEq,
  isText .eq "to" where_.toEq,
  isText .eq "from_dapp" where_.fromDappEq,
  amongText "from_dapp" where_.fromDappIn,
  isText .eq "to_dapp" where_.toDappEq,
  amongText "to_dapp" where_.toDappIn,
  isText .eq "transaction_from" where_.transactionFromEq,
  isNumeric numeric .eq "from_chain_id" where_.fromChainIdEq,
  amongNumeric numeric "from_chain_id" where_.fromChainIdIn,
  isNumeric numeric .eq "to_chain_id" where_.toChainIdEq,
  amongNumeric numeric "to_chain_id" where_.toChainIdIn,
  isNumeric numeric .eq "src_chain_id" where_.srcChainIdEq,
  isNumeric numeric .eq "target_chain_id" where_.targetChainIdEq,
  amongNumeric numeric "target_chain_id" where_.targetChainIdIn,
  isNumeric numeric .eq "msg_index" where_.msgIndexEq,
  isNumeric numeric .gt "msg_index" where_.msgIndexGt,
  isNumeric numeric .gte "msg_index" where_.msgIndexGte,
  isNumeric numeric .lt "msg_index" where_.msgIndexLt,
  isNumeric numeric .lte "msg_index" where_.msgIndexLte,
  isNumeric numeric .eq "index" where_.indexEq,
  isNumeric numeric .gt "index" where_.indexGt,
  isNumeric numeric .gte "index" where_.indexGte,
  isNumeric numeric .lt "index" where_.indexLt,
  isNumeric numeric .lte "index" where_.indexLte,
  isBoolean .eq "oracle_assigned" where_.oracleAssignedEq,
  isBoolean .eq "relayer_assigned" where_.relayerAssignedEq,
  isBoolean .eq "dispatch_result" where_.dispatchResultEq]

/-! ## Filters -/

mutual

/-- The rows a filter selects: all its fields, all members of AND, and one of the members of OR. -/
def LegacyWhereInput.Matches (row : Row) : LegacyWhereInput → Prop
  | .mk fields and or =>
      (∀ test, some test ∈ fields.tests numeric → test.Holds row) ∧
      (match and with
        | some groups => LegacyWhereInput.MatchesAll row groups
        | none => True) ∧
      match or with
        | some groups => groups = [] ∨ LegacyWhereInput.MatchesAny row groups
        | none => True

/-- AND of no filters selects all rows. -/
def LegacyWhereInput.MatchesAll (row : Row) : List LegacyWhereInput → Prop
  | [] => True
  | group :: groups => group.Matches row ∧ LegacyWhereInput.MatchesAll row groups

/-- OR of no filters selects none; `Matches` takes an empty OR as not given. -/
def LegacyWhereInput.MatchesAny (row : Row) : List LegacyWhereInput → Prop
  | [] => False
  | group :: groups => group.Matches row ∨ LegacyWhereInput.MatchesAny row groups

end

mutual

/-- Every test of a filter has the property. -/
def LegacyWhereInput.Every (P : Test → Prop) : LegacyWhereInput → Prop
  | .mk fields and or =>
      (∀ test, some test ∈ fields.tests numeric → P test) ∧
      (match and with
        | some groups => LegacyWhereInput.EveryIn P groups
        | none => True) ∧
      match or with
        | some groups => LegacyWhereInput.EveryIn P groups
        | none => True

def LegacyWhereInput.EveryIn (P : Test → Prop) : List LegacyWhereInput → Prop
  | [] => True
  | group :: groups => group.Every P ∧ LegacyWhereInput.EveryIn P groups

end

theorem matchesAll_iff {numeric : String → Rat} {row : Row} {groups : List LegacyWhereInput} :
    LegacyWhereInput.MatchesAll numeric row groups ↔ ∀ group ∈ groups, group.Matches numeric row := by
  induction groups with
  | nil => simp [LegacyWhereInput.MatchesAll]
  | cons group groups ih => rw [LegacyWhereInput.MatchesAll, ih, List.forall_mem_cons]

theorem matchesAny_iff {numeric : String → Rat} {row : Row} {groups : List LegacyWhereInput} :
    LegacyWhereInput.MatchesAny numeric row groups ↔ ∃ group ∈ groups, group.Matches numeric row := by
  induction groups with
  | nil => simp [LegacyWhereInput.MatchesAny]
  | cons group groups ih => simp [LegacyWhereInput.MatchesAny, ih]

theorem everyIn_iff {numeric : String → Rat} {P : Test → Prop} {groups : List LegacyWhereInput} :
    LegacyWhereInput.EveryIn numeric P groups ↔ ∀ group ∈ groups, group.Every numeric P := by
  induction groups with
  | nil => simp [LegacyWhereInput.EveryIn]
  | cons group groups ih => rw [LegacyWhereInput.EveryIn, ih, List.forall_mem_cons]

end

/-- A filter by its three parts. -/
theorem matches_mk {numeric : String → Rat} {row : Row} {fields : WhereFields}
    {and or : Option (List LegacyWhereInput)} :
    (LegacyWhereInput.mk fields and or).Matches numeric row ↔
      (∀ test, some test ∈ fields.tests numeric → test.Holds row) ∧
        (∀ groups ∈ and, LegacyWhereInput.MatchesAll numeric row groups) ∧
        ∀ groups ∈ or, groups = [] ∨ LegacyWhereInput.MatchesAny numeric row groups := by
  cases and <;> cases or <;> simp [LegacyWhereInput.Matches]

theorem every_mk {numeric : String → Rat} {P : Test → Prop} {fields : WhereFields}
    {and or : Option (List LegacyWhereInput)} :
    (LegacyWhereInput.mk fields and or).Every numeric P ↔
      (∀ test, some test ∈ fields.tests numeric → P test) ∧
        (∀ groups ∈ and, ∀ group ∈ groups, group.Every numeric P) ∧
        ∀ groups ∈ or, ∀ group ∈ groups, group.Every numeric P := by
  cases and <;> cases or <;> simp [LegacyWhereInput.Every, everyIn_iff]

/-- What holds of a filter if it holds of the members of its lists holds of every filter. -/
theorem LegacyWhereInput.induction {P : LegacyWhereInput → Prop}
    (step : ∀ fields and or, (∀ groups ∈ and, ∀ group ∈ groups, P group) →
      (∀ groups ∈ or, ∀ group ∈ groups, P group) → P (.mk fields and or)) :
    ∀ where_, P where_ := by
  intro where_
  refine @LegacyWhereInput.rec P (fun groups => ∀ list ∈ groups, ∀ group ∈ list, P group)
    (fun list => ∀ group ∈ list, P group) ?_ ?_ ?_ ?_ ?_ where_
  · intro fields and or hand hor
    exact step fields and or hand hor
  · intro list h
    cases h
  · intro list hlist l hl
    rw [← Option.some.inj hl]
    exact hlist
  · intro group h
    cases h
  · intro group groups hgroup hgroups g hg
    rcases List.mem_cons.mp hg with rfl | hg
    · exact hgroup
    · exact hgroups g hg

end OrmpIndexer.Graphql
