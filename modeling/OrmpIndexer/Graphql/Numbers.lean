/-
# OrmpIndexer.Graphql.Numbers — whether a number the API shows can be asked for

A number goes through four forms: the `u128` of the row, the NUMERIC it is stored as, the text the API
shows, and the `BigInt` a filter is given. `served_number_queried_iff`: a client that sends back what it
was shown gets the row if the number is below `2 ^ 127`, and an error otherwise, because the text of a
filter is checked as an `i128`.

`columns` are the seven event tables as SQL sees them; the INSERTs bind every number as its numeral.
-/
import OrmpIndexer.Database.Rows
import OrmpIndexer.Decoder.RoundTrip
import OrmpIndexer.Graphql.Validity

namespace OrmpIndexer.Graphql

open Foundation Foundation.Sql

/-! ## Reading an `i128` -/

theorem le_ofDigitChars (digits : List Char) (value : Nat) :
    value ≤ Nat.ofDigitChars 10 digits value := by
  induction digits generalizing value with
  | nil => exact Nat.le_refl value
  | cons c digits ih =>
      rw [Nat.ofDigitChars_cons]
      exact Nat.le_trans (by omega) (ih _)

theorem parseMagnitude_eq {limit : Nat} {digits : List Char} (h : ∀ c ∈ digits, c.isDigit = true)
    {value : Nat} (hvalue : value ≤ limit) : parseMagnitude limit value digits =
      if Nat.ofDigitChars 10 digits value ≤ limit then some (Nat.ofDigitChars 10 digits value)
      else none := by
  induction digits generalizing value with
  | nil => exact (if_pos hvalue).symm
  | cons c digits ih =>
      obtain ⟨hc, hdigits⟩ := List.forall_mem_cons.mp h
      have hle := le_ofDigitChars digits (10 * value + (c.toNat - '0'.toNat))
      rw [parseMagnitude, Nat.ofDigitChars_cons, hc, Nat.mul_comm value 10]
      by_cases hlarge : limit < 10 * value + (c.toNat - '0'.toNat)
      · rw [if_neg (by simp), if_pos hlarge, if_neg (by omega)]
      · rw [if_neg (by simp), if_neg hlarge, ih hdigits (by omega)]

/-- Without a sign in front, the text is read as it is. -/
theorem parseI128_of_isDigit {value : String} {c : Char} {digits : List Char}
    (h : value.toList = c :: digits) (hc : c.isDigit = true) :
    parseI128 value = (parseMagnitude (2 ^ 127 - 1) 0 (c :: digits)).map Int.ofNat := by
  unfold parseI128
  rw [h]
  split
  · rename_i heq
    cases heq
  · rename_i heq
    cases heq
    cases hc
  · rename_i heq
    cases heq
    cases hc
  · rename_i heq
    cases heq
    cases hc
  · rename_i heq
    cases heq
    cases hc
  · rfl

/-- A numeral is an `i128` if its number is. -/
theorem parseI128_toString (n : Nat) :
    parseI128 (toString n) = if n < 2 ^ 127 then some (n : Int) else none := by
  have hdigits : ∀ c ∈ decimal n, c.isDigit = true := fun c => isDigit_of_mem_decimal
  have hvalue : Nat.ofDigitChars 10 (decimal n) 0 = n := Nat.ofDigitChars_ten_toDigits
  have hread := parseMagnitude_eq hdigits (Nat.zero_le (2 ^ 127 - 1))
  cases hlist : decimal n with
  | nil => exact absurd hlist Nat.toDigits_ne_nil
  | cons c digits =>
      have hc : c.isDigit = true := hdigits c (hlist ▸ List.mem_cons_self)
      rw [parseI128_of_isDigit ((toList_toString_nat n).trans hlist) hc, ← hlist, hread, hvalue]
      by_cases hsmall : n < 2 ^ 127
      · rw [if_pos hsmall, if_pos (Nat.le_sub_one_of_lt hsmall)]
        rfl
      · rw [if_neg hsmall, if_neg fun h => hsmall (Nat.lt_of_le_sub_one (Nat.two_pow_pos 127) h),
          Option.map_none]

/-! ## The rows as SQL sees them -/

section

variable (pg : Postgres)

/-- A number is bound as its numeral and cast to NUMERIC. -/
def number (n : Nat) : Option Scalar := some (.numeric (pg.numeric (toString n)))

def text (s : String) : Option Scalar := some (.text s)

/-- The columns of a stored row, those of its INSERT first. -/
def columns : LegacyRow → List (String × Option Scalar)
  | .ormpHashImported r =>
      [("id", text r.id), ("block_number", number pg r.blockNumber),
      ("transaction_hash", text r.transactionHash),
      ("block_timestamp", number pg r.blockTimestamp), ("chain_id", number pg r.chainId),
      ("src_chain_id", number pg r.srcChainId), ("target_chain_id", number pg r.targetChainId),
      ("oracle", text r.oracle), ("channel", text r.channel),
      ("msg_index", number pg r.msgIndex), ("hash", text r.hash)]
  | .ormpMessageAccepted r =>
      [("id", text r.id), ("block_number", number pg r.blockNumber),
      ("transaction_hash", text r.transactionHash),
      ("block_timestamp", number pg r.blockTimestamp), ("chain_id", number pg r.chainId),
      ("log_index", some (.integer r.logIndex)), ("msg_hash", text r.msgHash),
      ("channel", text r.channel), ("index", number pg r.index),
      ("from_chain_id", number pg r.fromChainId), ("from", text r.fromAddress),
      ("to_chain_id", number pg r.toChainId), ("to", text r.toAddress),
      ("gas_limit", number pg r.gasLimit), ("encoded", text r.encoded),
      ("oracle", r.oracle.map .text), ("oracle_assigned", r.oracleAssigned.map .boolean),
      ("oracle_assigned_fee", r.oracleAssignedFee.bind (number pg)),
      ("relayer", r.relayer.map .text), ("relayer_assigned", r.relayerAssigned.map .boolean),
      ("relayer_assigned_fee", r.relayerAssignedFee.bind (number pg))]
  | .ormpMessageAssigned r =>
      [("id", text r.id), ("block_number", number pg r.blockNumber),
      ("transaction_hash", text r.transactionHash),
      ("block_timestamp", number pg r.blockTimestamp), ("chain_id", number pg r.chainId),
      ("msg_hash", text r.msgHash), ("oracle", text r.oracle), ("relayer", text r.relayer),
      ("oracle_fee", number pg r.oracleFee), ("relayer_fee", number pg r.relayerFee),
      ("params", text r.params)]
  | .ormpMessageDispatched r =>
      [("id", text r.id), ("block_number", number pg r.blockNumber),
      ("transaction_hash", text r.transactionHash),
      ("block_timestamp", number pg r.blockTimestamp), ("chain_id", number pg r.chainId),
      ("target_chain_id", number pg r.targetChainId), ("msg_hash", text r.msgHash),
      ("dispatch_result", some (.boolean r.dispatchResult))]
  | .msgportMessageRecv r =>
      [("id", text r.id), ("block_number", number pg r.blockNumber),
      ("transaction_hash", text r.transactionHash),
      ("block_timestamp", number pg r.blockTimestamp),
      ("transaction_index", some (.integer r.transactionIndex)),
      ("log_index", some (.integer r.logIndex)), ("chain_id", number pg r.chainId),
      ("port_address", text r.portAddress), ("msg_id", text r.msgId),
      ("result", some (.boolean r.result)), ("return_data", text r.returnData)]
  | .msgportMessageSent r =>
      [("id", text r.id), ("block_number", number pg r.blockNumber),
      ("transaction_hash", text r.transactionHash),
      ("block_timestamp", number pg r.blockTimestamp),
      ("transaction_index", some (.integer r.transactionIndex)),
      ("log_index", some (.integer r.logIndex)), ("chain_id", number pg r.chainId),
      ("port_address", text r.portAddress), ("transaction_from", r.transactionFrom.map .text),
      ("from_chain_id", number pg r.fromChainId), ("msg_id", text r.msgId),
      ("from_dapp", text r.fromDapp), ("to_chain_id", number pg r.toChainId),
      ("to_dapp", text r.toDapp), ("message", text r.message), ("params", text r.params)]
  | .signaturePubSignatureSubmittion r =>
      [("id", text r.id), ("block_number", number pg r.blockNumber),
      ("transaction_hash", text r.transactionHash),
      ("block_timestamp", number pg r.blockTimestamp), ("chain_id", number pg r.chainId),
      ("channel", text r.channel), ("signer", text r.signer),
      ("msg_index", number pg r.msgIndex), ("signature", text r.signature), ("data", text r.data)]

def sqlRow (r : LegacyRow) : Row := fun column => ((columns pg r).lookup column).join

end

/-! ## Numbers with an `_eq` filter -/

/-- The NUMERIC columns a filter compares with a number. -/
inductive NumericField where
  | blockNumber
  | blockTimestamp
  | chainId
  | srcChainId
  | targetChainId
  | fromChainId
  | toChainId
  | msgIndex
  | index
deriving DecidableEq, Repr

namespace NumericField

def column : NumericField → String
  | blockNumber => "block_number"
  | blockTimestamp => "block_timestamp"
  | chainId => "chain_id"
  | srcChainId => "src_chain_id"
  | targetChainId => "target_chain_id"
  | fromChainId => "from_chain_id"
  | toChainId => "to_chain_id"
  | msgIndex => "msg_index"
  | index => "index"

/-- The filter that sets the `_eq` of the field and nothing else. -/
def eqFilter (value : BigInt) : NumericField → LegacyWhereInput
  | blockNumber => .mk { blockNumberEq := some value } none none
  | blockTimestamp => .mk { blockTimestampEq := some value } none none
  | chainId => .mk { chainIdEq := some value } none none
  | srcChainId => .mk { srcChainIdEq := some value } none none
  | targetChainId => .mk { targetChainIdEq := some value } none none
  | fromChainId => .mk { fromChainIdEq := some value } none none
  | toChainId => .mk { toChainIdEq := some value } none none
  | msgIndex => .mk { msgIndexEq := some value } none none
  | index => .mk { indexEq := some value } none none

/-- The filter has one test. -/
theorem tests_eqFilter (numeric : String → Rat) (value : BigInt) (field : NumericField) :
    ∃ fields, field.eqFilter value = .mk fields none none ∧
      ∀ test, some test ∈ fields.tests numeric ↔
        test = .is .eq field.column (.numeric (numeric value.text)) := by
  cases field <;> refine ⟨_, rfl, fun test => ?_⟩ <;>
    simp [WhereFields.tests, isText, isNumeric, isInteger, isBoolean, amongText, notAmongText,
      amongNumeric, column]

end NumericField

/-- The table a row is queried from. -/
def queriedTable : LegacyRow → LegacyTable
  | .ormpHashImported _ => .ormpHashImported
  | .ormpMessageAccepted _ => .ormpMessageAccepted
  | .ormpMessageAssigned _ => .ormpMessageAssigned
  | .ormpMessageDispatched _ => .ormpMessageDispatched
  | .msgportMessageRecv _ => .msgportMessageRecv
  | .msgportMessageSent _ => .msgportMessageSent
  | .signaturePubSignatureSubmittion _ => .signaturePubSignatureSubmittion

/-- The number of a row in a column that its table has. -/
def numberOf : LegacyRow → NumericField → Option Nat
  | r, .blockNumber => some r.blockNumber
  | r, .chainId => some r.chainId
  | .ormpHashImported r, .blockTimestamp => some r.blockTimestamp
  | .ormpMessageAccepted r, .blockTimestamp => some r.blockTimestamp
  | .ormpMessageAssigned r, .blockTimestamp => some r.blockTimestamp
  | .ormpMessageDispatched r, .blockTimestamp => some r.blockTimestamp
  | .msgportMessageRecv r, .blockTimestamp => some r.blockTimestamp
  | .msgportMessageSent r, .blockTimestamp => some r.blockTimestamp
  | .signaturePubSignatureSubmittion r, .blockTimestamp => some r.blockTimestamp
  | .ormpHashImported r, .srcChainId => some r.srcChainId
  | .ormpHashImported r, .targetChainId => some r.targetChainId
  | .ormpMessageDispatched r, .targetChainId => some r.targetChainId
  | .ormpMessageAccepted r, .fromChainId => some r.fromChainId
  | .msgportMessageSent r, .fromChainId => some r.fromChainId
  | .ormpMessageAccepted r, .toChainId => some r.toChainId
  | .msgportMessageSent r, .toChainId => some r.toChainId
  | .ormpHashImported r, .msgIndex => some r.msgIndex
  | .signaturePubSignatureSubmittion r, .msgIndex => some r.msgIndex
  | .ormpMessageAccepted r, .index => some r.index
  | _, _ => none

/-- The table has the column exactly if the row has a number for it. -/
theorem isSome_numberOf_iff (r : LegacyRow) (field : NumericField) :
    (numberOf r field).isSome ↔ field.column ∈ (queriedTable r).columns.map (·.1) := by
  cases r <;> cases field <;>
    simp [numberOf, queriedTable, LegacyTable.columns, NumericField.column]

theorem sqlRow_column (pg : Postgres) {r : LegacyRow} {field : NumericField} {n : Nat}
    (h : numberOf r field = some n) : sqlRow pg r field.column = number pg n := by
  cases r <;> cases field <;> cases h <;> rfl

/-! ## Stored rows -/

/-- The row stored under a table and an id. -/
def storedRow (db : Database) : OrmpIndexer.LegacyTable × String → Option LegacyRow
  | (.ormpHashImported, id) => (db.ormpHashImported.get id).map .ormpHashImported
  | (.ormpMessageAccepted, id) => (db.ormpMessageAccepted.get id).map .ormpMessageAccepted
  | (.ormpMessageAssigned, id) => (db.ormpMessageAssigned.get id).map .ormpMessageAssigned
  | (.ormpMessageDispatched, id) => (db.ormpMessageDispatched.get id).map .ormpMessageDispatched
  | (.msgportMessageRecv, id) => (db.msgportMessageRecv.get id).map .msgportMessageRecv
  | (.msgportMessageSent, id) => (db.msgportMessageSent.get id).map .msgportMessageSent
  | (.signaturePubSignatureSubmittion, id) =>
      (db.signaturePubSignatureSubmittion.get id).map .signaturePubSignatureSubmittion

/-- The row without its assignment columns. -/
def withoutAssignment : LegacyRow → LegacyRow
  | .ormpMessageAccepted r => .ormpMessageAccepted r.core
  | r => r

theorem eventRow_eq_storedRow (db : Database) (k : OrmpIndexer.LegacyTable × String) :
    db.eventRow k = (storedRow db k).map withoutAssignment := by
  obtain ⟨table, id⟩ := k
  cases table <;> simp only [Database.eventRow, storedRow, Option.map_map] <;> rfl

/-- The columns that are filtered by number are not the ones an assignment sets. -/
theorem numberOf_withoutAssignment (r : LegacyRow) (field : NumericField) :
    numberOf (withoutAssignment r) field = numberOf r field := by
  cases r <;> cases field <;> rfl

/-- An event that has been written is stored with the numbers it has. -/
theorem numberOf_storedRow (store : OrmpIndexer.Postgres) (db : Database) (e : LegacyOrmPEvent) :
    ∃ r, storedRow (store.writeLegacyEvent db e) (eventKey e) = some r ∧
      ∀ field, numberOf r field = numberOf (rowOf e) field := by
  have hrow := store.eventRow_writeLegacyEvent db e (eventKey e)
  rw [if_pos rfl, eventRow_eq_storedRow] at hrow
  obtain ⟨r, hr, hcore⟩ := Option.map_eq_some_iff.mp hrow
  exact ⟨r, hr, fun field => by rw [← hcore, numberOf_withoutAssignment]⟩

/-! ## Asking for a number -/

section

variable (pg : Postgres)

/-- The numeral of a `u128` stays the same through NUMERIC and back to TEXT. -/
def KeepsNumerals : Prop := ∀ n < 2 ^ 128, pg.numericText (pg.numeric (toString n)) = toString n

/-- What the API shows of a NUMERIC column. -/
def shownNumber (row : Row) (column : String) : Option BigInt :=
  match row column with
  | some (.numeric value) => some ⟨pg.numericText value⟩
  | _ => none

/-- The statement of a list field that is given a filter and nothing else. -/
def listStatement (table : LegacyTable) (where_ : LegacyWhereInput) : QueryBuilder :=
  let (offset, limit) := pageArgs none none
  pageStatement table (some where_) none offset limit

/-- The number that is shown is taken as a filter, and the condition selects the row. -/
def QueriedBack (r : LegacyRow) (field : NumericField) : Prop :=
  ∃ shown value clauses, shownNumber pg (sqlRow pg r) field.column = some shown ∧
    BigInt.parse shown.toValue = .ok value ∧
    readClauses (lex (listStatement (queriedTable r) (field.eqFilter value)).sql) = some clauses ∧
    clauses.Valid (queriedTable r) ∧ clauses.selects pg (sqlRow pg r) = true

variable {pg}

/-- A numeral in a filter on a column of the table selects the rows with its number. -/
theorem listStatement_selects {r : LegacyRow} {field : NumericField} {n : Nat}
    (hn : numberOf r field = some n) :
    ∃ clauses,
      readClauses (lex (listStatement (queriedTable r) (field.eqFilter ⟨toString n⟩)).sql) =
        some clauses ∧
      clauses.Valid (queriedTable r) ∧ clauses.selects pg (sqlRow pg r) = true := by
  obtain ⟨fields, hfilter, htests⟩ := field.tests_eqFilter pg.numeric ⟨toString n⟩
  have hcolumn := (isSome_numberOf_iff r field).mp (Option.isSome_iff_exists.mpr ⟨n, hn⟩)
  have hvalid : ValidRequest pg (queriedTable r) (some (field.eqFilter ⟨toString n⟩)) none := by
    refine ⟨?_, by simp⟩
    rintro _ ⟨⟩
    rw [hfilter, every_mk]
    refine ⟨fun test htest => ?_, by simp, by simp⟩
    rw [(htests test).mp htest]
    exact ⟨hcolumn, trivial⟩
  obtain ⟨clauses, hread, hclauses, hselects, -⟩ :=
    pageStatement_reads pg hvalid (pageArgs none none).1 (pageArgs none none).2
  refine ⟨clauses, hread.reads, hclauses, (hselects (sqlRow pg r)).mpr ?_⟩
  rintro _ ⟨⟩
  rw [hfilter, matches_mk]
  refine ⟨fun test htest => ?_, by simp, by simp⟩
  rw [(htests test).mp htest]
  exact ⟨_, sqlRow_column pg hn, by simp [Op.test]⟩

/-- A numeral is taken as a filter if its number is an `i128`. -/
theorem parse_numeral (n : Nat) : BigInt.parse (.string (toString n)) =
    if n < 2 ^ 127 then .ok ⟨toString n⟩ else .error (.custom "BigInt must be an integer") := by
  rw [BigInt.parse, parseI128_toString]
  split <;> rfl

theorem shownNumber_eq (hpg : KeepsNumerals pg) {r : LegacyRow} {field : NumericField} {n : Nat}
    (hn : numberOf r field = some n) (hu128 : n < 2 ^ 128) :
    shownNumber pg (sqlRow pg r) field.column = some ⟨toString n⟩ := by
  rw [shownNumber, sqlRow_column pg hn]
  exact congrArg (fun s => some (BigInt.mk s)) (hpg n hu128)

theorem queriedBack_iff (hpg : KeepsNumerals pg) {r : LegacyRow} {field : NumericField} {n : Nat}
    (hn : numberOf r field = some n) (hu128 : n < 2 ^ 128) :
    QueriedBack pg r field ↔ n < 2 ^ 127 := by
  have hshown := shownNumber_eq hpg hn hu128
  constructor
  · rintro ⟨shown, value, clauses, hsome, hok, -⟩
    rw [hshown] at hsome
    cases hsome
    rw [BigInt.toValue, parse_numeral] at hok
    by_contra hlarge
    rw [if_neg hlarge] at hok
    cases hok
  · intro hsmall
    obtain ⟨clauses, hread, hvalid, hselects⟩ := listStatement_selects hn
    have hok := parse_numeral n
    rw [if_pos hsmall] at hok
    exact ⟨_, _, clauses, hshown, hok, hread, hvalid, hselects⟩

end

/-- Whatever event has been written, a number of its row is queried back exactly if it is an `i128`. -/
theorem served_number_queried_iff {pg : Postgres} (hpg : KeepsNumerals pg)
    (store : OrmpIndexer.Postgres) (db : Database) {e : LegacyOrmPEvent} {field : NumericField}
    {n : Nat} (hn : numberOf (rowOf e) field = some n) (hu128 : n < 2 ^ 128) :
    ∃ r, storedRow (store.writeLegacyEvent db e) (eventKey e) = some r ∧
      (QueriedBack pg r field ↔ n < 2 ^ 127) := by
  obtain ⟨r, hstored, hnumbers⟩ := numberOf_storedRow store db e
  exact ⟨r, hstored, queriedBack_iff hpg ((hnumbers field).trans hn) hu128⟩

/-- NUMERIC, of the numerals. -/
def numerals : Postgres :=
  { codePoints with
    numeric := fun text => (Nat.ofDigitChars 10 text.toList 0 : Nat)
    numericText := fun value => toString value.num.toNat }

theorem keepsNumerals_numerals : KeepsNumerals numerals := by
  intro n _
  have hvalue : Nat.ofDigitChars 10 (toString n).toList 0 = n := by
    rw [toList_toString_nat]
    exact Nat.ofDigitChars_ten_toDigits
  show toString ((Nat.ofDigitChars 10 (toString n).toList 0 : Nat) : Rat).num.toNat = toString n
  rw [hvalue]
  rfl

/-- A log with any index that fits is decoded. -/
theorem exists_decoded_importedHash {msgIndex : U256} (h : msgIndex.value < 2 ^ 128) :
    ∃ metadata, decodeEvmLog wordCrates ((importedHash msgIndex).emit encodeWords .indexedInTopics
      importedHashLog) = .ok ((importedHash msgIndex).decoded metadata) := by
  obtain ⟨metadata, hmetadata⟩ := exists_evmMetadata metadataPresent_importedHashLog
  have hundoes := decoderOf_undoes documented_wordCrates (importedHash msgIndex)
    .indexedInTopics metadata ((importedHash msgIndex).decoded metadata)
    (decodeWords_encodeWords (oneWord_importedHash _ _))
  refine ⟨metadata, ?_⟩
  rw [decodeEvmLog_emit_eq documented_wordCrates _ _ hmetadata]
  refine hundoes.mpr ⟨fun n hn => ?_, rfl⟩
  have huint : n = 1 ∨ n = msgIndex.value := by
    simpa only [importedHash, ContractEvent.uints, List.mem_cons, List.not_mem_nil, or_false]
      using hn
  rcases huint with rfl | rfl
  · exact Nat.one_lt_two_pow (by decide)
  · exact h

theorem served_number_queried_iff_seven : ∃ metadata,
    decodeEvmLog wordCrates ((importedHash ⟨7, by decide⟩).emit encodeWords .indexedInTopics
      importedHashLog) = .ok ((importedHash ⟨7, by decide⟩).decoded metadata) ∧
    ∃ r, storedRow (OrmpIndexer.Postgres.legacyStore.writeLegacyEvent .empty
        ((importedHash ⟨7, by decide⟩).decoded metadata))
        (eventKey ((importedHash ⟨7, by decide⟩).decoded metadata)) = some r ∧
      (QueriedBack numerals r .msgIndex ↔ 7 < 2 ^ 127) := by
  have hsmall : (⟨7, by decide⟩ : U256).value < 2 ^ 128 := by decide
  obtain ⟨metadata, hdecoded⟩ := exists_decoded_importedHash hsmall
  exact ⟨metadata, hdecoded, served_number_queried_iff keepsNumerals_numerals _ _ rfl (by decide)⟩

/-- The message index `2 ^ 127` is decoded, stored and shown, and refused as a filter. -/
theorem large_number_refused : ∃ metadata,
    decodeEvmLog wordCrates ((importedHash ⟨2 ^ 127, by decide⟩).emit encodeWords .indexedInTopics
      importedHashLog) = .ok ((importedHash ⟨2 ^ 127, by decide⟩).decoded metadata) ∧
    ∃ r, storedRow (OrmpIndexer.Postgres.legacyStore.writeLegacyEvent .empty
        ((importedHash ⟨2 ^ 127, by decide⟩).decoded metadata))
        (eventKey ((importedHash ⟨2 ^ 127, by decide⟩).decoded metadata)) = some r ∧
      shownNumber numerals (sqlRow numerals r) "msg_index" =
        some ⟨"170141183460469231731687303715884105728"⟩ ∧
      ¬ QueriedBack numerals r .msgIndex := by
  have hfits : (⟨2 ^ 127, by decide⟩ : U256).value < 2 ^ 128 := by decide
  obtain ⟨metadata, hdecoded⟩ := exists_decoded_importedHash hfits
  obtain ⟨r, hstored, hnumbers⟩ := numberOf_storedRow .legacyStore .empty
    ((importedHash ⟨2 ^ 127, by decide⟩).decoded metadata)
  have hn : numberOf r .msgIndex = some (2 ^ 127) := hnumbers .msgIndex
  refine ⟨metadata, hdecoded, r, hstored, ?_, fun hback => ?_⟩
  · have hshown := shownNumber_eq keepsNumerals_numerals hn hfits
    exact hshown.trans (by decide +kernel)
  · exact absurd ((queriedBack_iff keepsNumerals_numerals hn hfits).mp hback) (Nat.lt_irrefl _)

end OrmpIndexer.Graphql
