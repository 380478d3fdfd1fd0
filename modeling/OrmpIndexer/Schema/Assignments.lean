/-
# OrmpIndexer.Schema.Assignments — which assignments an accepted message takes over

`schema/assignments.rs`: the addresses whose assignments count, the cut-over rule of the legacy b49e
oracle, and the update of the six assignment columns in Rust. The database runs the same update in
SQL; `Database` models that one.
-/
import OrmpIndexer.Schema.Rows

namespace OrmpIndexer

open Foundation

/-- The relayers whose assignments count. -/
def ADDRESS_RELAYER : List String :=
  ["0x114890eb7386f94eae410186f20968bfaf66142a", "0xb607762f43f1a72593715497d4a7ddd754c62a6a"]

/-- The oracles whose assignments count, b49e apart. -/
def ADDRESS_ORACLE : List String :=
  ["0x8d8a2bd991c1d900c59a82a2eeb0df44e0671aab", "0x2cdc7178013de451ed99607ac15def6bab8c37e6"]

/-- A former oracle, whose assignments count from a block of each chain on. -/
def LEGACY_B49E_ORACLE : String := "0xb49e82067a54b3e8c5d9db2f378fdb6892c04d2e"
def LEGACY_B49E_ORACLE_FROM_BLOCK : Nat := 22474070
def LEGACY_B49E_DARWINIA_FROM_BLOCK : Nat := 6634860
def LEGACY_B49E_ARBITRUM_FROM_BLOCK : Nat := 334644126

/-- The one message whose oracle is spelled in mixed case. -/
def LEGACY_MIXED_CASE_ACCEPTED_ID : String :=
  "0x5e6f833385d1a3041e8033e64c32c7c931104bc56881ef155fcb6032e87617df"
def LEGACY_MIXED_CASE_ACCEPTED_ORACLE : String := "0x8d8a2Bd991c1d900C59a82a2EEb0DF44e0671aaB"

/-- Whose assignments an accepted message takes over. -/
structure AssignmentConfig where
  oracleAddresses : List String
  relayerAddresses : List String
deriving DecidableEq, Repr

/-- The configuration of production. -/
def AssignmentConfig.legacyDefaults : AssignmentConfig where
  oracleAddresses := ADDRESS_ORACLE
  relayerAddresses := ADDRESS_RELAYER

/-- The address is in the list, in any letter case. -/
def containsAddress (addresses : List String) (candidate : String) : Bool :=
  addresses.any fun address => eqIgnoreAsciiCase address (toAsciiLowercase candidate)

/-- The messages whose b49e assignment counts: those of three chains from a cut-over block on. -/
def legacyB49eCutover (accepted : OrmpMessageAcceptedRow) : Bool :=
  (accepted.chainId == 1 && accepted.fromChainId == 1 && accepted.toChainId == 46 &&
      decide (LEGACY_B49E_ORACLE_FROM_BLOCK ≤ accepted.blockNumber)) ||
    (accepted.chainId == 46 && accepted.fromChainId == 46 &&
      decide (LEGACY_B49E_DARWINIA_FROM_BLOCK ≤ accepted.blockNumber)) ||
    (accepted.chainId == 42161 && accepted.fromChainId == 42161 &&
      decide (LEGACY_B49E_ARBITRUM_FROM_BLOCK ≤ accepted.blockNumber))

/-- Whether the oracle of an assignment goes into the accepted row: a listed one always, b49e from its cut-over
on. -/
def isOracleAssignmentForAccepted (accepted : OrmpMessageAcceptedRow)
    (assigned : OrmpMessageAssignedRow) (config : AssignmentConfig) : Bool :=
  (containsAddress config.oracleAddresses assigned.oracle &&
      !eqIgnoreAsciiCase assigned.oracle LEGACY_B49E_ORACLE) ||
    (eqIgnoreAsciiCase assigned.oracle LEGACY_B49E_ORACLE && legacyB49eCutover accepted)

/-- The oracle as it is written into the accepted row. -/
def acceptedOracleValue (acceptedId oracle : String) : String :=
  if acceptedId = LEGACY_MIXED_CASE_ACCEPTED_ID ∧
      eqIgnoreAsciiCase oracle LEGACY_MIXED_CASE_ACCEPTED_ORACLE then
    LEGACY_MIXED_CASE_ACCEPTED_ORACLE
  else oracle

/-- Which of the two groups of columns were updated. -/
structure AssignmentUpdate where
  oracle : Bool
  relayer : Bool
deriving DecidableEq, Repr

/-- The assignment columns an assigned row gives an accepted row, and which of them it gave. -/
def applyAssignmentToAccepted (accepted : OrmpMessageAcceptedRow)
    (assigned : OrmpMessageAssignedRow) (config : AssignmentConfig) :
    OrmpMessageAcceptedRow × AssignmentUpdate :=
  if accepted.id ≠ assigned.msgHash then (accepted, ⟨false, false⟩)
  else
    let relayer := containsAddress config.relayerAddresses assigned.relayer
    let accepted :=
      if relayer then
        { accepted with
          relayer := some assigned.relayer
          relayerAssigned := some true
          relayerAssignedFee := some assigned.relayerFee }
      else accepted
    let oracle := isOracleAssignmentForAccepted accepted assigned config
    let accepted :=
      if oracle then
        { accepted with
          oracle := some (acceptedOracleValue accepted.id assigned.oracle)
          oracleAssigned := some true
          oracleAssignedFee := some assigned.oracleFee }
      else accepted
    (accepted, ⟨oracle, relayer⟩)

end OrmpIndexer
