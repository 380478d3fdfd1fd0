/-
# OrmpIndexer.TronRecovery.Command — one invocation of the recovery

`tron_recovery/command.rs`. `run` connects to the database unless the run is dry, which is the argument
`pool` of `execute`: whether there is a database. The arguments are parsed by `clap`, so a batch
size is between 1 and 2000.
-/
import OrmpIndexer.TronRecovery.Scan

namespace OrmpIndexer

open Foundation

namespace TronRecovery

/-- The command line of a recovery. -/
structure Args where
  fromBlock : Nat
  toBlock : Option Nat
  batchSize : Nat
  dryRun : Bool
deriving DecidableEq, Repr

/-- The arguments of a run without options. -/
def Args.default : Args := ⟨87383828, none, 500, false⟩

section

variable (crates : Crates)

/-- The part of `execute` behind the lock. -/
def executeFrom (args : Args) (store : Bool) (stop : Nat) : Async Unit := do
  let start ←
    if store then do
      RecoveryStore.checkPrecedingMessage
      RecoveryStore.nextBlock args.fromBlock
    else pure args.fromBlock
  -- caught up already
  if stop < start then return ()
  else
    let _ ← recover crates store start stop args.batchSize
    return ()

def execute (args : Args) (pool : Bool) : Async Unit := do
  check (decide (0 < args.batchSize)) "batch size must be positive"
  TronRpc.ensureMainnet
  let confirmedHead ← TronRpc.confirmedHead
  let stop := args.toBlock.getD confirmedHead
  check (decide (stop < u64Max)) "Tron end height overflow"
  check (decide (stop ≤ confirmedHead))
    s!"requested end is above confirmed Tron head {confirmedHead}"
  if let some toBlock := args.toBlock then
    check (decide (args.fromBlock ≤ toBlock)) "from-block exceeds to-block"
  if pool && !args.dryRun then
    if ← RecoveryStore.lock then executeFrom crates args true stop
    -- another invocation is running
    else return ()
  else
    check args.dryRun "database required for recovery writes"
    executeFrom crates args false stop

def run (args : Args) : Async Unit := execute crates args (!args.dryRun)

end

end TronRecovery

end OrmpIndexer
