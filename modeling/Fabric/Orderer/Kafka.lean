import Fabric.Orderer.Channel

/-!
# The Kafka consensus loop

The orderers of a channel all consume one Kafka partition, which fixes the
order of the messages.  Each turns what it reads into blocks.  Batches are also
cut when a timer expires: the orderer whose timer fires does not cut, but posts
a time-to-cut message with the number of its next block, and cuts when it reads
such a message for the block it is about to write.

A block records in its metadata the offset up to which its orderer has
persisted the partition; after a restart the orderer reads on from there.
-/

namespace Fabric.Orderer.Kafka

open Library ByteString Protos BlockCutter Channel

/-! ## Messages and the state of a chain -/

/-- A message of a partition. -/
inductive KafkaMessage where
  | connect
  | timeToCut (blockNumber : Nat)
  | regular (payload : Slice)
deriving DecidableEq

/-- Why a message is dropped. -/
inductive ProcessError where
  | unmarshal
  | noPendingRequests (blockNumber : Nat)
  | largerTimeToCut (blockNumber expected : Nat)
deriving DecidableEq

/-- A channel, the number of its last block and whether its timer runs. -/
structure Chain (Config Update : Type) where
  support : ChainSupport Config Update
  lastCutBlockNumber : Nat
  timer : Bool

section

variable {Config Update : Type} (rules : Rules Config Update) (codec : Codec)

/--
The offset recorded in the first block that a message completes.  If the
message is not in that block, it has to be read again after a restart.
-/
def firstOffset (result : OrderedResult (Committer Update)) (receivedOffset : Nat) : Int :=
  if result.pending || result.messageBatches.length == 2 then (receivedOffset : Int) - 1
  else receivedOffset

/-- Handles a message from the partition. -/
def processRegular (chain : Chain Config Update) (receivedOffset : Nat) (payload : Slice) :
    Outcome ProcessError (Chain Config Update) := do
  let env ← Outcome.ofOption .unmarshal (codec.unmarshalEnvelope payload.bytes)
  let filtered ← runFilters rules chain.support.config env
  let (result, cutter) := order rules chain.support env filtered
  let support := { chain.support with cutter := cutter }
  if result.validTx && result.messageBatches.isEmpty && !chain.timer then
    .ok { chain with support := support, timer := true }
  else
    let written ← writeBatches rules support (some (firstOffset result receivedOffset))
        result.messageBatches result.committerBatches
    .ok
      { support := written
        lastCutBlockNumber := chain.lastCutBlockNumber + result.messageBatches.length
        timer := chain.timer && result.messageBatches.isEmpty }

/-- Cuts for the next block's number only. -/
def processTimeToCut (chain : Chain Config Update) (receivedOffset ttcNumber : Nat) :
    Outcome ProcessError (Chain Config Update) :=
  if ttcNumber = chain.lastCutBlockNumber + 1 then
    let ((batch, committers), cutter) := cut chain.support.cutter
    if batch.isEmpty then
      .error (.noPendingRequests (chain.lastCutBlockNumber + 1))
    else do
      let written ← writeBlock rules { chain.support with cutter := cutter } batch
          committers (some receivedOffset)
      .ok
        { support := written
          lastCutBlockNumber := chain.lastCutBlockNumber + 1
          timer := false }
  else if chain.lastCutBlockNumber + 1 < ttcNumber then
    .error (.largerTimeToCut ttcNumber (chain.lastCutBlockNumber + 1))
  else
    .ok chain

/--
Process a message.  An error from a regular message is logged and the loop
goes on; one from a time-to-cut message ends the loop.
-/
def processMessage (chain : Chain Config Update) (receivedOffset : Nat) :
    KafkaMessage → Outcome ProcessError (Chain Config Update)
  | .connect => .ok chain
  | .timeToCut ttcNumber => processTimeToCut rules chain receivedOffset ttcNumber
  | .regular payload =>
    (processRegular rules codec chain receivedOffset payload).handle (fun _ => .ok chain) .ok

end

/-! ## Starting a chain -/

/-- The Kafka client's name for the first message of a partition. -/
def offsetOldest : Int := -2

/--
The metadata of a block as it is read back.  An offset of zero is left out of
the encoding and cannot be told from missing metadata.
-/
def readMetadata (block : WrittenBlock) : Option Int :=
  block.ordererMetadata.filter (· != 0)

/-- The offset that the last block records. -/
def getLastOffsetPersisted (metadataValue : Option Int) : Int :=
  metadataValue.getD (offsetOldest - 1)

/-- The offset from which the partition is read after a start. -/
def startOffset (ledger : List WrittenBlock) : Nat :=
  let lastOffsetPersisted := getLastOffsetPersisted (ledger.getLast?.bind readMetadata)
  if lastOffsetPersisted + 1 = offsetOldest then 0 else (lastOffsetPersisted + 1).toNat

/-- A chain over the ledger it finds. -/
def newChain {Config Update : Type} (config : Config) (ledger : List WrittenBlock) :
    Chain Config Update where
  support := ⟨config, ledger, Receiver.new⟩
  lastCutBlockNumber := ledger.length
  timer := false

/-! ## A partition and its orderers -/

/-- An orderer keeps its configuration and ledger when it is not running. -/
inductive OrdererState (Config Update : Type) where
  | stopped (config : Config) (ledger : List WrittenBlock)
  | running (chain : Chain Config Update) (nextOffset : Nat)
  | failed (config : Config) (ledger : List WrittenBlock)

def OrdererState.ledger {Config Update : Type} : OrdererState Config Update → List WrittenBlock
  | .stopped _ ledger => ledger
  | .running chain _ => chain.support.ledger
  | .failed _ ledger => ledger

/-- The partition of a channel and the orderers that read it. -/
structure System (Node Config Update : Type) where
  partition : List KafkaMessage
  orderers : Node → OrdererState Config Update

section

variable {Node Config Update : Type} [DecidableEq Node] (rules : Rules Config Update)
  (codec : Codec)

/--
The orderer after it has consumed a message.  An error ends the loop.  A panic
of a filter takes the orderer down, and it may be started again.
-/
def consume (chain : Chain Config Update) (nextOffset : Nat)
    (message : KafkaMessage) : OrdererState Config Update :=
  match processMessage rules codec chain nextOffset message with
  | .ok later => .running later (nextOffset + 1)
  | .error _ => .failed chain.support.config chain.support.ledger
  | .panic => .stopped chain.support.config chain.support.ledger

/-- What an orderer has written when it stops after some blocks. -/
def writeSome (chain : Chain Config Update) (receivedOffset : Nat) (env : Envelope) (count : Nat) :
    Outcome ProcessError (ChainSupport Config Update) := do
  let filtered ← runFilters rules chain.support.config env
  let (result, cutter) := order rules chain.support env filtered
  writeBatches rules { chain.support with cutter := cutter }
    (some (firstOffset result receivedOffset))
    (result.messageBatches.take count) (result.committerBatches.take count)

def System.post (system : System Node Config Update) (message : KafkaMessage) :
    System Node Config Update :=
  { system with partition := system.partition ++ [message] }

def System.set (system : System Node Config Update) (node : Node)
    (orderer : OrdererState Config Update) : System Node Config Update :=
  { system with orderers := Function.update system.orderers node orderer }

/--
The steps of the system.  An orderer posts a connect message before it starts
to consume or to accept envelopes, and may post more of them later.
-/
inductive Step (system : System Node Config Update) : System Node Config Update → Prop where
  | start
      {node : Node} {config : Config} {ledger : List WrittenBlock}
      (stopped : system.orderers node = .stopped config ledger) :
      Step system ((system.post .connect).set node
          (.running (newChain config ledger) (startOffset ledger)))
  | connect
      {node : Node} {chain : Chain Config Update} {nextOffset : Nat}
      (running : system.orderers node = .running chain nextOffset) :
      Step system (system.post .connect)
  | enqueue
      {node : Node} {chain : Chain Config Update} {nextOffset : Nat}
      (running : system.orderers node = .running chain nextOffset)
      (payload : Slice) :
      Step system (system.post (.regular payload))
  | consume
      {node : Node} {chain : Chain Config Update} {nextOffset : Nat}
      {message : KafkaMessage}
      (running : system.orderers node = .running chain nextOffset)
      (next : system.partition[nextOffset]? = some message) :
      Step system (system.set node (consume rules codec chain nextOffset message))
  | stopBetweenBlocks
      {node : Node} {chain : Chain Config Update} {nextOffset count : Nat}
      {payload : Slice} {env : Envelope}
      {written : ChainSupport Config Update}
      (running : system.orderers node = .running chain nextOffset)
      (next : system.partition[nextOffset]? = some (.regular payload))
      (decoded : codec.unmarshalEnvelope payload.bytes = some env)
      (writes : writeSome rules chain nextOffset env count = .ok written) :
      Step system (system.set node (.stopped written.config written.ledger))
  | timerPosts
      {node : Node} {chain : Chain Config Update} {nextOffset : Nat}
      (running : system.orderers node = .running chain nextOffset)
      (expired : chain.timer = true) :
      Step system ((system.post (.timeToCut (chain.lastCutBlockNumber + 1))).set node
          (.running { chain with timer := false } nextOffset))
  | timerFailsToPost
      {node : Node} {chain : Chain Config Update} {nextOffset : Nat}
      (running : system.orderers node = .running chain nextOffset)
      (expired : chain.timer = true) :
      Step system (system.set node (.running { chain with timer := false } nextOffset))
  | stop
      {node : Node} {chain : Chain Config Update} {nextOffset : Nat}
      (running : system.orderers node = .running chain nextOffset) :
      Step system (system.set node (.stopped chain.support.config chain.support.ledger))

/-- The systems that arise from an empty partition and a genesis block. -/
inductive Reachable (config : Config) : System Node Config Update → Prop where
  | initial : Reachable config ⟨[], fun _ => .stopped config []⟩
  | step
      {system later : System Node Config Update}
      (reachable : Reachable config system)
      (step : Step rules codec system later) :
      Reachable config later

end

end Fabric.Orderer.Kafka
