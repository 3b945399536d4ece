import Fabric.Orderer.Filters

/-!
# Delivering blocks

A client asks for a range of blocks of a channel.  The deliver handler checks
the request against the readers policy, fixes the first and the last block, and
then waits for each block, reads it and sends it.  Whenever it sees that the
sequence number of the configuration has grown, it checks the request again.

The handlers of all clients run beside the loop that writes the blocks.  The
commit of a configuration, the append of a block and every access of a handler
to the channel are single steps, in any order.
-/

namespace Fabric.Orderer.Deliver

open Library ByteString Protos ConfigTx.Manager Filters

/-! ## The channel -/

/-- A block, with the position of the configuration that it carries. -/
structure LedgerBlock where
  number : Nat
  config : Option Nat
deriving DecidableEq

/--
The shared part of a channel.  A configuration may have been committed whose
block is not written yet.
-/
structure Chain (Resources : Type) where
  earlier : List (ConfigManager Resources)
  current : ConfigManager Resources
  ledger : List LedgerBlock
  committing : Bool

/-- All configurations up to the present one, in order. -/
def Chain.history {Resources : Type} (chain : Chain Resources) : List (ConfigManager Resources) :=
  chain.earlier ++ [chain.current]

def Chain.append {Resources : Type}
    (chain : Chain Resources) (config : Option Nat) : Chain Resources :=
  { chain with
    ledger := chain.ledger ++ [⟨chain.ledger.length, config⟩]
    committing := false }

/-! ## Cursors -/

/-- An iterator over a ledger, or the one that only returns an error. -/
inductive Cursor where
  | found (blockNumber : Nat)
  | notFound
deriving DecidableEq

/-- The iterator from a position, and the number of its first block. -/
def iterator (ledger : List LedgerBlock) : SeekPosition → Cursor × Nat
  | .oldest => (.found 0, 0)
  | .newest => (.found (ledger.length - 1), ledger.length - 1)
  | .specified number =>
    if ledger.length < number.toNat then (.notFound, 0) else (.found number.toNat, number.toNat)
  | .unset => (.notFound, 0)

/-- The iterator will not block. -/
def Cursor.isReady (ledger : List LedgerBlock) : Cursor → Bool
  | .found blockNumber => decide (blockNumber < ledger.length)
  | .notFound => true

/-- The number of the last block, if the position is accepted. -/
def stopNumber (ledger : List LedgerBlock) (number : Nat) : SeekPosition → Nat
  | .oldest => number
  | .newest => ledger.length - 1
  | .specified stop => stop.toNat
  | .unset => 0

/-- Only a specified stop is compared with the start. -/
def isRefused (number : Nat) : SeekPosition → Bool
  | .specified stop => decide (stop.toNat < number)
  | _ => false

/-! ## The handler of a client -/

/-- The status that a request ends with. -/
inductive Status where
  | success
  | badRequest
  | forbidden
  | notFound
  | serviceUnavailable
deriving DecidableEq

/-- What is sent to a client. -/
inductive Response where
  | block (number : Nat)
  | status (status : Status)
deriving DecidableEq

/-- A request whose range has been fixed. -/
structure Request where
  behavior : SeekBehavior
  lastConfigSequence : UInt64
  cursor : Cursor
  stopNum : Nat

/-- What the handler does next. -/
inductive Phase where
  | receive
  | readSequence (data : Slice)
  | authorize (data : Slice) (lastConfigSequence : UInt64)
  | openCursor (data : Slice) (lastConfigSequence : UInt64)
  | fixStop
      (behavior : SeekBehavior) (lastConfigSequence : UInt64)
      (cursor : Cursor) (number : Nat) (stop : SeekPosition)
  | checkReady (request : Request)
  | wait (request : Request) (height : Nat)
  | compareSequence (request : Request)
  | reauthorize (request : Request)
  | next (request : Request)
  | reply (request : Request) (number : Nat)
  | finish
  | closed

/--
The handler of a stream: the present request, its range once that is fixed,
and the responses to it so far.
-/
structure Stream where
  phase : Phase
  envelope : Envelope
  range : Option (Nat × Nat)
  log : List Response

namespace Stream

def enter (stream : Stream) (phase : Phase) : Stream := { stream with phase := phase }

def fail (stream : Stream) (status : Status) : Stream :=
  { stream with
    phase := .closed
    log := stream.log ++ [.status status] }

end Stream

section

variable {Resources : Type} (handlers : ChannelHandlers Resources) (codec : Codec)

/--
The request satisfies the readers policy of a configuration.  A policy that panics
takes the orderer down; here, as there, no block is sent.
-/
def permits (cm : ConfigManager Resources) (envelope : Envelope) : Bool :=
  match sigFilterFor handlers codec channelReaders cm envelope with
  | .forward => true
  | _ => false

/-- The channel and the data of a request that is well formed. -/
def readRequest (envelope : Envelope) : Option (GoString × Slice) := do
  let payload ← codec.unmarshalPayload envelope.payload.bytes
  let header ← payload.header
  let chdr ← codec.unmarshalChannelHeader header.channelHeader.bytes
  some (chdr.channelId, payload.data)

section

variable (chain : Chain Resources)

/-- Take up a request, for which the channel has to be known. -/
def receive (envelope : Envelope) : Stream :=
  let stream : Stream := ⟨.receive, envelope, none, []⟩
  match readRequest codec envelope with
  | none => stream.fail .badRequest
  | some (channelId, data) =>
    if channelId = chain.current.channelID then stream.enter (.readSequence data)
    else stream.fail .notFound

/-- Read the positions of a request and open the cursor. -/
def openCursor (data : Slice) (lastConfigSequence : UInt64) (stream : Stream) : Stream :=
  match codec.unmarshalSeekInfo data.bytes with
  | some ⟨some start, some stop, behavior⟩ =>
    let (cursor, number) := iterator chain.ledger start
    stream.enter (.fixStop behavior lastConfigSequence cursor number stop)
  | _ => stream.fail .badRequest

/-- Fixes the range, or refuses it. -/
def fixStop (behavior : SeekBehavior) (lastConfigSequence : UInt64) (cursor : Cursor) (number : Nat)
    (stop : SeekPosition) (stream : Stream) : Stream :=
  let stopNum := stopNumber chain.ledger number stop
  let fixed := { stream with range := some (number, stopNum) }
  if isRefused number stop then fixed.fail .badRequest
  else fixed.enter (.checkReady ⟨behavior, lastConfigSequence, cursor, stopNum⟩)

/-- Compare the sequence number with the one last seen. -/
def compareSequence (request : Request) (stream : Stream) : Stream :=
  if request.lastConfigSequence < chain.current.sequence then
    stream.enter (.reauthorize { request with lastConfigSequence := chain.current.sequence })
  else
    stream.enter (.next request)

end

/-- Send a block; the loop ends after the last one. -/
def reply (request : Request) (number : Nat) (stream : Stream) : Stream :=
  { stream with
    phase := if request.stopNum = number then .finish else .checkReady request
    log := stream.log ++ [.block number] }

/--
The steps of the handler of one client.  The consenter may fail at any time, a
block may turn out to be unreadable, and the client may go away.
-/
inductive StreamStep (chain : Chain Resources) : Stream → Stream → Prop where
  | receives
      {stream : Stream} (envelope : Envelope)
      (phase : stream.phase = .receive) :
      StreamStep chain stream (receive codec chain envelope)
  | errored
      {stream : Stream} {data : Slice}
      (phase : stream.phase = .readSequence data) :
      StreamStep chain stream (stream.fail .serviceUnavailable)
  | readsSequence
      {stream : Stream} {data : Slice}
      (phase : stream.phase = .readSequence data) :
      StreamStep chain stream (stream.enter (.authorize data chain.current.sequence))
  | authorizes
      {stream : Stream} {data : Slice} {lastConfigSequence : UInt64}
      (phase : stream.phase = .authorize data lastConfigSequence) :
      StreamStep chain stream (if permits handlers codec chain.current stream.envelope then
          stream.enter (.openCursor data lastConfigSequence)
        else
          stream.fail .forbidden)
  | opensCursor
      {stream : Stream} {data : Slice} {lastConfigSequence : UInt64}
      (phase : stream.phase = .openCursor data lastConfigSequence) :
      StreamStep chain stream (openCursor codec chain data lastConfigSequence stream)
  | fixesStop
      {stream : Stream} {behavior : SeekBehavior}
      {lastConfigSequence : UInt64} {cursor : Cursor} {number : Nat}
      {stop : SeekPosition}
      (phase : stream.phase = .fixStop behavior lastConfigSequence cursor number stop) :
      StreamStep chain stream (fixStop chain behavior lastConfigSequence cursor number stop stream)
  | isReady
      {stream : Stream} {request : Request}
      (phase : stream.phase = .checkReady request)
      (ready : request.cursor.isReady chain.ledger = true) :
      StreamStep chain stream (stream.enter (.compareSequence request))
  | waits
      {stream : Stream} {request : Request}
      (phase : stream.phase = .checkReady request)
      (unready : request.cursor.isReady chain.ledger = false) :
      StreamStep chain stream (stream.enter (.wait request chain.ledger.length))
  | signalled
      {stream : Stream} {request : Request} {height : Nat}
      (phase : stream.phase = .wait request height)
      (appended : height < chain.ledger.length) :
      StreamStep chain stream (stream.enter (.compareSequence request))
  | aborts
      {stream : Stream} {request : Request} {height : Nat}
      (phase : stream.phase = .wait request height)
      (blocking : request.behavior = .blockUntilReady) :
      StreamStep chain stream (stream.fail .serviceUnavailable)
  | abortsReady
      {stream : Stream} {request : Request}
      (phase : stream.phase = .checkReady request)
      (blocking : request.behavior = .blockUntilReady) :
      StreamStep chain stream (stream.fail .serviceUnavailable)
  | notReady
      {stream : Stream} {request : Request} {height : Nat}
      (phase : stream.phase = .wait request height)
      (failing : request.behavior = .failIfNotReady)
      (unchanged : chain.ledger.length = height) :
      StreamStep chain stream (stream.fail .notFound)
  | comparesSequence
      {stream : Stream} {request : Request}
      (phase : stream.phase = .compareSequence request) :
      StreamStep chain stream (compareSequence chain request stream)
  | reauthorizes
      {stream : Stream} {request : Request}
      (phase : stream.phase = .reauthorize request) :
      StreamStep chain stream (if permits handlers codec chain.current stream.envelope then
          stream.enter (.next request)
        else
          stream.fail .forbidden)
  | readsBlock
      {stream : Stream} {request : Request} {number : Nat}
      {block : LedgerBlock}
      (phase : stream.phase = .next request)
      (cursor : request.cursor = .found number)
      (found : chain.ledger[number]? = some block) :
      StreamStep chain stream (stream.enter (.reply { request with cursor := .found (number + 1) }
            block.number))
  | readsNothing
      {stream : Stream} {request : Request}
      (phase : stream.phase = .next request)
      (cursor : request.cursor = .notFound) :
      StreamStep chain stream (stream.fail .notFound)
  | readFails
      {stream : Stream} {request : Request}
      (phase : stream.phase = .next request) :
      StreamStep chain stream (stream.fail .serviceUnavailable)
  | replies
      {stream : Stream} {request : Request} {number : Nat}
      (phase : stream.phase = .reply request number) :
      StreamStep chain stream (reply request number stream)
  | finishes
      {stream : Stream} (phase : stream.phase = .finish) :
      StreamStep chain stream
        { stream with
          phase := .receive
          log := stream.log ++ [.status .success] }
  | disconnects
      {stream : Stream} : StreamStep chain stream (stream.enter .closed)

/-! ## The channel with its writer and its clients -/

/-- An orderer and the logs of its clients. -/
structure System (Client Resources : Type) where
  chain : Chain Resources
  streams : Client → Stream

variable {Client : Type} [DecidableEq Client]

/-- Who takes a step. -/
inductive Turn (Client : Type) where
  | commitConfig
  | appendConfig
  | appendBlock
  | serve (client : Client)

/--
The writer commits a configuration and then appends its block, or appends a
block without a configuration; the clients are served in between.
-/
inductive Step (system : System Client Resources) :
    Turn Client → System Client Resources → Prop where
  | commitConfig
      {configEnv : ConfigEnvelope} {later : ConfigManager Resources}
      (idle : system.chain.committing = false)
      (applied : apply handlers.toHandlers codec system.chain.current configEnv = .ok later) :
      Step system .commitConfig
        { system with
          chain :=
            { system.chain with
              earlier := system.chain.history
              current := later
              committing := true } }
  | appendConfig
      (committed : system.chain.committing = true) :
      Step system .appendConfig
        { system with chain := system.chain.append (some system.chain.earlier.length) }
  | appendBlock
      (idle : system.chain.committing = false) :
      Step system .appendBlock { system with chain := system.chain.append none }
  | serve
      {client : Client} {later : Stream}
      (served : StreamStep handlers codec system.chain (system.streams client) later) :
      Step system (.serve client)
        { system with streams := Function.update system.streams client later }

/--
A ledger as the channel finds it when the orderer starts: its blocks carry no
configuration newer than the first one in force.
-/
structure Ledger where
  blocks : List LedgerBlock
  nonempty : blocks ≠ []
  numbered : ∀ (number : Nat) (block : LedgerBlock),
      blocks[number]? = some block → block.number = number
  settled : ∀ block ∈ blocks, ∀ config ∈ block.config, config = 0

def start (initial : ConfigManager Resources) (ledger : Ledger) : System Client Resources where
  chain := ⟨[], initial, ledger.blocks, false⟩
  streams _ := ⟨.receive, ⟨none, none⟩, none, []⟩

/-- The systems that are reached by steps that are all allowed. -/
inductive ReachableBy (allowed : System Client Resources → Turn Client → Prop)
    (initial : ConfigManager Resources) (ledger : Ledger) :
    System Client Resources → Prop where
  | start : ReachableBy allowed initial ledger (start initial ledger)
  | step
      {before after : System Client Resources} {turn : Turn Client}
      (reachable : ReachableBy allowed initial ledger before)
      (meets : allowed before turn)
      (step : Step handlers codec before turn after) :
      ReachableBy allowed initial ledger after

variable {handlers codec} {initial : ConfigManager Resources} {ledger : Ledger}

theorem ReachableBy.serve {allowed : System Unit Resources → Turn Unit → Prop}
    {chain : Chain Resources} {stream later : Stream}
    (reachable : ReachableBy handlers codec allowed initial ledger ⟨chain, fun _ => stream⟩)
    (meets : allowed ⟨chain, fun _ => stream⟩ (.serve ()))
    (served : StreamStep handlers codec chain stream later) :
    ReachableBy handlers codec allowed initial ledger ⟨chain, fun _ => later⟩ := by
  have next := reachable.step meets (Step.serve served)
  have same : Function.update (fun _ : Unit => stream) () later = fun _ => later :=
    funext fun _ => rfl
  simpa only [same] using next

end

end Fabric.Orderer.Deliver
