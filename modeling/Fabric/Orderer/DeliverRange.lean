import Fabric.Library.Log
import Fabric.Orderer.ConfigInForce
import Fabric.Orderer.Deliver

/-!
# The range of a delivery

The first and the last block of a delivery are fixed when a request is taken
up, the one by the iterator and the other by the handler.  If the first one is
not after the last one, exactly the blocks between them are sent in order, and
then success.
-/

namespace Fabric.Orderer.DeliverRange

open Library ByteString Protos ConfigTx.Manager Filters Deliver

/-! ## Responses to a request -/

/-- The replies with a number of blocks from a first one on. -/
def blocksFrom (first count : Nat) : List Response := (List.range' first count).map .block

/-- No block has been sent, and at most an error. -/
inductive Refused : List Response → Prop where
  | nil : Refused []
  | failed {status : Status} (fails : status ≠ .success) : Refused [.status status]

/--
The blocks of a range are sent in order.  An error may end the delivery before
the last block, and success is sent right after it.
-/
inductive InOrder (first last : Nat) : List Response → Prop where
  | sending (count : Nat) (within : first + count ≤ last + 1) :
      InOrder first last (blocksFrom first count)
  | failed
      (count : Nat) {status : Status} (within : first + count ≤ last)
      (fails : status ≠ .success) :
      InOrder first last (blocksFrom first count ++ [.status status])
  | done
      (count : Nat) (complete : first + count = last + 1) :
      InOrder first last (blocksFrom first count ++ [.status .success])

/--
The request of a stream is answered as its range says.  A range that ends before
its start is answered with an error.
-/
def Served (stream : Stream) : Prop :=
  match stream.range with
  | none => Refused stream.log
  | some (first, last) =>
    if first ≤ last then InOrder first last stream.log
    else stream.log = [.status .badRequest]

/-! ## Progress of a handler -/

/--
A loop that is about to handle one more block: the cursor stands at that block
and all earlier ones have been sent.
-/
structure Sending
    (first last : Nat) (cursor : Cursor) (stopNum : Nat) (log : List Response) : Prop where
  ordered : first ≤ last
  stop : stopNum = last
  sent : cursor = .notFound ∧ log = [] ∨ ∃ count,
        cursor = .found (first + count) ∧ log = blocksFrom first count ∧ first + count ≤ last

/-- The log of a stream fits its phase. -/
def Advances (stream : Stream) : Prop :=
  match stream.phase with
  | .receive | .closed => Served stream
  | .readSequence _ | .authorize _ _ | .openCursor _ _ => stream.range = none ∧ stream.log = []
  | .fixStop _ _ cursor number _ =>
    stream.range = none ∧ stream.log = [] ∧
      (cursor = .notFound ∧ number = 0 ∨ cursor = .found number)
  | .checkReady request | .wait request _ | .compareSequence request
  | .reauthorize request | .next request =>
    ∃ first last, stream.range = some (first, last) ∧
        Sending first last request.cursor request.stopNum stream.log
  | .reply request number =>
    ∃ first last count, stream.range = some (first, last) ∧ request.stopNum = last ∧
        request.cursor = .found (number + 1) ∧
        number = first + count ∧
        number ≤ last ∧
        stream.log = blocksFrom first count
  | .finish =>
    ∃ first last count, stream.range = some (first, last) ∧ first ≤ last ∧
        first + count = last + 1 ∧
        stream.log = blocksFrom first count

section

variable {stream : Stream} {request : Request} {first last number : Nat} {cursor : Cursor}
  {stopNum : Nat}
  {log : List Response}

theorem Sending.inOrder (sending : Sending first last cursor stopNum log) :
    InOrder first last log := by
  rcases sending.sent with ⟨_, rfl⟩ | ⟨count, _, rfl, _⟩
  · exact .sending 0 (by have := sending.ordered; omega)
  · exact .sending count (by omega)

variable {status : Status}

theorem Sending.fail (sending : Sending first last cursor stopNum log) (fails : status ≠ .success) :
    InOrder first last (log ++ [.status status]) := by
  rcases sending.sent with ⟨_, rfl⟩ | ⟨count, _, rfl, within⟩
  · exact .failed 0 (by have := sending.ordered; omega) fails
  · exact .failed count within fails

theorem served_of_sending_fail (range : stream.range = some (first, last))
    (sending : Sending first last cursor stopNum stream.log) (fails : status ≠ .success) :
    Served (stream.fail status) := by
  simp only [Served, Stream.fail, range, sending.ordered, if_true]
  exact sending.fail fails

/-- What a stream has been sent fits its range at any time. -/
theorem Advances.served (advances : Advances stream) : Served stream := by
  rcases stream with ⟨phase, _, _, _⟩
  cases phase with
  | receive | closed => exact advances
  | readSequence data | authorize data sequence | openCursor data sequence =>
    rcases advances with ⟨rfl, rfl⟩
    exact Refused.nil
  | fixStop _ sequence _ number _ =>
    rcases advances with ⟨rfl, rfl, _⟩
    exact Refused.nil
  | checkReady request | wait request height | compareSequence request
  | reauthorize request | next request =>
    rcases advances with ⟨first, last, rfl, sending⟩
    simpa only [Served, sending.ordered, if_true] using sending.inOrder
  | reply request number =>
    rcases advances with ⟨first, last, count, rfl, _, _, rfl, _, rfl⟩
    have ordered : first ≤ last := by omega
    simpa only [Served, ordered, if_true] using InOrder.sending count (by omega)
  | finish =>
    rcases advances with ⟨first, last, count, rfl, ordered, _, rfl⟩
    simpa only [Served, ordered, if_true] using InOrder.sending count (by omega)

/-! ## Steps of a handler -/

def Numbered (ledger : List LedgerBlock) : Prop :=
  ∀ (number : Nat) (block : LedgerBlock), ledger[number]? = some block → block.number = number

/--
The range that is about to be fixed is not empty.  A stop without a type
counts as block zero, and a newest stop may lie before the start if the client
asks for the block after the newest one.
-/
def FixesRange (ledger : List LedgerBlock) : Phase → Prop
  | .fixStop _ _ _ number stop =>
    (stop = .unset → number = 0) ∧ (stop = .newest → number < ledger.length)
  | _ => True

section

variable {Resources : Type} {handlers : ChannelHandlers Resources} {codec : Codec}
  {chain : Chain Resources}

theorem advances_receive (envelope : Envelope) : Advances (receive codec chain envelope) := by
  simp only [receive]
  split
  · exact Refused.failed (by decide)
  · split
    · exact ⟨rfl, rfl⟩
    · exact Refused.failed (by decide)

theorem advances_fail (range : stream.range = none) (empty : stream.log = [])
    (fails : status ≠ .success) :
    Advances (stream.fail status) := by
  change Served (stream.fail status)
  simp only [Served, Stream.fail, range, empty]
  exact .failed fails

variable {sequence : UInt64}

theorem advances_openCursor {data : Slice} (range : stream.range = none) (empty : stream.log = []) :
    Advances (openCursor codec chain data sequence stream) := by
  rw [openCursor]
  split
  next start _ _ _ =>
    refine ⟨range, empty, ?_⟩
    cases start with
    | oldest | newest => exact Or.inr rfl
    | unset => exact Or.inl ⟨rfl, rfl⟩
    | specified number =>
      by_cases beyond : chain.ledger.length < number.toNat
      · simp [beyond]
      · simp [beyond]
  next => exact advances_fail range empty (by decide)

variable {stop : SeekPosition} {ledger : List LedgerBlock}

theorem le_stopNumber (untyped : stop = .unset → number = 0)
    (newest : stop = .newest → number < ledger.length) (accepted : isRefused number stop = false) :
    number ≤ stopNumber ledger number stop := by
  cases stop with
  | oldest => exact Nat.le_refl number
  | newest =>
    have below := newest rfl
    simp only [stopNumber]
    omega
  | specified stop =>
    rw [isRefused, decide_eq_false_iff_not] at accepted
    exact Nat.le_of_not_lt accepted
  | unset => simp [untyped rfl]

theorem lt_of_isRefused (refused : isRefused number stop = true) :
    ¬ number ≤ stopNumber ledger number stop := by
  cases stop with
  | specified stop =>
    rw [isRefused, decide_eq_true_iff] at refused
    exact Nat.not_le_of_lt refused
  | oldest | newest | unset => cases refused

/-- A step of a handler keeps its log in step with its range. -/
theorem Advances.step {later : Stream} (numbered : Numbered chain.ledger)
    (advances : Advances stream) (fixes : FixesRange chain.ledger stream.phase)
    (step : StreamStep handlers codec chain stream later) :
    Advances later := by
  have served := advances.served
  cases step with
  | receives envelope phase => exact advances_receive envelope
  | errored phase =>
    simp only [Advances, phase] at advances
    exact advances_fail advances.1 advances.2 (by decide)
  | readsSequence phase =>
    simp only [Advances, phase] at advances
    exact advances
  | authorizes phase =>
    simp only [Advances, phase] at advances
    split
    · exact advances
    · exact advances_fail advances.1 advances.2 (by decide)
  | opensCursor phase =>
    simp only [Advances, phase] at advances
    exact advances_openCursor advances.1 advances.2
  | fixesStop phase =>
    simp only [Advances, phase] at advances
    rw [phase] at fixes
    rcases advances with ⟨_, empty, stands⟩
    rw [fixStop]
    split
    next refused =>
      simp only [Advances, Served, Stream.fail, empty, lt_of_isRefused refused, if_false,
        List.nil_append]
    next accepted =>
      have ordered := le_stopNumber fixes.1 fixes.2 (Bool.eq_false_iff.mpr accepted)
      refine ⟨_, _, rfl, ordered, rfl, ?_⟩
      rcases stands with ⟨rfl, _⟩ | rfl
      · exact Or.inl ⟨rfl, empty⟩
      · exact Or.inr ⟨0, rfl, empty, ordered⟩
  | isReady phase _ | waits phase _ | signalled phase _ =>
    simp only [Advances, phase] at advances
    exact advances
  | aborts phase blocking | abortsReady phase blocking
  | notReady phase failing unchanged | readsNothing phase cursor
  | readFails phase =>
    simp only [Advances, phase] at advances
    rcases advances with ⟨first, last, range, sending⟩
    exact served_of_sending_fail range sending (by decide)
  | comparesSequence phase =>
    simp only [Advances, phase] at advances
    rcases advances with ⟨first, last, range, sending⟩
    rw [compareSequence]
    split
    · exact ⟨first, last, range, sending⟩
    · exact ⟨first, last, range, sending⟩
  | reauthorizes phase =>
    simp only [Advances, phase] at advances
    split
    · exact advances
    · rcases advances with ⟨first, last, range, sending⟩
      exact served_of_sending_fail range sending (by decide)
  | readsBlock phase cursor found =>
    simp only [Advances, phase] at advances
    rcases advances with ⟨first, last, range, sending⟩
    rcases sending.sent with ⟨absent, _⟩ | ⟨count, stands, log, within⟩
    · rw [cursor] at absent
      cases absent
    · rw [cursor, Cursor.found.injEq] at stands
      rw [numbered _ _ found]
      exact ⟨first, last, count, range, sending.stop, rfl, stands, stands ▸ within, log⟩
  | replies phase =>
    simp only [Advances, phase] at advances
    rcases advances with ⟨first, last, count, range, stop, cursor, position, within, log⟩
    have extended : blocksFrom first count ++ [.block (first + count)] =
          blocksFrom first (count + 1) := by
      simp [blocksFrom, List.range'_concat]
    rw [← position, ← log] at extended
    rw [reply]
    split
    next final => exact ⟨first, last, count + 1, range, by omega, by omega, extended⟩
    next =>
      refine ⟨first, last, range, by omega, stop, Or.inr ⟨count + 1, ?_⟩⟩
      refine ⟨?_, extended, by omega⟩
      rw [cursor, position, Nat.add_assoc]
  | finishes phase =>
    simp only [Advances, phase] at advances
    rcases advances with ⟨first, last, count, range, ordered, complete, log⟩
    simp only [Advances, Served, range, ordered, if_true, log]
    exact .done count complete
  | disconnects => exact served

end

end

/-! ## Runs -/

section

variable {Client Resources : Type} [DecidableEq Client] {handlers : ChannelHandlers Resources}
  {codec : Codec} {initial : ConfigManager Resources} {ledger : Ledger}

/-- A client is only served where the range that it asks for is not empty. -/
def FixesRanges (system : System Client Resources) (turn : Turn Client) : Prop :=
  match turn with
  | .serve client => FixesRange system.chain.ledger (system.streams client).phase
  | _ => True

theorem Numbered.append {chain : Chain Resources} (numbered : Numbered chain.ledger)
    (config : Option Nat) : Numbered (chain.append config).ledger := by
  intro number block found
  simp only [Chain.append] at found
  rcases Log.getElem?_concat_eq_some_iff.mp found with old | ⟨rfl, rfl⟩
  · exact numbered number block old
  · rfl

variable {system : System Client Resources}

theorem numbered_of_reachable {allowed : System Client Resources → Turn Client → Prop}
    (reachable : ReachableBy handlers codec allowed initial ledger system) :
    Numbered system.chain.ledger := by
  induction reachable with
  | start => exact ledger.numbered
  | step reachable _ step ih =>
    cases step with
    | commitConfig idle _ => exact ih
    | appendConfig _ | appendBlock idle => exact ih.append _
    | serve _ => exact ih

/--
If no client is served with an empty range, every request is answered with the
blocks of its range in order, or with an error and no block.
-/
theorem requests_served_in_range {system : System Client Resources}
    (reachable : ReachableBy handlers codec FixesRanges initial ledger system)
    (client : Client) : Served (system.streams client) := by
  have advances : Advances (system.streams client) := by
    induction reachable with
    | start => exact Refused.nil
    | @step _ _ _ reachable meets step ih =>
      have numbered := numbered_of_reachable reachable
      cases step with
      | commitConfig idle _ | appendConfig _ | appendBlock idle => exact ih
      | @serve target _ served =>
        by_cases same : client = target
        · subst same
          simpa using ih.step numbered meets served
        · simpa [same] using ih
  exact advances.served

end

namespace Sample

/-! Requests to a channel without organizations, which anyone may read at first. -/

open Orderer.ConfigInForce.Sample

/-- A request from the block after the genesis block on; no stop is the newest block. -/
def seekEnvelope (stop : Bytes) : Envelope := ⟨some (5 :: stop), none⟩

theorem initial_eq (sequence : UInt64) : (initial sequence).channelID = channelID ∧
      (initial sequence).sequence = sequence ∧ (initial sequence).resources = false := by
  rw [initial]
  split <;> exact ⟨rfl, rfl, rfl⟩

/-- The ledger with the genesis block. -/
def genesis : Ledger where
  blocks := [⟨0, some 0⟩]
  nonempty := by simp
  numbered := by
    intro number block found
    rcases number with _ | number
    · cases found
      rfl
    · simp at found
  settled := by simp

/-- The request is permitted as long as the update is not in force. -/
theorem permits_seek (cm : ConfigManager Resources) (stop : Bytes) :
    permits handlers codec cm (seekEnvelope stop) = !cm.resources := by
  have signed : Filters.asSignedData codec (seekEnvelope stop) =
        some [⟨(seekEnvelope stop).payload.bytes, none, none⟩] :=
    rfl
  cases inForce : cm.resources with
  | false | true => simp [permits, sigFilterFor, signed, handlers, getPolicy, inForce]

theorem reaches_fixStop {allowed : System Unit Resources → Turn Unit → Prop}
    (serves : ∀ chain stream, FixesRange chain.ledger stream.phase →
        allowed ⟨chain, fun _ => stream⟩ (.serve ()))
    (sequence : UInt64) (ledger : Ledger) (stop : Bytes) :
    ReachableBy handlers codec allowed (initial sequence) ledger
      ⟨⟨[], initial sequence, ledger.blocks, false⟩, fun _ =>
        ⟨.fixStop .blockUntilReady sequence (.found 1) 1
            (if stop = [] then .newest else .specified 1),
          seekEnvelope stop, none, []⟩⟩ := by
  rcases initial_eq sequence with ⟨channel, number, isOpen⟩
  have started : ReachableBy handlers codec allowed (initial sequence) ledger
        (start (initial sequence) ledger) :=
    .start
  have received := started.serve (serves _ _ trivial) (.receives (seekEnvelope stop) rfl)
  have read : readRequest codec (seekEnvelope stop) = some (channelID, some stop) := rfl
  simp only [receive, read, channel, if_true, Stream.enter] at received
  have read := received.serve (serves _ _ trivial) (.readsSequence rfl)
  simp only [Stream.enter, number] at read
  have authorized := read.serve (serves _ _ trivial) (.authorizes rfl)
  simp only [permits_seek, isOpen, Bool.not_false, if_true, Stream.enter] at authorized
  have opened := authorized.serve (serves _ _ trivial) (.opensCursor rfl)
  have found : iterator ledger.blocks (.specified 1) = (.found 1, 1) := by
    simp [iterator, ledger.nonempty]
  simpa only [openCursor, codec, Slice.bytes_some, found, Stream.enter] using opened

/-- The ledger with one more block. -/
def second : Ledger where
  blocks := [⟨0, some 0⟩, ⟨1, none⟩]
  nonempty := by simp
  numbered := by
    intro number block found
    match number with
    | 0 | 1 =>
      cases found
      rfl
    | number + 2 => simp at found
  settled := by simp

end Sample

open ConfigInForce.Sample (Resources handlers codec initial)

/-- A client that asks for the second block once it is there. -/
theorem requests_served_in_range_second :
    ∃ system : System Unit Resources, ReachableBy handlers codec FixesRanges
          (initial 0) Sample.second system ∧
        (system.streams ()).log = [.block 1, .status .success] ∧
        Served (system.streams ()) := by
  rcases Sample.initial_eq 0 with ⟨_, number, _⟩
  have opened : ReachableBy handlers codec FixesRanges
        (initial 0) Sample.second _ :=
    Sample.reaches_fixStop (fun _ _ fixes => fixes) 0 Sample.second []
  have fixed := opened.serve ⟨by simp, by simp [Sample.second]⟩ (.fixesStop rfl)
  have ready := fixed.serve trivial (.isReady rfl (by decide))
  have compared := ready.serve trivial (.comparesSequence rfl)
  simp only [compareSequence, number, UInt64.lt_irrefl, if_false] at compared
  have read := compared.serve trivial (.readsBlock rfl rfl rfl)
  have replied := read.serve trivial (.replies rfl)
  have finished := replied.serve trivial (.finishes rfl)
  exact ⟨_, finished, rfl, requests_served_in_range finished ()⟩

/--
A client that asks for the block after the newest one, up to the newest one,
is sent a block outside of the range.
-/
theorem request_not_served_in_range :
    ∃ system : System Unit Resources,
      ReachableBy handlers codec (fun _ _ => True)
          (initial 0) Sample.genesis system ∧
        (system.streams ()).range = some (1, 0) ∧
        (system.streams ()).log = [.block 1] ∧
        ¬ Served (system.streams ()) := by
  rcases Sample.initial_eq 0 with ⟨_, number, _⟩
  have opened : ReachableBy handlers codec (fun _ _ => True)
        (initial 0) Sample.genesis _ :=
    Sample.reaches_fixStop (fun _ _ _ => trivial) 0 Sample.genesis []
  have fixed := opened.serve trivial (.fixesStop rfl)
  have waits := fixed.serve trivial (.waits rfl (by decide))
  have appended := waits.step trivial (.appendBlock rfl)
  have signalled := appended.serve trivial (.signalled rfl (by decide))
  have compared := signalled.serve trivial (.comparesSequence rfl)
  simp only [compareSequence, Chain.append, number, UInt64.lt_irrefl, if_false] at compared
  have read := compared.serve trivial (.readsBlock rfl rfl rfl)
  have replied := read.serve trivial (.replies rfl)
  refine ⟨_, replied, rfl, rfl, ?_⟩
  rintro ⟨⟩

end Fabric.Orderer.DeliverRange
