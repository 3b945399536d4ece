import Fabric.Orderer.DeliverRange

/-!
# Access of clients to blocks

The writer commits a configuration before it appends its block, and a handler
looks at the sequence number of the configuration after it has seen that a
block is there.  So a request is checked against a configuration that is at
least as new as all those in the blocks that it is sent, as long as a newer
configuration has a greater sequence number.
-/

namespace Fabric.Orderer.DeliverAccess

open Library ByteString Protos ConfigTx.Manager Filters Deliver DeliverRange

section

variable {Resources : Type} (handlers : ChannelHandlers Resources) (codec : Codec)

/-! ## What a request has been checked against -/

section

variable (chain : Chain Resources)

/-- All configurations in the blocks up to a number are at most this new. -/
def Covers (number config : Nat) : Prop :=
  number < chain.ledger.length ∧ ∀ (earlier : Nat) (block : LedgerBlock),
      earlier ≤ number → chain.ledger[earlier]? = some block →
        ∀ carried ∈ block.config, carried ≤ config

/-- A configuration of the channel permits a request. -/
def PermitsAt (envelope : Envelope) (config : Nat) : Prop :=
  ∃ cm, chain.history[config]? = some cm ∧ permits handlers codec cm envelope = true

/--
The request satisfies the readers policy of a configuration at least as new as
every configuration block up to the given one.
-/
def Authorized (envelope : Envelope) (number : Nat) : Prop :=
  ∃ config, PermitsAt handlers codec chain envelope config ∧ Covers chain number config

/-- The sequence number belongs to a configuration. -/
def SequenceAt (config : Nat) (sequence : UInt64) : Prop :=
  ∃ cm, chain.history[config]? = some cm ∧ cm.sequence = sequence

/-- The request was checked after the sequence number had been read. -/
def Checked (envelope : Envelope) (sequence : UInt64) : Prop :=
  ∃ seen config, seen ≤ config ∧ SequenceAt chain seen sequence ∧
      PermitsAt handlers codec chain envelope config

end

/-- The cursor is at most one block ahead of a ledger of the given height. -/
def Within (height : Nat) : Cursor → Prop
  | .found number => number ≤ height
  | .notFound => True

section

variable (chain : Chain Resources)

def Present : Cursor → Prop
  | .found number => number < chain.ledger.length
  | .notFound => True

/-- What is known of a stream in each phase, apart from its log. -/
def Knows (stream : Stream) : Prop :=
  match stream.phase with
  | .receive | .readSequence _ | .finish | .closed => True
  | .authorize _ sequence => ∃ seen, SequenceAt chain seen sequence
  | .openCursor _ sequence => Checked handlers codec chain stream.envelope sequence
  | .fixStop _ sequence cursor _ _ =>
    Checked handlers codec chain stream.envelope sequence ∧ Within chain.ledger.length cursor
  | .checkReady request =>
    Checked handlers codec chain stream.envelope request.lastConfigSequence ∧
      Within chain.ledger.length request.cursor
  | .wait request height =>
    Checked handlers codec chain stream.envelope request.lastConfigSequence ∧
      Within height request.cursor
  | .compareSequence request =>
    Checked handlers codec chain stream.envelope request.lastConfigSequence ∧
      Present chain request.cursor
  | .reauthorize request =>
    ∃ seen, SequenceAt chain seen request.lastConfigSequence ∧
        ∀ number, request.cursor = .found number → Covers chain number seen
  | .next request =>
    Checked handlers codec chain stream.envelope request.lastConfigSequence ∧
      ∀ number, request.cursor = .found number →
        Authorized handlers codec chain stream.envelope number
  | .reply request number =>
    Checked handlers codec chain stream.envelope request.lastConfigSequence ∧
      request.cursor = .found (number + 1) ∧
      Authorized handlers codec chain stream.envelope number

/-- All blocks that have been sent were authorized. -/
def SentAuthorized (stream : Stream) : Prop :=
  ∀ number, .block number ∈ stream.log → Authorized handlers codec chain stream.envelope number

/-- What has been sent to a client was permitted when it was sent. -/
structure Guarded (stream : Stream) : Prop where
  knows : Knows handlers codec chain stream
  sent : SentAuthorized handlers codec chain stream

end

/-! ## Growth of the channel -/

/-- A channel grows by configurations and by blocks. -/
structure Grows (chain later : Chain Resources) : Prop where
  history : chain.history <+: later.history
  ledger : chain.ledger <+: later.ledger

variable {handlers codec} {chain later : Chain Resources} {envelope : Envelope}
  {number config : Nat} {sequence : UInt64} {stream : Stream}

theorem Covers.grow (covers : Covers chain number config) (grows : Grows chain later) :
    Covers later number config := by
  rcases covers with ⟨present, covers⟩
  constructor
  · exact Nat.lt_of_lt_of_le present grows.ledger.length_le
  · intro earlier block before found
    have inside : earlier < chain.ledger.length := by omega
    rcases grows.ledger with ⟨_, same⟩
    rw [← same, List.getElem?_append_left inside] at found
    exact covers earlier block before found

theorem PermitsAt.grow (permitted : PermitsAt handlers codec chain envelope config)
    (grows : Grows chain later) :
    PermitsAt handlers codec later envelope config := by
  rcases permitted with ⟨cm, found, accepted⟩
  exact ⟨cm, Log.getElem?_of_grown grows.history found, accepted⟩

theorem SequenceAt.grow (known : SequenceAt chain config sequence) (grows : Grows chain later) :
    SequenceAt later config sequence := by
  rcases known with ⟨cm, found, same⟩
  exact ⟨cm, Log.getElem?_of_grown grows.history found, same⟩

theorem Checked.grow (checked : Checked handlers codec chain envelope sequence)
    (grows : Grows chain later) :
    Checked handlers codec later envelope sequence := by
  rcases checked with ⟨seen, config, order, known, permitted⟩
  exact ⟨seen, config, order, known.grow grows, permitted.grow grows⟩

theorem Authorized.grow (authorized : Authorized handlers codec chain envelope number)
    (grows : Grows chain later) :
    Authorized handlers codec later envelope number := by
  rcases authorized with ⟨config, permitted, covers⟩
  exact ⟨config, permitted.grow grows, covers.grow grows⟩

variable {cursor : Cursor}

theorem Within.grow (within : Within chain.ledger.length cursor)
    (grows : Grows chain later) : Within later.ledger.length cursor := by
  cases cursor with
  | found _ => exact Nat.le_trans within grows.ledger.length_le
  | notFound => trivial

theorem Present.grow (present : Present chain cursor)
    (grows : Grows chain later) : Present later cursor := by
  cases cursor with
  | found _ => exact Nat.lt_of_lt_of_le present grows.ledger.length_le
  | notFound => trivial

theorem Guarded.grow (guarded : Guarded handlers codec chain stream)
    (grows : Grows chain later) : Guarded handlers codec later stream := by
  rcases guarded with ⟨knows, sent⟩
  constructor
  · rcases stream with ⟨phase, _, _, _⟩
    cases phase with
    | receive | readSequence _ | finish | closed => trivial
    | authorize data sequence =>
      rcases knows with ⟨seen, known⟩
      exact ⟨seen, known.grow grows⟩
    | openCursor data sequence => exact Checked.grow knows grows
    | fixStop _ sequence cursor number _ => exact ⟨knows.1.grow grows, knows.2.grow grows⟩
    | checkReady request => exact ⟨knows.1.grow grows, knows.2.grow grows⟩
    | wait request _ => exact ⟨knows.1.grow grows, knows.2⟩
    | compareSequence request => exact ⟨knows.1.grow grows, knows.2.grow grows⟩
    | reauthorize request =>
      rcases knows with ⟨seen, known, covers⟩
      exact ⟨seen, known.grow grows, fun number cursor => (covers number cursor).grow grows⟩
    | next request =>
      exact ⟨knows.1.grow grows, fun number cursor => (knows.2 number cursor).grow grows⟩
    | reply request number => exact ⟨knows.1.grow grows, knows.2.1, knows.2.2.grow grows⟩
  · intro number member
    exact (sent number member).grow grows

/-! ## The channel by itself -/

/--
Sequence numbers count the configurations, and no block carries one that has
not been committed.
-/
structure Counts (initial : ConfigManager Resources) (chain : Chain Resources) : Prop where
  sequences : ∀ (config : Nat) (cm : ConfigManager Resources), chain.history[config]? = some cm →
        cm.sequence.toNat = initial.sequence.toNat + config
  carried : ∀ block ∈ chain.ledger, ∀ config ∈ block.config, config ≤ chain.earlier.length

variable {initial : ConfigManager Resources}

theorem current_at (chain : Chain Resources) :
    chain.history[chain.earlier.length]? = some chain.current := by
  simp [Chain.history]

variable {seen : Nat}

theorem SequenceAt.le (known : SequenceAt chain seen sequence) : seen ≤ chain.earlier.length := by
  rcases known with ⟨_, found, _⟩
  have inside := (List.getElem?_eq_some_iff.mp found).1
  simp only [Chain.history, List.length_append, List.length_singleton] at inside
  omega

/-- The configuration in force covers every block that is there. -/
theorem Counts.covers (counts : Counts initial chain) (present : number < chain.ledger.length) :
    Covers chain number chain.earlier.length := by
  refine ⟨present, ?_⟩
  intro earlier block _ found config carried
  exact counts.carried block (List.mem_of_getElem? found) config carried

/-! ## Steps of a handler -/

theorem SentAuthorized.fail (sent : SentAuthorized handlers codec chain stream) (status : Status) :
    SentAuthorized handlers codec chain (stream.fail status) := by
  intro number member
  simp only [Stream.fail, List.mem_append, List.mem_singleton, reduceCtorEq, or_false] at member
  exact sent number member

theorem guarded_receive (chain : Chain Resources) (envelope : Envelope) :
    Guarded handlers codec chain (receive codec chain envelope) := by
  have fresh (phase : Phase) : SentAuthorized handlers codec chain ⟨phase, envelope, none, []⟩ := by
    intro _ member
    cases member
  rw [receive]
  split
  · exact ⟨trivial, (fresh .receive).fail .badRequest⟩
  · split
    · exact ⟨trivial, fresh _⟩
    · exact ⟨trivial, (fresh .receive).fail .notFound⟩

theorem within_iterator (chain : Chain Resources) (start : SeekPosition) :
    Within chain.ledger.length (iterator chain.ledger start).1 := by
  cases start with
  | oldest => exact Nat.zero_le _
  | newest => exact Nat.sub_le _ _
  | unset => trivial
  | specified number =>
    by_cases beyond : chain.ledger.length < number.toNat
    · simp [iterator, beyond, Within]
    · simpa [iterator, beyond, Within] using Nat.le_of_not_lt beyond

theorem present_of_isReady (ready : cursor.isReady chain.ledger = true) : Present chain cursor := by
  cases cursor with
  | found number =>
    change number < chain.ledger.length
    simpa [Cursor.isReady] using ready
  | notFound => trivial

theorem present_of_within {height : Nat} (within : Within height cursor)
    (appended : height < chain.ledger.length) : Present chain cursor := by
  cases cursor with
  | found _ => exact Nat.lt_of_le_of_lt within appended
  | notFound => trivial

variable {request : Request}

/--
The sequence number is compared when the block at the cursor is there: if it
has not grown, the request has been checked against the configuration in force.
-/
theorem guarded_compareSequence (counts : Counts initial chain)
    (checked : Checked handlers codec chain stream.envelope request.lastConfigSequence)
    (present : Present chain request.cursor) (sent : SentAuthorized handlers codec chain stream) :
    Guarded handlers codec chain (compareSequence chain request stream) := by
  have covers (number : Nat) (cursor : request.cursor = .found number) :
      Covers chain number chain.earlier.length := by
    rw [cursor] at present
    exact counts.covers present
  rw [compareSequence]
  split
  next _ =>
    refine ⟨⟨chain.earlier.length, ?_, covers⟩, sent⟩
    exact ⟨chain.current, current_at chain, rfl⟩
  next unchanged =>
    refine ⟨⟨checked, ?_⟩, sent⟩
    intro number cursor
    rcases checked with ⟨_, config, _, ⟨cm, there, same⟩, permitted⟩
    -- A sequence number not smaller than the present one is that of the configuration in force.
    have first := counts.sequences _ cm there
    have second := counts.sequences _ _ (current_at chain)
    rw [← same, UInt64.lt_iff_toNat_lt] at unchanged
    refine ⟨config, permitted, (covers number cursor).1, ?_⟩
    intro earlier block before found carried member
    have bound := (covers number cursor).2 earlier block before found carried member
    omega

theorem guarded_reply
    (checked : Checked handlers codec chain stream.envelope request.lastConfigSequence)
    (cursor : request.cursor = .found (number + 1))
    (authorized : Authorized handlers codec chain stream.envelope number)
    (sent : SentAuthorized handlers codec chain stream) :
    Guarded handlers codec chain (reply request number stream) := by
  have extended : SentAuthorized handlers codec chain (reply request number stream) := by
    intro other member
    simp only [reply, List.mem_append, List.mem_singleton, Response.block.injEq] at member
    rcases member with earlier | rfl
    · exact sent other earlier
    · exact authorized
  refine ⟨?_, extended⟩
  by_cases final : request.stopNum = number
  · simp only [Knows, reply, final, if_true]
  · simp only [Knows, reply, final, if_false]
    refine ⟨checked, ?_⟩
    rw [cursor]
    rcases authorized with ⟨_, _, present, _⟩
    exact present

/-- A step of a handler sends only blocks that are authorized. -/
theorem Guarded.step {next : Stream} (numbered : Numbered chain.ledger)
    (counts : Counts initial chain) (guarded : Guarded handlers codec chain stream)
    (step : StreamStep handlers codec chain stream next) :
    Guarded handlers codec chain next := by
  rcases guarded with ⟨knows, sent⟩
  cases step with
  | receives envelope phase => exact guarded_receive chain envelope
  | errored phase | aborts phase blocking | abortsReady phase blocking
  | notReady phase failing unchanged | readsNothing phase cursor
  | readFails phase => exact ⟨trivial, sent.fail _⟩
  | readsSequence phase => exact ⟨⟨_, chain.current, current_at chain, rfl⟩, sent⟩
  | authorizes phase =>
    simp only [Knows, phase] at knows
    rcases knows with ⟨seen, known⟩
    split
    next permitted =>
      exact ⟨⟨seen, chain.earlier.length, known.le, known,
        chain.current, current_at chain, permitted⟩, sent⟩
    next => exact ⟨trivial, sent.fail _⟩
  | opensCursor phase =>
    simp only [Knows, phase] at knows
    rw [openCursor]
    split
    next start _ _ _ => exact ⟨⟨knows, within_iterator chain start⟩, sent⟩
    next => exact ⟨trivial, sent.fail _⟩
  | fixesStop phase =>
    simp only [Knows, phase] at knows
    rw [fixStop]
    split
    · exact ⟨trivial, SentAuthorized.fail sent _⟩
    · exact ⟨knows, sent⟩
  | isReady phase ready =>
    simp only [Knows, phase] at knows
    exact ⟨⟨knows.1, present_of_isReady ready⟩, sent⟩
  | waits phase _ =>
    simp only [Knows, phase] at knows
    exact ⟨knows, sent⟩
  | signalled phase appended =>
    simp only [Knows, phase] at knows
    exact ⟨⟨knows.1, present_of_within knows.2 appended⟩, sent⟩
  | comparesSequence phase =>
    simp only [Knows, phase] at knows
    exact guarded_compareSequence counts knows.1 knows.2 sent
  | reauthorizes phase =>
    simp only [Knows, phase] at knows
    rcases knows with ⟨seen, known, covers⟩
    split
    next permitted =>
      have permittedAt : PermitsAt handlers codec chain stream.envelope chain.earlier.length :=
        ⟨chain.current, current_at chain, permitted⟩
      refine ⟨⟨⟨seen, _, known.le, known, permittedAt⟩, ?_⟩, sent⟩
      intro number cursor
      exact ⟨_, permittedAt, counts.covers (covers number cursor).1⟩
    next => exact ⟨trivial, sent.fail _⟩
  | readsBlock phase cursor found =>
    simp only [Knows, phase] at knows
    have same := numbered _ _ found
    subst same
    exact ⟨⟨knows.1, rfl, knows.2 _ cursor⟩, sent⟩
  | replies phase =>
    simp only [Knows, phase] at knows
    exact guarded_reply knows.1 knows.2.1 knows.2.2 sent
  | finishes phase =>
    refine ⟨trivial, ?_⟩
    intro number member
    simp only [List.mem_append, List.mem_singleton, reduceCtorEq, or_false] at member
    exact sent number member
  | disconnects => exact ⟨trivial, sent⟩

/-! ## Runs -/

section

variable {Client : Type} [DecidableEq Client] {ledger : Ledger}

/-- The sequence number of a new configuration does not start over at zero. -/
def KeepsCounting (system : System Client Resources) (turn : Turn Client) : Prop :=
  match turn with
  | .commitConfig => system.chain.current.sequence.toNat + 1 < UInt64.size
  | _ => True

theorem grows_append (chain : Chain Resources) (config : Option Nat) :
    Grows chain (chain.append config) :=
  ⟨List.prefix_rfl, List.prefix_append _ _⟩

theorem counts_append (counts : Counts initial chain) {config : Option Nat}
    (committed : ∀ carried ∈ config, carried ≤ chain.earlier.length) :
    Counts initial (chain.append config) := by
  refine ⟨counts.sequences, ?_⟩
  intro block member
  simp only [Chain.append, List.mem_append, List.mem_singleton] at member
  rcases member with earlier | rfl
  · exact counts.carried block earlier
  · exact committed

theorem counts_commit {cm : ConfigManager Resources} {configEnv : ConfigEnvelope}
    (counts : Counts initial chain)
    (applied : apply handlers.toHandlers codec chain.current configEnv = .ok cm)
    (bounded : chain.current.sequence.toNat + 1 < UInt64.size) :
    Counts initial
      { chain with
        earlier := chain.history
        current := cm
        committing := true } := by
  constructor
  · intro config found position
    change (chain.history ++ [cm])[config]? = some found at position
    rcases Log.getElem?_concat_eq_some_iff.mp position with
      old | ⟨rfl, rfl⟩
    · exact counts.sequences config found old
    · have last := counts.sequences _ _ (current_at chain)
      rw [sequence_of_apply applied, UInt64.toNat_add]
      rw [UInt64.toNat_one, Nat.mod_eq_of_lt bounded, last]
      simp [Chain.history, Nat.add_assoc]
  · intro block member config carried
    have bound := counts.carried block member config carried
    simp only [Chain.history, List.length_append, List.length_singleton]
    omega

variable {system : System Client Resources}

theorem counts_of_reachable
    (reachable : ReachableBy handlers codec KeepsCounting initial ledger system) :
    Counts initial system.chain := by
  induction reachable with
  | start =>
    constructor
    · intro config cm found
      change [initial][config]? = some cm at found
      rcases config with _ | config
      · cases found
        rfl
      · simp at found
    · intro block member config carried
      exact Nat.le_of_eq (ledger.settled block member config carried)
  | step reachable meets step ih =>
    cases step with
    | commitConfig idle applied => exact counts_commit ih applied meets
    | appendConfig _ => exact counts_append ih (by simp)
    | appendBlock idle => exact counts_append ih (by simp)
    | serve _ => exact ih

theorem guarded_of_reachable
    (reachable : ReachableBy handlers codec KeepsCounting initial ledger system) (client : Client) :
    Guarded handlers codec system.chain (system.streams client) := by
  induction reachable with
  | start =>
    refine ⟨trivial, ?_⟩
    intro _ member
    cases member
  | @step _ _ _ reachable _ step ih =>
    cases step with
    | commitConfig idle _ =>
      apply ih.grow
      exact ⟨List.prefix_append _ _, List.prefix_rfl⟩
    | appendConfig _ | appendBlock idle => exact ih.grow (grows_append _ _)
    | @serve target _ served =>
      by_cases same : client = target
      · subst same
        have numbered := numbered_of_reachable reachable
        have counts := counts_of_reachable reachable
        simpa using ih.step numbered counts served
      · simpa [same] using ih

variable (handlers codec) in
/-- No configuration from the one in a block on permits the request. -/
def RevokedBy (chain : Chain Resources) (envelope : Envelope) (number : Nat) : Prop :=
  ∃ block config, chain.ledger[number]? = some block ∧ config ∈ block.config ∧
      ∀ later, config ≤ later → ¬ PermitsAt handlers codec chain envelope later

/--
While the sequence numbers count up, a block is sent only for a request that
satisfies the readers policy of a configuration at least as new as all those in
the blocks up to it.  In particular a client is sent neither the block that
revokes its access nor a later one.
-/
theorem sent_blocks_authorized {system : System Client Resources}
    (reachable : ReachableBy handlers codec KeepsCounting initial ledger system) (client : Client) :
    (∀ number, .block number ∈ (system.streams client).log → Authorized handlers codec system.chain
        (system.streams client).envelope number) ∧
      ∀ revoked, RevokedBy handlers codec system.chain (system.streams client).envelope revoked →
        ∀ number, revoked ≤ number → .block number ∉ (system.streams client).log := by
  have sent := (guarded_of_reachable reachable client).sent
  refine ⟨sent, ?_⟩
  rintro revoked ⟨block, config, found, carried, refuses⟩ number later member
  rcases sent number member with ⟨checked, permitted, _, covers⟩
  exact refuses checked (covers revoked block later found config carried) permitted

end

end

namespace Sample

/-! An update after which nobody may read the channel. -/

open Orderer.ConfigInForce.Sample (Resources handlers codec)
open Orderer.DeliverRange.Sample (seekEnvelope permits_seek)

/-- The block with the second configuration, after which nobody may read. -/
theorem revokedBy_second {chain : Chain Resources} {first : ConfigManager Resources} {number : Nat}
    {block : LedgerBlock} (history : chain.earlier = [first])
    (closed : chain.current.resources = true)
    (found : chain.ledger[number]? = some block) (carried : block.config = some 1) :
    RevokedBy handlers codec chain (seekEnvelope [1]) number := by
  refine ⟨block, 1, found, carried, ?_⟩
  rintro (_ | _ | config) later ⟨_, found, permitted⟩
  · cases later
  · rw [Chain.history, history] at found
    cases found
    have refused : permits handlers codec chain.current (seekEnvelope [1]) = !true := by
      rw [← closed]
      exact permits_seek chain.current _
    cases refused.symm.trans permitted
  · simp [Chain.history, history] at found

end Sample

open ConfigInForce.Sample (Resources handlers codec initial updatedConfig greatest)
open DeliverRange.Sample (genesis second reaches_fixStop initial_eq)

/--
A client that asks for the second block once it is there.  The next one takes its
access away.
-/
theorem sent_blocks_authorized_second :
    ∃ system : System Unit Resources,
      ReachableBy handlers codec KeepsCounting (initial 0) second system ∧
        (system.streams ()).log = [.block 1] ∧
        Authorized handlers codec system.chain (system.streams ()).envelope 1 ∧
        RevokedBy handlers codec system.chain (system.streams ()).envelope 2 ∧
        ∀ number, 2 ≤ number → .block number ∉ (system.streams ()).log := by
  have evaluated : ∃ later, apply handlers.toHandlers codec (initial 0)
        (updatedConfig 1) = .ok later ∧ later.resources = true := by
    decide +kernel
  rcases evaluated with ⟨later, applied, closed⟩
  rcases initial_eq 0 with ⟨_, number, _⟩
  have opened : ReachableBy handlers codec KeepsCounting (initial 0) second _ :=
    reaches_fixStop (fun _ _ _ => trivial) 0 second [1]
  have fixed := opened.serve trivial (.fixesStop rfl)
  have ready := fixed.serve trivial (.isReady rfl (by decide))
  have compared := ready.serve trivial (.comparesSequence rfl)
  simp only [compareSequence, number, UInt64.lt_irrefl, if_false] at compared
  have read := compared.serve trivial (.readsBlock rfl rfl rfl)
  have replied := read.serve trivial (.replies rfl)
  have committed := replied.step (by rw [KeepsCounting, number]; decide) (.commitConfig rfl applied)
  have appended := committed.step (by trivial) (.appendConfig rfl)
  rcases sent_blocks_authorized appended () with ⟨authorized, unsent⟩
  refine ⟨_, appended, rfl, authorized 1 List.mem_cons_self, ?_⟩
  rw [and_iff_left_of_imp (unsent 2)]
  exact Sample.revokedBy_second rfl closed rfl rfl

/--
With the greatest sequence number in force, the block of the next
configuration is sent to a client whose access it revokes.
-/
theorem revoked_client_is_sent_block :
    ∃ system : System Unit Resources,
      ReachableBy handlers codec (fun _ _ => True) (initial greatest) genesis
          system ∧
        (system.streams ()).log = [.block 1] ∧
        RevokedBy handlers codec system.chain (system.streams ()).envelope 1 ∧
        ¬ Authorized handlers codec system.chain (system.streams ()).envelope 1 := by
  have evaluated : ∃ later, apply handlers.toHandlers codec (initial greatest)
        (updatedConfig 0) = .ok later ∧ later.resources = true := by
    decide +kernel
  rcases evaluated with ⟨later, applied, closed⟩
  have restarted : later.sequence = 0 := by
    rw [sequence_of_apply applied, (initial_eq _).2.1]
    decide
  have opened : ReachableBy handlers codec (fun _ _ => True)
        (initial greatest) genesis _ :=
    reaches_fixStop (fun _ _ _ => trivial) _ _ [1]
  have fixed := opened.serve trivial (.fixesStop rfl)
  have waits := fixed.serve trivial (.waits rfl (by decide))
  have committed := waits.step trivial (.commitConfig rfl applied)
  have appended := committed.step trivial (.appendConfig rfl)
  have signalled := appended.serve trivial (.signalled rfl (Nat.lt_succ_self 1))
  have compared := signalled.serve trivial (.comparesSequence rfl)
  have unnoticed : ¬ greatest < later.sequence := by
    rw [restarted]
    decide
  simp only [compareSequence, Chain.append, unnoticed, if_false] at compared
  have read := compared.serve trivial (.readsBlock rfl rfl rfl)
  have replied := read.serve trivial (.replies rfl)
  refine ⟨_, replied, rfl, ?_⟩
  rw [and_iff_left_of_imp]
  · exact Sample.revokedBy_second rfl closed rfl rfl
  intro revoked
  rintro ⟨config, permitted, _, covers⟩
  rcases revoked with ⟨block, carried, found, member, refuses⟩
  exact refuses config (covers 1 block (Nat.le_refl 1) found carried member) permitted

end Fabric.Orderer.DeliverAccess
