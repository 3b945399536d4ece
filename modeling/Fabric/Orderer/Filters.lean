import Fabric.ConfigTx.Manager
import Fabric.Orderer.Channel

/-!
# The filters of a channel

A message is handed to the rules of its channel in order, until one accepts or
rejects it.  The rule for configuration transactions validates the transaction
against the current configuration, and its committer applies it when the block
of the transaction is written.

The system channel has one more rule, for requests to create channels.  It is
a parameter here, a function of the configuration and the message; on other
channels it forwards every message.  The rule in the code also compares the number
of channels with a limit, so its answer to a request may change while this channel
does not; a parameter stands for the answers at one number of channels.

The rules read the configuration at the time they are applied.  Only the loop
of the channel uses the manager here: clients that have messages filtered
before they are enqueued are not part of the model.
-/

namespace Fabric.Orderer.Filters

open Library ByteString Protos ConfigTx.Manager BlockCutter Channel
open Config.GroupValues (BatchSize)

/-! ## Rules -/

/-- The answer of a rule. -/
inductive Action (Accepted : Type) where
  | accept (accepted : Accepted)
  | reject
  | forward
  | panic
deriving DecidableEq

/-- What the committer of an isolated message does. -/
inductive ChannelUpdate where
  | config (configEnvelope : ConfigEnvelope)
  | newChain (configTx : Envelope)

/-- The resources of a channel that the filters use. -/
structure ChannelHandlers (Resources : Type) extends Handlers Resources where
  batchSize : Resources → BatchSize

abbrev Rule (Resources : Type) :=
  ConfigManager Resources → Envelope → Action (Committer ChannelUpdate)

section

variable {Resources : Type} (handlers : ChannelHandlers Resources) (codec : Codec)

/-- The first rule that decides. -/
def applyRules (cm : ConfigManager Resources) (message : Envelope) :
    List (Rule Resources) → Outcome Unit (Committer ChannelUpdate)
  | [] => .error ()
  | rule :: rules =>
    match rule cm message with
    | .accept committer => .ok committer
    | .reject => .error ()
    | .forward => applyRules cm message rules
    | .panic => .panic

/-- Reject a message without a payload. -/
def emptyRejectRule : Rule Resources := fun _ message =>
  match message.payload with
  | none => .reject
  | some _ => .forward

/-- Reject a message that is larger than the channel allows. -/
def maxBytesRule : Rule Resources := fun cm message =>
  if (handlers.batchSize cm.resources).absoluteMaxBytes < messageSizeBytes message then .reject
  else .forward

def channelReaders : GoString := .ascii "/Channel/Readers"

def channelWriters : GoString := .ascii "/Channel/Writers"

/-- The signature of an envelope over its payload; why there is none is lost. -/
def asSignedData (env : Envelope) : Option (List SignedData) := do
  let payload ← codec.unmarshalPayload env.payload.bytes
  let header ← payload.header
  let shdr ← codec.unmarshalSignatureHeader header.signatureHeader.bytes
  some [⟨env.payload.bytes, shdr.creator, env.signature⟩]

/-- Reject a message whose signature does not satisfy a policy. -/
def sigFilterFor (policySource : GoString) : Rule Resources :=
  fun cm message =>
    match asSignedData codec message with
    | none => .reject
    | some signedData =>
      match handlers.getPolicy cm.resources [] policySource with
      | none => .reject
      | some policy =>
        match policy signedData with
        | .ok _ => .forward
        | .error _ => .reject
        | .panic => .panic

def sigFilter : Rule Resources := sigFilterFor handlers codec channelWriters

/-- The data of a message that is a configuration transaction. -/
def configData (message : Envelope) : Option Slice := do
  let msgData ← codec.unmarshalPayload message.payload.bytes
  let header ← msgData.header
  let chdr ← codec.unmarshalChannelHeader header.channelHeader.bytes
  if chdr.type = .config then some msgData.data else none

/-- Validate a configuration transaction against the present configuration. -/
def configFilter : Rule Resources := fun cm message =>
  match configData codec message with
  | none => .forward
  | some data =>
    match codec.unmarshalConfigEnvelope data.bytes with
    | none => .reject
    | some configEnvelope =>
      match validate handlers.toHandlers codec cm configEnvelope with
      | .ok _ => .accept (.isolated (.config configEnvelope))
      | .error _ => .reject
      | .panic => .panic

/-- Accept a message that has no effect on the channel. -/
def acceptRule : Rule Resources := fun _ _ => .accept .noop

section

variable (systemChain : ConfigManager Resources → Envelope → Action Envelope)

/-- The rule for requests to create channels, in terms of its answers. -/
def systemChainRule : Rule Resources := fun cm message =>
  match systemChain cm message with
  | .accept configTx => .accept (.isolated (.newChain configTx))
  | .reject => .reject
  | .forward => .forward
  | .panic => .panic

/-- The filters of a channel, in the order in which they are applied. -/
def filters : List (Rule Resources) :=
  [emptyRejectRule, maxBytesRule handlers, sigFilter handlers codec,
    systemChainRule systemChain, configFilter handlers codec, acceptRule]

end

/--
Run the committer of an isolated message.  The one of a configuration
transaction panics if the configuration cannot be applied.  The one of a request
creates another channel and has no effect on this one; that a request may name
this channel itself is left out.
-/
def commitUpdate (cm : ConfigManager Resources) : ChannelUpdate → Option (ConfigManager Resources)
  | .config configEnvelope =>
    match apply handlers.toHandlers codec cm configEnvelope with
    | .ok later => some later
    | _ => none
  | .newChain _ => some cm

/-! ## What an accepted message has passed -/

variable {handlers codec} {cm : ConfigManager Resources} {message : Envelope}
  {committer : Committer ChannelUpdate}

theorem applyRules_of_cons {rule : Rule Resources} {rules : List (Rule Resources)}
    (accepted : applyRules cm message (rule :: rules) = .ok committer)
    (refuses : ∀ found, rule cm message ≠ .accept found) :
    applyRules cm message rules = .ok committer := by
  rw [applyRules] at accepted
  cases answer : rule cm message with
  | accept found => exact absurd answer (refuses found)
  | forward => simpa only [answer] using accepted
  | reject | panic => simp [answer] at accepted

/-- Which rule has accepted a message. -/
inductive AcceptedBy (handlers : ChannelHandlers Resources) (codec : Codec)
    (cm : ConfigManager Resources) (message : Envelope) :
    Committer ChannelUpdate → Prop where
  | systemChain (configTx : Envelope) :
      AcceptedBy handlers codec cm message (.isolated (.newChain configTx))
  | config
      {committer : Committer ChannelUpdate}
      (accepts : configFilter handlers codec cm message = .accept committer) :
      AcceptedBy handlers codec cm message committer
  | default
      (forwards : configFilter handlers codec cm message = .forward) :
      AcceptedBy handlers codec cm message .noop

variable {systemChain : ConfigManager Resources → Envelope → Action Envelope}

theorem acceptedBy_of_filters
    (accepted : applyRules cm message (filters handlers codec systemChain) = .ok committer) :
    AcceptedBy handlers codec cm message committer := by
  rw [filters] at accepted
  have sized := applyRules_of_cons accepted fun _ => by
    rw [emptyRejectRule]
    split <;> simp
  have signed := applyRules_of_cons sized fun _ => by
    rw [maxBytesRule]
    split <;> simp
  have written := applyRules_of_cons signed fun _ => by
    rw [sigFilter, sigFilterFor]
    split
    · simp
    · split
      · simp
      · split <;> simp
  rw [applyRules, systemChainRule] at written
  cases creates : systemChain cm message with
  | accept configTx =>
    simp only [creates, Outcome.ok.injEq] at written
    cases written
    exact .systemChain configTx
  | reject | panic => simp [creates] at written
  | forward =>
    simp only [creates, applyRules] at written
    cases answer : configFilter handlers codec cm message with
    | accept _ =>
      simp only [answer, Outcome.ok.injEq] at written
      cases written
      exact .config answer
    | reject | panic => simp [answer] at written
    | forward =>
      simp only [answer, acceptRule, Outcome.ok.injEq] at written
      cases written
      exact .default answer

theorem validate_of_configFilter
    (accepted : configFilter handlers codec cm message = .accept committer) :
    ∃ configEnvelope, committer = .isolated (.config configEnvelope) ∧
        validate handlers.toHandlers codec cm configEnvelope = .ok () := by
  rw [configFilter] at accepted
  cases read : configData codec message with
  | none => simp [read] at accepted
  | some data =>
    cases decoded : codec.unmarshalConfigEnvelope data.bytes with
    | none => simp [read, decoded] at accepted
    | some configEnvelope =>
      cases validated : validate handlers.toHandlers codec cm configEnvelope with
      | ok _ =>
        simp only [read, decoded, validated, Action.accept.injEq] at accepted
        exact ⟨configEnvelope, accepted.symm, validated⟩
      | error _ | panic => simp [read, decoded, validated] at accepted

section

theorem isIsolated_of_configData {data : Slice}
    (accepted : applyRules cm message (filters handlers codec systemChain) = .ok committer)
    (isConfig : configData codec message = some data) :
    committer.isIsolated = true := by
  cases acceptedBy_of_filters accepted with
  | systemChain _ => rfl
  | config accepts =>
    rcases validate_of_configFilter accepts with ⟨_, rfl, _⟩
    rfl
  | default forwards =>
    rw [configFilter, isConfig] at forwards
    dsimp only at forwards
    split at forwards
    · cases forwards
    · split at forwards <;> cases forwards

end

/-- The filters of a channel. -/
def channelRules (handlers : ChannelHandlers Resources) (codec : Codec)
    (systemChain : ConfigManager Resources → Envelope → Action Envelope) :
    Rules (ConfigManager Resources) ChannelUpdate where
  batchSize cm := handlers.batchSize cm.resources
  apply cm message := applyRules cm message (filters handlers codec systemChain)
  commit := commitUpdate handlers codec
  commits := by
    intro cm message update accepted
    cases update with
    | config configEnvelope =>
      -- The filters isolate a configuration only after they have validated it.
      cases acceptedBy_of_filters accepted with
      | config accepts =>
        rcases validate_of_configFilter accepts with ⟨_, same, validated⟩
        cases same
        rcases exists_apply_of_validate validated with ⟨later, applied⟩
        exact ⟨later, by rw [commitUpdate, applied]⟩
    | newChain configTx => exact ⟨cm, rfl⟩

end

end Fabric.Orderer.Filters
