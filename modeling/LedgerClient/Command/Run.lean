import LedgerClient.Client.Gateway
import LedgerClient.Command.Line
/-!
# Running commands

A command line gives, for the files and the network it finds, what is printed, what is written to
a file and how it fails.
-/

namespace LedgerClient

inductive CommandFault where
  | client (error : ClientError)
  /-- A file of the command itself. -/
  | file (fault : FileFault)
  | nothingToInstall
  /-- The request came to an answer that is no success. -/
  | failedRequest (status : Int32) (message : String)
  | undecodable (fault : DecodeFault)
  deriving DecidableEq

def CommandFault.message : CommandFault → String
  | .client error => error.message
  | .file fault => fault.message
  | .nothingToInstall => "either --package or --path with --label is required"
  | .failedRequest status message => s!"request failed with status {status.toInt}: {message}"
  | .undecodable fault => fault.message

/-- What a command leaves behind. -/
structure CommandResult where
  printed : Option Json.Value := none
  /-- A path, and what is written there. -/
  written : Option (String × Bytes) := none
  fault : Option CommandFault := none

def CommandResult.failed (fault : CommandFault) : CommandResult := { fault := some fault }

/-- What is done with the answer of the gateway. -/
inductive Ending where
  | report
  | writeTo (path : String)
  | showBlock
  | showConfig
  deriving DecidableEq

/-- Payloads that are text are shown as they are, and others as hexadecimal digits. -/
def shownPayload (payload : Bytes) : String :=
  match Utf8.decode payload with
  | .ok text => text
  | .error _ => Hex.encode payload

def GatewayResponse.report (r : GatewayResponse) : Json.Value :=
  .object [("message", .text r.message), ("payload", .text (shownPayload r.payload)),
    ("status", .number r.status.toInt)]

def shown {α β : Type} [Message α] [Layout β] (payload : Bytes) (part : α → β) : CommandResult :=
  match fromWire α payload with
  | .ok a => { printed := some (toJson (part a)) }
  | .error fault => .failed (.undecodable fault)

def Ending.result (r : GatewayResponse) : Ending → CommandResult
  | report => {
      printed := some r.report
      fault := if r.isSuccess then none else some (.failedRequest r.status r.message) }
  | writeTo path => { written := some (path, r.payload) }
  | showBlock => shown (α := Block) r.payload id
  | showConfig => shown (α := ConfigEnvelope) r.payload (·.config)

/-! ## Files -/

/-- What is found at a path. -/
abbrev Files := String → Except FileFault Bytes

namespace Files

def bytes (files : Files) (path : String) : Except CommandFault Bytes :=
  (files path).mapError .file

def text (files : Files) (path : String) : Except CommandFault String :=
  (textOfFile (files path)).mapError .file

/-- The value in a JSON file. -/
def json (files : Files) (α : Type) [Layout α] (path : String) : Except CommandFault α := do
  (fromJson α (← files.bytes path)).mapError fun fault => .client (.unreadable fault)

def definition (files : Files) (d : DefinitionOptions) :
    Except CommandFault ChaincodeDefinition := do
  let collections ← match d.collectionsConfig with
    | some path => do
      let text ← files.text path
      some <$> (collectionsOfJson text).mapError .client
    | none => pure none
  return {
    name := d.name, version := d.version, sequence := d.sequence
    signaturePolicy := d.signaturePolicy, channelConfigPolicy := d.channelConfigPolicy
    collections := collections, initRequired := d.initRequired }

def change (files : Files) (c : ChangeOptions) (consortium : Option String) :
    Except CommandFault ConfigChange :=
  match c, consortium with
  | .add path, none => .channelAdd <$> files.json Organization path
  | .add path, some consortium => .consortiumAdd consortium <$> files.json Organization path
  | .remove name, none => .ok (.channelRemove name)
  | .remove name, some consortium => .ok (.consortiumRemove consortium name)

end Files

/-! ## Commands -/

def installerFor (files : Files) (package path label : Option String) (lang : ChaincodeLang) :
    Except CommandFault ChaincodeInstaller :=
  match package, path, label with
  | some package, _, _ => .ok (.file (files package))
  | none, some path, some label => .ok (.source path label lang)
  | none, _, _ => .error .nothingToInstall

/-- The call that a command makes, and what is done with its answer. -/
def Command.call (files : Files) (g : Gateway) :
    Command → Except CommandFault (Client GatewayResponse × Ending)
  | install package path label lang => do
    return (g.installChaincode (← installerFor files package path label lang), .report)
  | approve channel definition packageId => do
    return (g.approveChaincode channel (← files.definition definition) packageId, .report)
  | commit channel definition => do
    return (g.commitChaincode channel (← files.definition definition), .report)
  | invoke channel call => .ok (g.invoke channel call, .report)
  | query channel call => .ok (g.query channel call, .report)
  | createChannel channel txFile =>
    .ok (g.createChannel channel (.file (files txFile)), .report)
  | join channel => .ok (g.joinChannel channel, .report)
  | updateChannel channel txFile => do
    return (g.updateChannel channel (← files.bytes txFile), .report)
  | listChannels => .ok (g.listChannels, .report)
  | fetchBlock channel number output =>
    .ok (g.fetchBlock channel number, (output.map .writeTo).getD .showBlock)
  | fetchConfig channel output =>
    .ok (g.fetchConfig channel, (output.map .writeTo).getD .showConfig)
  | initiateProposal channel change consortium output => do
    return (g.initiateProposal channel (← files.change change consortium), .writeTo output)
  | signProposal proposal output => do
    return (g.signProposal (← files.json MembershipProposal proposal), .writeTo output)
  | submitProposal proposal signatures => do
    let proposal ← files.json MembershipProposal proposal
    let signatures ← signatures.mapM (files.json ProposalSignature)
    return (g.submitProposal proposal signatures, .report)

/-- What a command finds around it. -/
structure Surroundings where
  files : Files
  network : Network
  time : Timestamp
  /-- The key that signs where no other is given. -/
  throwaway : Ed25519.SecretKey
  nonces : Nat → Bytes

def CommandLine.signer (s : Surroundings) (line : CommandLine) : Except ClientError Signer := do
  let key ← match line.keyFile with
    | some path => keyOfFile (s.files path)
    | none => pure s.throwaway
  return .ofKey line.orgId key s.nonces

def CommandLine.gateway (s : Surroundings) (line : CommandLine) : Except ClientError Gateway := do
  let settings ← resolveSettings (line.config.map s.files) line.overrides
  let timeouts := settings.timeouts.onClock
  Gateway.connect s.network { settings with timeouts := timeouts } (← line.signer s)

/-- Runs a command; `none` where it waits for ever. -/
def CommandLine.run (s : Surroundings) (line : CommandLine) : Option CommandResult :=
  let call : Except CommandFault (Client GatewayResponse × Ending) := do
    let gateway ← (line.gateway s).mapError .client
    line.command.call s.files gateway
  match call with
  | .error fault => some (.failed fault)
  | .ok (call, ending) =>
    match call.run { headers := { time := s.time, drawn := 0 } } with
    | .done (.ok response) _ => some (ending.result response)
    | .done (.error e) _ => some (.failed (.client e))
    | .stopped _ => none

end LedgerClient
