import LedgerClient.Chaincode.Invocation
import LedgerClient.Command.Options
import LedgerClient.Settings
/-!
# Command lines

Every command makes one call of the gateway.  Options that take a path name a file to read or to
write.
-/

namespace LedgerClient

/-- A chaincode definition as it is given on a command line. -/
structure DefinitionOptions where
  name : String
  version : String
  sequence : Int64
  signaturePolicy : Option String
  channelConfigPolicy : Option String
  /-- The path of a JSON file with collections. -/
  collectionsConfig : Option String
  initRequired : Bool
  deriving DecidableEq

/-- A change of membership as it is given on a command line. -/
inductive ChangeOptions where
  /-- The path of a JSON file with the organization. -/
  | add (path : String)
  | remove (name : String)
  deriving DecidableEq

inductive Command where
  | install (package path label : Option String) (lang : ChaincodeLang)
  | approve (channel : String) (definition : DefinitionOptions) (packageId : Option String)
  | commit (channel : String) (definition : DefinitionOptions)
  | invoke (channel : String) (call : Invocation)
  | query (channel : String) (call : Invocation)
  | createChannel (channel txFile : String)
  | join (channel : String)
  | updateChannel (channel txFile : String)
  | listChannels
  | fetchBlock (channel : String) (number : Option UInt64) (output : Option String)
  | fetchConfig (channel : String) (output : Option String)
  | initiateProposal (channel : String) (change : ChangeOptions) (consortium : Option String)
      (output : String)
  | signProposal (proposal output : String)
  | submitProposal (proposal : String) (signatures : List String)
  deriving DecidableEq

structure CommandLine where
  /-- The path of the settings. -/
  config : Option String
  overrides : Overrides
  /-- The path of the key; without one a throwaway key signs. -/
  keyFile : Option String
  orgId : String
  command : Command

/-! ## Forms -/

def globalOptions : List OptionForm := [
  { name := "config", arity := .once .path },
  { name := "orderer", arity := .once .text },
  { name := "peer", arity := .repeated .text },
  { name := "committer", arity := .once .text },
  { name := "key-file", arity := .once .path },
  { name := "org-id", arity := .once .text },
  { name := "commit-timeout-ms", arity := .once .natural },
  { name := "log-level", arity := .once .text }]

def channelOption : OptionForm := { name := "channel", short := some 'c', arity := .once .text }

def definitionOptions : List OptionForm := [
  { name := "name", arity := .once .text },
  { name := "version", arity := .once .text },
  { name := "sequence", arity := .once .integer },
  { name := "signature-policy", arity := .once .text },
  { name := "channel-config-policy", arity := .once .text },
  { name := "collections-config", arity := .once .path },
  { name := "init-required", arity := .flag }]

def callOptions : List OptionForm := [
  { name := "name", short := some 'n', arity := .once .text },
  { name := "function", arity := .once .text },
  { name := "arg", arity := .repeated .text },
  { name := "transient", arity := .once .text },
  { name := "is-init", arity := .flag }]

def pathOption (name : String) : OptionForm := { name := name, arity := .once .path }

def textOption (name : String) : OptionForm := { name := name, arity := .once .text }

def commandForms : List CommandForm := [
  ⟨"install", [pathOption "package", pathOption "path", textOption "label",
    { name := "lang", arity := .once .lang }]⟩,
  ⟨"approve", channelOption :: textOption "package-id" :: definitionOptions⟩,
  ⟨"commit", channelOption :: definitionOptions⟩,
  ⟨"invoke", channelOption :: callOptions⟩,
  ⟨"query", channelOption :: callOptions⟩,
  ⟨"create-channel", [channelOption, pathOption "tx-file"]⟩,
  ⟨"join", [channelOption]⟩,
  ⟨"update-channel", [channelOption, pathOption "tx-file"]⟩,
  ⟨"list-channels", []⟩,
  ⟨"fetch-block", [channelOption, { name := "number", arity := .once .natural },
    pathOption "output"]⟩,
  ⟨"fetch-config", [channelOption, pathOption "output"]⟩,
  ⟨"proposal-initiate", [channelOption, pathOption "add-org", textOption "remove-org",
    textOption "consortium", pathOption "output"]⟩,
  ⟨"proposal-sign", [pathOption "proposal", pathOption "output"]⟩,
  ⟨"proposal-submit", [pathOption "proposal",
    { name := "signature", arity := .repeated .path }]⟩]

def OptionForm.usage (o : OptionForm) : String :=
  match o.arity with
  | .flag => s!"[--{o.name}]"
  | .once _ => s!"[--{o.name} <value>]"
  | .repeated _ => s!"[--{o.name} <value>]..."

def usageOf (options : List OptionForm) : String :=
  " ".intercalate (options.map OptionForm.usage)

/-- What can be given on a command line. -/
def usage : String :=
  let commands := commandForms.map fun c => s!"  {c.name} {usageOf c.options}"
  "\n".intercalate (s!"Usage: {usageOf globalOptions} <command>" :: "Commands:" :: commands)

/-! ## From words to commands -/

namespace Given

def require (g : Given) (name : String) : Except UsageFault String :=
  match g.get? name with
  | some value => .ok value
  | none => .error (.missingOption name)

def requireInteger (g : Given) (name : String) : Except UsageFault Int64 := do
  let value ← g.require name
  match integerOf? value with
  | some n => return n
  | none => throw (.invalidValue name value)

def natural? (g : Given) (name : String) : Option UInt64 := g.get? name >>= naturalOf?

/-- The options given later, in place of those of the same name in `g`. -/
def overriddenBy (g later : Given) : Given := (g.filter fun e => !later.has e.1) ++ later

def exclude (g : Given) (option other : String) : Except UsageFault Unit :=
  if g.has option && g.has other then .error (.conflict option other) else .ok ()

def definition (g : Given) : Except UsageFault DefinitionOptions := do
  return {
    name := ← g.require "name"
    version := ← g.require "version"
    sequence := ← g.requireInteger "sequence"
    signaturePolicy := g.get? "signature-policy"
    channelConfigPolicy := g.get? "channel-config-policy"
    collectionsConfig := g.get? "collections-config"
    initRequired := g.has "init-required" }

def call (g : Given) : Except UsageFault Invocation := do
  let invocation := Invocation.call (← g.require "name") (← g.require "function") (g.all "arg")
  return { invocation with transient := g.get? "transient", isInit := g.has "is-init" }

/-- One of the two changes has to be given, and not both. -/
def change (g : Given) : Except UsageFault ChangeOptions := do
  g.exclude "add-org" "remove-org"
  match g.get? "add-org", g.get? "remove-org" with
  | some path, _ => return .add path
  | none, some name => return .remove name
  | none, none => throw (.missingOption "add-org")

/-- A package excludes sources, and sources need a label. -/
def installation (g : Given) : Except UsageFault Command := do
  g.exclude "package" "path"
  if g.has "path" && !g.has "label" then throw (.missingOption "label")
  let lang := match ChaincodeLang.ofText ((g.get? "lang").getD "golang") with
    | .ok lang => lang
    | .error _ => .golang
  return .install (g.get? "package") (g.get? "path") (g.get? "label") lang

end Given

namespace Command

def ofGiven (name : String) (g : Given) : Except UsageFault Command := do
  match name with
  | "install" => g.installation
  | "approve" => return .approve (← g.require "channel") (← g.definition) (g.get? "package-id")
  | "commit" => return .commit (← g.require "channel") (← g.definition)
  | "invoke" => return .invoke (← g.require "channel") (← g.call)
  | "query" => return .query (← g.require "channel") (← g.call)
  | "create-channel" => return .createChannel (← g.require "channel") (← g.require "tx-file")
  | "join" => return .join (← g.require "channel")
  | "update-channel" =>
    return .updateChannel ((g.get? "channel").getD "") (← g.require "tx-file")
  | "list-channels" => return .listChannels
  | "fetch-block" =>
    return .fetchBlock (← g.require "channel") (g.natural? "number") (g.get? "output")
  | "fetch-config" => return .fetchConfig (← g.require "channel") (g.get? "output")
  | "proposal-initiate" =>
    return .initiateProposal (← g.require "channel") (← g.change) (g.get? "consortium")
      (← g.require "output")
  | "proposal-sign" => return .signProposal (← g.require "proposal") (← g.require "output")
  | "proposal-submit" => return .submitProposal (← g.require "proposal") (g.all "signature")
  | _ => throw (.unknownCommand name)

/-- The paths of the files that a command reads. -/
def inputs : Command → List String
  | install package _ _ _ => package.toList
  | approve _ definition _ | commit _ definition => definition.collectionsConfig.toList
  | createChannel _ txFile | updateChannel _ txFile => [txFile]
  | initiateProposal _ (.add path) _ _ => [path]
  | signProposal proposal _ => [proposal]
  | submitProposal proposal signatures => proposal :: signatures
  | _ => []

end Command

namespace CommandLine

def ofWords (w : Words) : Except UsageFault CommandLine := do
  let g := w.before.overriddenBy w.after
  return {
    config := g.get? "config"
    overrides := {
      orderer := g.get? "orderer", peers := g.all "peer", committer := g.get? "committer"
      commitMs := g.natural? "commit-timeout-ms" }
    keyFile := g.get? "key-file"
    orgId := (g.get? "org-id").getD "Org1MSP"
    command := ← Command.ofGiven w.command w.after }

def parse (words : List String) : Except Stop CommandLine := do
  (ofWords (← readWords globalOptions commandForms words)).mapError .fault

/-- The paths of the files that are read. -/
def inputs (line : CommandLine) : List String :=
  line.config.toList ++ line.keyFile.toList ++ line.command.inputs

end CommandLine

end LedgerClient
