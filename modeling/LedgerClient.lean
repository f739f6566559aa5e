import LedgerClient.Client.Contract
import LedgerClient.Command.Disk
import LedgerClient.Main
import LedgerClient.Message.Catalog
import LedgerClient.Network.Script
import LedgerClient.Proofs.Chain
import LedgerClient.Proofs.Group.History
import LedgerClient.Proofs.Transaction.Failure
import LedgerClient.Proofs.Transaction.Success
import LedgerClient.Proofs.Update.Destination
import LedgerClient.Proofs.Wire.Canonical
import LedgerClient.Proofs.Json.Messages
import LedgerClient.Proofs.Transaction.Privacy
import LedgerClient.Proofs.Transaction.Arrival
import LedgerClient.Proofs.Transaction.Contents
import LedgerClient.Proofs.Transaction.Later
import LedgerClient.Proofs.FanOut
import LedgerClient.Proofs.Policy.Grammar
import LedgerClient.Proofs.Update.Makers
import LedgerClient.Proofs.Update.Overlay
import LedgerClient.Proofs.Update.Coverage
import LedgerClient.Proofs.Update.Effects
import LedgerClient.Proofs.Update.Checking
import LedgerClient.Proofs.Update.Countersigning
import LedgerClient.Proofs.Exchange
import LedgerClient.Proofs.Reading
import LedgerClient.Proofs.Group.Closing
import LedgerClient.Proofs.InTurn
import LedgerClient.Proofs.Joining
import LedgerClient.Proofs.Installing
import LedgerClient.Proofs.Transaction.Expressions
import LedgerClient.Proofs.Group.Slot
import LedgerClient.Proofs.Socket.Protocol
import LedgerClient.Proofs.Policy.Organizations
import LedgerClient.Proofs.Policy.Positions
import LedgerClient.Proofs.Creation
import LedgerClient.Proofs.Transient
