import SharedVariables.Broker.Run
import SharedVariables.Frame.Arrival
import SharedVariables.Proofs.Agreement
import SharedVariables.Proofs.Dialogue
import SharedVariables.Proofs.Overflow
import SharedVariables.Proofs.Replies
import SharedVariables.Session.Clients
import SharedVariables.Session.Gate
import SharedVariables.Session.Puppet
import SharedVariables.Session.Wires
import SharedVariables.Switchboard
import SharedVariables.Table.Churn
import SharedVariables.Proofs.Survivors
import SharedVariables.Proofs.Cascade
import SharedVariables.Proofs.Callers
import SharedVariables.Proofs.Restraint
import SharedVariables.Proofs.Sharing
import SharedVariables.Proofs.Handover
import SharedVariables.Proofs.Authorship
import SharedVariables.Proofs.Reuse
import SharedVariables.Proofs.Recovery
import SharedVariables.Proofs.Delimiting
import SharedVariables.Proofs.Canonical
import SharedVariables.Proofs.Chunking
import SharedVariables.Proofs.Waiting
import SharedVariables.Proofs.Readers
import SharedVariables.Proofs.KeySupply
import SharedVariables.Proofs.Refusals
import SharedVariables.Proofs.Fate
import SharedVariables.Proofs.Orderly
import SharedVariables.Proofs.Gaps
import SharedVariables.Proofs.Holding
import SharedVariables.Proofs.Meeting
import SharedVariables.Proofs.PendingEvents
import SharedVariables.Proofs.Tidings
import SharedVariables.Proofs.Partings
import SharedVariables.Proofs.Enumeration
import SharedVariables.Proofs.Shuffling
import SharedVariables.Proofs.Conversation
import SharedVariables.Proofs.Reports
import SharedVariables.Proofs.Eligibility
import SharedVariables.Proofs.Withdrawal
import SharedVariables.Proofs.Draining
import SharedVariables.Proofs.Advertising
import SharedVariables.Proofs.Offerers
import SharedVariables.Proofs.Channels
import SharedVariables.Proofs.Punctuality
import SharedVariables.Proofs.Polling
import SharedVariables.Proofs.Listening
import SharedVariables.Proofs.Scripts
import SharedVariables.Proofs.Naming
import SharedVariables.Proofs.Cutting
