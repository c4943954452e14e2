import JobBroker.Config
import JobBroker.Credit.Dispatch
import JobBroker.Frame.CommandResponse
import JobBroker.Frame.SubscribedEvent
import JobBroker.Proofs.Canonical
import JobBroker.Proofs.ChannelUses
import JobBroker.Proofs.Coalescing
import JobBroker.Proofs.Completions
import JobBroker.Proofs.CreditBytes
import JobBroker.Proofs.CreditRest
import JobBroker.Proofs.Discards
import JobBroker.Proofs.FailedSubscribes
import JobBroker.Proofs.Isolation
import JobBroker.Proofs.Retries
import JobBroker.Proofs.Rosters
import JobBroker.Proofs.Snapshots
import JobBroker.Proofs.Stragglers
import JobBroker.Proofs.UnitNames
import JobBroker.Proofs.Unsubscriptions
import JobBroker.Rehearsal.Stage
