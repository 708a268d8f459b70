import Chattice.Actions.Wire
import Chattice.Adapters.GoogleChat.Epochs
import Chattice.Asyncio.Parts
import Chattice.Cards.Resolution
import Chattice.Cards.RoundTrip
import Chattice.Client.Lifecycle.SingleFlight
import Chattice.Client.NameForms
import Chattice.Client.Paging
import Chattice.Client.Refusal
import Chattice.Dispatcher.Dependency
import Chattice.Dispatcher.FeedUpdate
import Chattice.Dispatcher.FirstMatch
import Chattice.Dispatcher.Inclusion
import Chattice.Dispatcher.Lifespan
import Chattice.Forms
import Chattice.Fsm.AdapterRefines
import Chattice.Fsm.Context
import Chattice.Fsm.Conversations
import Chattice.Fsm.KeyIsolation
import Chattice.Idempotency.Leases
import Chattice.Idempotency.Takeover
import Chattice.Integrations.ChatRouter
import Chattice.Integrations.Gcs
import Chattice.Integrations.PushRouter
import Chattice.Integrations.PushRouter.Exclusive
import Chattice.Integrations.Serializer
import Chattice.Media
import Chattice.Posix.Files
import Chattice.Posix.OpenOnce
import Chattice.Transports.PubsubRunner.Answer
import Chattice.Transports.PubsubRunner.Concurrency
import Chattice.Transports.PubsubRunner.Exclusive
import Chattice.Transports.PubsubRunner.Fairness
import Chattice.Transports.PubsubRunner.IdleKeys
import Chattice.Transports.PubsubRunner.Recorded
import Chattice.Transports.PubsubRunner.Shutdown
import Chattice.Transports.PubsubRunner.Wire
import Chattice.WorkspaceEvents.Agreement
import Chattice.WorkspaceEvents.Parser
