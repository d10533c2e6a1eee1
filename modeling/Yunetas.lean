import Yunetas.Verif.AbsentRows
import Yunetas.Verif.Acknowledgements
import Yunetas.Verif.AnsweredMessages
import Yunetas.Verif.Base64RoundTrip
import Yunetas.Verif.ByteQueue
import Yunetas.Verif.CellValues
import Yunetas.Verif.CommandLines
import Yunetas.Verif.DeepComparison
import Yunetas.Verif.DeletedInstances
import Yunetas.Verif.DlSequences
import Yunetas.Verif.FailedOperations
import Yunetas.Verif.FailedWrites
import Yunetas.Verif.FieldRoundTrip
import Yunetas.Verif.FilteredPages
import Yunetas.Verif.FlattenRoundTrip
import Yunetas.Verif.Following
import Yunetas.Verif.FreshIds
import Yunetas.Verif.ImmutableNodes
import Yunetas.Verif.InPlaceUpdates
import Yunetas.Verif.IndexCoherence
import Yunetas.Verif.Isolation
import Yunetas.Verif.KeptRecords
import Yunetas.Verif.MarkedMessages
import Yunetas.Verif.MessageTree
import Yunetas.Verif.MirroredSessions
import Yunetas.Verif.MqttFraming
import Yunetas.Verif.PendingMessages
import Yunetas.Verif.PollingCycles
import Yunetas.Verif.PostedLifetime
import Yunetas.Verif.PropertyForwarding
import Yunetas.Verif.Qos2Reception
import Yunetas.Verif.RecordRoundTrip
import Yunetas.Verif.Reload
import Yunetas.Verif.RetainedDelivery
import Yunetas.Verif.ServiceGate
import Yunetas.Verif.ServiceRegistry
import Yunetas.Verif.SetThenGet
import Yunetas.Verif.ShareGroups
import Yunetas.Verif.SubsPruning
import Yunetas.Verif.SubscriptionLists
import Yunetas.Verif.Tcp4hFraming
import Yunetas.Verif.Tombstone
import Yunetas.Verif.TopicAliases
import Yunetas.Verif.TreeWalks
import Yunetas.Verif.Unlinking
import Yunetas.Verif.Username
import Yunetas.Verif.Utf8Exactness
import Yunetas.Verif.VariableValues
import Yunetas.Verif.VersionOrder
import Yunetas.Verif.Widening
import Yunetas.Verif.WillOnce
import Yunetas.Verif.Wiping
import Yunetas.Verif.WireRoundTrip
