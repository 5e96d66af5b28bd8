import Lispmob.MapReplies
import Lispmob.Expiration
import Lispmob.LastRegistration
import Lispmob.SiteExpiration
import Lispmob.FlowLocators
import Lispmob.EncapsulatedControl
import Lispmob.Rejected
import Lispmob.TimerOwners
import Lispmob.TimerReferences
import Lispmob.MessageBounds
import Lispmob.AcceptedAddresses
import Lispmob.AuthBytes
import Lispmob.RecordRoundTrips
import Lispmob.SmrRounds
import Lispmob.LocatorRuns
import Lispmob.DatabaseEntries
import Lispmob.RegisterAuth
