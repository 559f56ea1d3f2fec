import AnalogConnect.Proofs.Downlink
import AnalogConnect.Proofs.BatchAgreement
import AnalogConnect.Proofs.AncsGroups
import AnalogConnect.Proofs.GroupAssignment
import AnalogConnect.Conversations
import AnalogConnect.Library.Paging
import AnalogConnect.Proofs.Conversations
import AnalogConnect.Proofs.Calls
import AnalogConnect.Contacts
import AnalogConnect.PhonePages
import AnalogConnect.Proofs.MessageCancellation
import AnalogConnect.Proofs.MediaAuth
import AnalogConnect.Proofs.ContactTargets
import AnalogConnect.Proofs.Pagination
import AnalogConnect.Proofs.PhonePages
import AnalogConnect.Proofs.AncsAttribution
import AnalogConnect.Proofs.CorrelatorTies
import AnalogConnect.Proofs.HfpControl
import AnalogConnect.Proofs.TelephonyClosed
import AnalogConnect.Proofs.AliasRuns
import AnalogConnect.Proofs.ContactSync
import AnalogConnect.Proofs.MessageSync
import AnalogConnect.Proofs.CallAudioPump
import AnalogConnect.Proofs.MediaSocket
import AnalogConnect.Proofs.WebSocketWire
import AnalogConnect.Proofs.PollSchedule
import AnalogConnect.Proofs.MutationLimiter
import AnalogConnect.Proofs.AtBackend
import AnalogConnect.Proofs.AudioQueue
import AnalogConnect.Proofs.ScoWatchdog
import AnalogConnect.Proofs.PcmStream
import AnalogConnect.Proofs.ParticipantKeys
import AnalogConnect.Proofs.PhoneNumbers
import AnalogConnect.Proofs.CallerLookup
import AnalogConnect.Proofs.AncsIngest
import AnalogConnect.Proofs.Concealment
import AnalogConnect.Proofs.ScoNodes
import AnalogConnect.Proofs.TelecomDialTarget
import AnalogConnect.Proofs.MessageNotifications
import AnalogConnect.Proofs.ContactParse
import AnalogConnect.Proofs.AndroidCallKeys
import AnalogConnect.Proofs.WebSocketHandshake
import AnalogConnect.Proofs.MapFolders
import AnalogConnect.Proofs.MapRecords
import AnalogConnect.Proofs.AncsBearer
import AnalogConnect.Proofs.TelecomConnection
import AnalogConnect.Proofs.CatchUp
import AnalogConnect.Proofs.MessageIdentity
import AnalogConnect.Proofs.CallAudioPlayout
