import Fyles.RequestExecution
import Fyles.RestartProtocol
import Fyles.SessionEstablishment
import Fyles.AuthenticatedAgreement
import Fyles.SessionBuilders
import Fyles.NonceHalves
import Fyles.RegistryCoherence
import Fyles.ResponseCorrelation
import Fyles.StatusRoundTrip
import Fyles.StartupRecovery
import Fyles.TerminalStatus
import Fyles.SessionRecovery
import Fyles.SentSoundness
import Fyles.TransferAuthorisation
import Fyles.RequestRetention
import Fyles.FlowControl
import Fyles.FilesLock
import Fyles.SessionTraffic
import Fyles.ExactCancellation
import Fyles.RetryLimits
import Fyles.ChunkAcknowledgement
import Fyles.PersistableStatus
import Fyles.IdentityConsistency
import Fyles.SourceRetention
import Fyles.TransferOrder
import Fyles.DeletionSafety
import Fyles.PeerIsolation
import Fyles.WaitForReady
import Fyles.StaleCleanup
import Fyles.FinishedFiles
import Fyles.ContinuationAccess
import Fyles.IdleExpiry
import Fyles.Challenges
