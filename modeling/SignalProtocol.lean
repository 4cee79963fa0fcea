import SignalProtocol.Proof.SpqrDirectSends
import SignalProtocol.Proof.MessageFraming
import SignalProtocol.Proof.HandoffLedger
import SignalProtocol.Proof.SenderKeyDelivery
import SignalProtocol.Proof.FetcherFreshness
import SignalProtocol.Proof.GroupPrivilege
import SignalProtocol.Proof.OutboxReports
import SignalProtocol.Proof.RotationBarrier
import SignalProtocol.Proof.RetryDelivery
import SignalProtocol.Proof.SendTimestamps
import SignalProtocol.Proof.DeviceListRuns
import SignalProtocol.Proof.InterruptedPublication
import SignalProtocol.Proof.RetryRuns
import SignalProtocol.Proof.RetryResends
import SignalProtocol.Proof.SessionStores
import SignalProtocol.Proof.SendLogAgreement
import SignalProtocol.Proof.ContentAuthority
import SignalProtocol.Proof.ReceiptRuns
import SignalProtocol.Proof.ManualResends
import SignalProtocol.Proof.DeclaredConvergence
import SignalProtocol.Proof.StreamingAead
import SignalProtocol.Proof.DecryptCandidates
import SignalProtocol.Proof.SkippedKeyStore
import SignalProtocol.Proof.RetentionWindow
import SignalProtocol.Proof.SafetyNumbers
import SignalProtocol.Proof.MultiRecipient
import SignalProtocol.Proof.SkippedKeyEviction
import SignalProtocol.Proof.DeviceSets
import SignalProtocol.Proof.GroupIndex
import SignalProtocol.Proof.LedgerIndex
import SignalProtocol.Proof.SenderKeyIds
import SignalProtocol.Proof.PreKeyCalls
import SignalProtocol.Proof.RelayWork
import SignalProtocol.Proof.SyncCandidates
import SignalProtocol.Proof.Usernames
import SignalProtocol.Proof.FanOut
import SignalProtocol.Proof.KeyedLock
