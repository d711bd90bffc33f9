import Deskflow.FrameWrites
import Deskflow.StreamDecoding
import Deskflow.ModifierAgreement
import Deskflow.Distinction
import Deskflow.ConnectionFrames
import Deskflow.ConnectionOrder
import Deskflow.ClipboardTransfer
import Deskflow.ClipboardRouting
import Deskflow.ClipboardRoundTrip
import Deskflow.SharedClipboard
import Deskflow.ClipboardSharing
import Deskflow.ButtonFailures
import Deskflow.Branches
import Deskflow.ReplyTrace
import Deskflow.Reconnection
import Deskflow.StatusReports
import Deskflow.StatusPanel
import Deskflow.StopSteps
import Deskflow.Stopping
import Deskflow.FormatLanguage
import Deskflow.BufferBytes
import Deskflow.BufferGrowth
import Deskflow.DragButton
import Deskflow.PointerRange
import Deskflow.ScrollTotals
import Deskflow.EchoSuppression
import Deskflow.CarrierRestart
import Deskflow.LoopBound
import Deskflow.FrameTransport
import Deskflow.InfoReply
import Deskflow.TrayAdding
import Deskflow.TrayConvergence
import Deskflow.AddressAttempts
import Deskflow.Descriptors
import Deskflow.DescriptorCloses
import Deskflow.WorkerHandover
import Deskflow.WorkerReports
import Deskflow.StatusBridge
import Deskflow.Quitting
import Deskflow.StopEffects
import Deskflow.WireTransmissions
import Deskflow.WireContents
import Deskflow.IndexPage
import Deskflow.LaunchRuns
import Deskflow.StoredPreferences
import Deskflow.PasteboardTexts
import Deskflow.Carriers
import Deskflow.RelativeMoves
import Deskflow.Uploads
import Deskflow.ClipboardPaths
import Deskflow.TrayRecovery
import Deskflow.ReceivedUploads
import Deskflow.PageAndTray
