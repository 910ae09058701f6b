import AltSendme.Android.CopyContainment
import AltSendme.Android.CopyProgress
import AltSendme.Android.CopyUtils
import AltSendme.Android.DocumentProvider
import AltSendme.Android.JavaFile
import AltSendme.Android.ReceiveExport
import AltSendme.Android.ShareIntent
import AltSendme.Desktop.DeviceNode
import AltSendme.Desktop.OneShare
import AltSendme.Desktop.PartialStores
import AltSendme.Desktop.ReceiveCancel
import AltSendme.Desktop.ReceiveCommands
import AltSendme.Desktop.SendCommands
import AltSendme.Desktop.SharePreview
import AltSendme.Execution.Pool
import AltSendme.Execution.Progress
import AltSendme.Execution.Run
import AltSendme.Execution.Tally
import AltSendme.Execution.Trace
import AltSendme.Files.ConflictNames
import AltSendme.Files.Export
import AltSendme.Files.ExportSafety
import AltSendme.Files.ExportableNames
import AltSendme.Files.FreshExport
import AltSendme.Files.GivenPaths
import AltSendme.Files.Import
import AltSendme.Files.ImportNames
import AltSendme.Files.ImportTiming
import AltSendme.Files.LosslessTransfer
import AltSendme.Files.Names
import AltSendme.Files.Numbering
import AltSendme.Files.PlacedFiles
import AltSendme.Files.RejectedNames
import AltSendme.Files.SharedTrees
import AltSendme.Files.SkippedNames
import AltSendme.Frontend.NodeCapability
import AltSendme.Frontend.PairedInvites
import AltSendme.Frontend.Receiver
import AltSendme.Frontend.Sender
import AltSendme.Frontend.Transfer
import AltSendme.Frontend.WebBridge
import AltSendme.Frontend.WebEventBus
import AltSendme.Frontend.WebFileStore
import AltSendme.Frontend.WebPicks
import AltSendme.Frontend.WebSaveLocation
import AltSendme.Frontend.WebSelection
import AltSendme.Frontend.WebZip
import AltSendme.Frontend.ZipLimits
import AltSendme.Listing.Grouped
import AltSendme.Listing.Keyed
import AltSendme.Listing.Separated
import AltSendme.Listing.Stable
import AltSendme.Native.Abort
import AltSendme.Native.Addressing
import AltSendme.Native.Allowlist
import AltSendme.Native.ConnectLoops
import AltSendme.Native.ConnectionWait
import AltSendme.Native.ControlAccess
import AltSendme.Native.DeviceStore
import AltSendme.Native.Download
import AltSendme.Native.DownloadTotals
import AltSendme.Native.FailedWrites
import AltSendme.Native.ForgetNotices
import AltSendme.Native.IdentityRotation
import AltSendme.Native.IdentityStore
import AltSendme.Native.KeptRecords
import AltSendme.Native.Link
import AltSendme.Native.LoopTable
import AltSendme.Native.Network
import AltSendme.Native.Node
import AltSendme.Native.NoticeDelivery
import AltSendme.Native.Notices
import AltSendme.Native.PairingAgreement
import AltSendme.Native.PairingIdentity
import AltSendme.Native.PairingStages
import AltSendme.Native.PairingWindow
import AltSendme.Native.Presence
import AltSendme.Native.RelayChange
import AltSendme.Native.RemoteUnpairing
import AltSendme.Native.Repairing
import AltSendme.Native.SessionTable
import AltSendme.Native.StoreFile
import AltSendme.Native.StoreRecords
import AltSendme.Native.StoredNames
import AltSendme.Native.Task
import AltSendme.Native.TaskOrder
import AltSendme.Native.TimedWindow
import AltSendme.Native.Turn
import AltSendme.Native.UnpairingDelivery
import AltSendme.Native.UnreadableList
import AltSendme.Native.WindowExpiry
import AltSendme.Numeric.Binary32
import AltSendme.Protocol.Control
import AltSendme.Protocol.Framing
import AltSendme.Protocol.HexKeys
import AltSendme.Protocol.Identity
import AltSendme.Protocol.MetadataFetch
import AltSendme.Protocol.PairingAuth
import AltSendme.Protocol.PairingTicket
import AltSendme.Protocol.PayloadBytes
import AltSendme.Protocol.ProvideProgress
import AltSendme.Protocol.RequestBooks
import AltSendme.Protocol.RequestLedger
import AltSendme.Protocol.ResumedTransfer
import AltSendme.Protocol.SenderProgress
import AltSendme.Protocol.SentBytes
import AltSendme.Protocol.TransferCompleted
import AltSendme.Protocol.TransferNotMissed
import AltSendme.Relay.IpAddr
import AltSendme.Relay.PublicRelay
import AltSendme.Relay.RelayMode
import AltSendme.Relay.RelaySettings
import AltSendme.Relay.RelayStatus
import AltSendme.Wire.Crc
import AltSendme.Wire.Fields
import AltSendme.Wire.Frames
import AltSendme.Wire.Json
import AltSendme.Wire.Trimming
import AltSendme.Wire.Zip
