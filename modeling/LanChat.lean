import LanChat.Lib.Run
import LanChat.Lib.Table
import LanChat.Lib.GoStrings
import LanChat.Lib.Base64
import LanChat.Message
import LanChat.Store.Mls
import LanChat.Store.MlsSpec
import LanChat.Store.MlsRuns
import LanChat.Store.Attachment
import LanChat.Store.Chat
import LanChat.Hub.State
import LanChat.Hub.Rooms
import LanChat.Hub.Messages
import LanChat.Hub.Attachments
import LanChat.Hub.MlsHandlers
import LanChat.Hub.Step
import LanChat.Hub.Moves
import LanChat.Hub.Frames
import LanChat.Store.ChatSpec
import LanChat.Hub.ChatLog
import LanChat.Hub.Recall
import LanChat.Hub.MlsLog
import LanChat.Hub.GeneratedID
import LanChat.Hub.RoomLog
import LanChat.Hub.HistoryLog
import LanChat.Hub.Confidential
import LanChat.Gui.Controller
import LanChat.Gui.Desktop
import LanChat.Hub.Places
import LanChat.Gui.RoomAgreement
import LanChat.Store.RecalledContent
import LanChat.Hub.Consistent
import LanChat.Hub.Occupancy
import LanChat.Store.MlsRecipients
import LanChat.Hub.Finality
import LanChat.Gui.MlsSession
import LanChat.Gui.MlsNet
import LanChat.Hub.MlsRows
import LanChat.Gui.MlsWelcome
import LanChat.Hub.Queues
import LanChat.Gui.MlsJoin
import LanChat.Lib.GoJson
import LanChat.Lib.ByteStream
import LanChat.Wire
import LanChat.Protocol
import LanChat.Hub.Outbound
import LanChat.Store.AttachmentQuota
import LanChat.Store.AttachmentTransfer
import LanChat.Client.ReceiveMessage
import LanChat.Client.Resume
import LanChat.Gui.AttachmentFile
import LanChat.Hub.Publication
import LanChat.Hub.Confinement
import LanChat.Hub.Routes
import LanChat.Store.Conversations
import LanChat.Hub.Receipts
import LanChat.Hub.Retries
import LanChat.Hub.LiveCopies
import LanChat.Hub.RecallReach
import LanChat.Hub.Gate
import LanChat.Hub.Admission
import LanChat.Hub.ApprovalOutcome
import LanChat.Hub.MlsRooms
import LanChat.Client.ServerFrames
import LanChat.Client.OpaquePayload
import LanChat.Client.SendMessage
import LanChat.Hub.AttachmentFrames
import LanChat.Hub.OfflineReplay
import LanChat.Hub.CryptoEnvelopes
import LanChat.Gui.WindowSteps
import LanChat.Gui.StaleLoss
import LanChat.Gui.HistoryLoading
import LanChat.Gui.ConversationModels
import LanChat.Gui.RowIntegrity
import LanChat.Gui.AttachmentSetups
import LanChat.Gui.TendedSetups
import LanChat.Gui.SetupRuns
import LanChat.Lib.Paging
import LanChat.Store.HistoryPages
import LanChat.Store.StrictProposals
import LanChat.Store.AttachmentDisk
import LanChat.Store.AttachmentCommit
import LanChat.Lib.Rfc3339
import LanChat.Store.AttachmentExpiry
import LanChat.Store.ConcurrentLogins
import LanChat.Gui.TransferState
import LanChat.Gui.UploadWindow
import LanChat.Gui.LanDiscovery
import LanChat.Gui.StreamEncrypt
import LanChat.Gui.AttachmentManifest
import LanChat.Gui.BridgeCommands
import LanChat.Lib.KeyedRows
import LanChat.Gui.ChatModel
import LanChat.Lib.DirtyCache
import LanChat.Gui.BridgeSnapshots
import LanChat.Gui.ChatView
import LanChat.Gui.HistoryMerge
import LanChat.Gui.PeerConversations
import LanChat.Gui.DownloadFiles
import LanChat.Gui.ManyUploads
import LanChat.Gui.WindowCounts
import LanChat.Gui.WireCommands
import LanChat.Gui.OneUpload
import LanChat.Gui.ModelCache
import LanChat.Gui.MlsOneResult
import LanChat.Gui.ReconnectTimers
import LanChat.Gui.SendCommands
import LanChat.Hub.ForgedFields
import LanChat.Client.Identities
import LanChat.Frontend.RichText
import LanChat.Gui.ChunkContexts
import LanChat.Hub.ConnectionLimits
import LanChat.Gui.Redaction
import LanChat.Hub.RoomGrants
import LanChat.Lib.JsonReader
import LanChat.Client.Codec
import LanChat.Inbound
import LanChat.Relay
import LanChat.Frontend.UploadCards
import LanChat.Lib.Pacer
import LanChat.Hub.AttachmentPacing
