import TetherDisplay.Foundations.LittleEndian
import TetherDisplay.Foundations.Framing
import TetherDisplay.Protocol.Cursor
import TetherDisplay.Protocol.Codec
import TetherDisplay.Protocol.FrameParser
import TetherDisplay.Client.Conformance
import TetherDisplay.Foundations.Runs
import TetherDisplay.Client.VideoSession
import TetherDisplay.Crypto.Sodium
import TetherDisplay.Crypto.Agreement
import TetherDisplay.Core.ByteChannel
import TetherDisplay.Crypto.RecordFraming
import TetherDisplay.Crypto.SecureByteChannel
import TetherDisplay.Crypto.Tampering
import TetherDisplay.Crypto.FirstUse
import TetherDisplay.Crypto.Reflection
import TetherDisplay.Crypto.Delivery
import TetherDisplay.Client.SecureTransport
import TetherDisplay.Client.RecordDelivery
import TetherDisplay.Foundations.LockedSender
import TetherDisplay.Encode.Encoder
import TetherDisplay.Core.ControlPlane
import TetherDisplay.Core.StreamingSession
import TetherDisplay.Core.SessionRuns
import TetherDisplay.Core.Keyframes
import TetherDisplay.Core.Shutdown
import TetherDisplay.Core.Refusal
import TetherDisplay.Crypto.RecordLink
import TetherDisplay.Core.Outbound
import TetherDisplay.Core.Inbound
import TetherDisplay.Core.VersionMismatch
import TetherDisplay.Core.Format
import TetherDisplay.Crypto.Completion
import TetherDisplay.Crypto.FailedPairing
import TetherDisplay.Crypto.Reestablish
import TetherDisplay.Client.Pairing
import TetherDisplay.Client.Pinning
import TetherDisplay.Core.BitrateController
import TetherDisplay.Core.Config
import TetherDisplay.Encode.RateControl
import TetherDisplay.Ui.StreamConfig
import TetherDisplay.Foundations.Search
import TetherDisplay.Usbmux.Protocol
import TetherDisplay.Usbmux.Messages
import TetherDisplay.Usbmux.Plist
import TetherDisplay.Usbmux.Socket
import TetherDisplay.Usbmux.Client
import TetherDisplay.Ui.TrayApp
import TetherDisplay.Foundations.Dialogue
import TetherDisplay.Client.HandshakeFrames
import TetherDisplay.Client.HonestPairing
import TetherDisplay.Foundations.Selection
import TetherDisplay.Vdisplay.ModeSelect
import TetherDisplay.Foundations.CheckedAccess
import TetherDisplay.Protocol.ParserMemory
import TetherDisplay.Crypto.FileIdentityStore
import TetherDisplay.Client.AnnexB
import TetherDisplay.Client.HEVCDecoder
import TetherDisplay.Foundations.Custody
import TetherDisplay.Vdisplay.ParsecVdd
import TetherDisplay.Vdisplay.Placement
import TetherDisplay.Vdisplay.Ownership
import TetherDisplay.Foundations.Ledger
import TetherDisplay.Encode.NvencEncoder
import TetherDisplay.Streaming.Records
import TetherDisplay.Streaming.Tether
import TetherDisplay.Streaming.Invariant
import TetherDisplay.Streaming.EndToEnd
import TetherDisplay.Streaming.HostEncoder
import TetherDisplay.Capture.AdapterSelect
import TetherDisplay.Capture.CaptureSource
import TetherDisplay.Capture.WgcCapture
import TetherDisplay.Capture.WgcCaptureRuns
import TetherDisplay.Core.Quiescence
import TetherDisplay.Ui.HostProgram
import TetherDisplay.Core.ReceiveMemory
import TetherDisplay.Client.ReceiveMemory
import TetherDisplay.Client.FramingError
import TetherDisplay.Client.KeychainIdentity
import TetherDisplay.Client.Encounter
import TetherDisplay.Crypto.CredentialStore
import TetherDisplay.Streaming.Restarts
import TetherDisplay.Client.DecoderSessions
import TetherDisplay.Client.MetalRenderer
import TetherDisplay.Capture.CrossAdapter
import TetherDisplay.Streaming.Pictures
