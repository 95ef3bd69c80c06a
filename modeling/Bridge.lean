import Bridge.Library.Counter
import Bridge.Library.Aead
import Bridge.Library.Ccm
import Bridge.Library.Pieces
import Bridge.Library.Runs
import Bridge.Cifra.Aes
import Bridge.Messages.Handshake
import Bridge.Messages.Commands
import Bridge.Ble.Framing
import Bridge.Ble.RoundTrip
import Bridge.Connection.Encryption
import Bridge.Connection.Table
import Bridge.Connection.Channel
import Bridge.Connection.Nonces
import Bridge.Connection.Slots
import Bridge.Connection.Release
import Bridge.Connection.Handshake
import Bridge.Connection.Frame
import Bridge.Connection.PairingClient
import Bridge.Connection.Forgery
import Bridge.Guest.Session
import Bridge.Guest.Run
import Bridge.Guest.Steps
import Bridge.WifiService.RecvData
import Bridge.WifiService.Pairing
import Bridge.Guest.Order
import Bridge.Guest.Truth
import Bridge.Guest.Isolation
import Bridge.WifiService.Fsm
import Bridge.WifiService.Server
import Bridge.WifiService.Authentic
import Bridge.WifiService.Framing
import Bridge.Cbor.Parser
import Bridge.Cbor.Cursor
import Bridge.Cbor.Encoder
import Bridge.Cbor.Stream
import Bridge.Messages.Format
import Bridge.Messages.Formats
import Bridge.Messages.Reading
import Bridge.Messages.Opening
import Bridge.Messages.Lawful
import Bridge.Messages.Wire
import Bridge.Messages.RoundTrip
import Bridge.Messages.Kinds
import Bridge.Messages.Exact
import Bridge.Connection.PairingConnection
import Bridge.WifiService.Handshake
import Bridge.WifiService.Agreement
import Bridge.WifiService.Lockstep
import Bridge.Ble.Pairing
import Bridge.Ble.PairingTruth
import Bridge.WifiService.Order
import Bridge.WifiService.Delivery
import Bridge.WifiService.Serving
import Bridge.WifiService.Recovery
import Bridge.BridgeMain.MsgId
import Bridge.BridgeMain.TaskQueue
import Bridge.Guest.Bounds
import Bridge.WifiService.Reply
import Bridge.BridgeMain.MainLoop
import Bridge.BridgeMain.DealCmd
import Bridge.BridgeMain.LockRecords
import Bridge.BridgeMain.LockPipeline
import Bridge.Library.Shell
import Bridge.WifiService.SetWifi
import Bridge.WifiService.WifiCommand
import Bridge.WifiService.SetWifiChannel
import Bridge.WifiService.Directions
import Bridge.WifiService.Seeds
import Bridge.Messages.Indexed
import Bridge.WifiService.Serializer
import Bridge.Cbor.Advance
import Bridge.Messages.Trailing
import Bridge.WifiService.MessageTable
import Bridge.Guest.Completion
import Bridge.Ble.Reassembly
import Bridge.WifiService.Receiver
import Bridge.Library.Tracing
import Bridge.Connection.Accesses
import Bridge.Connection.Limits
import Bridge.Messages.Typed
import Bridge.WifiService.Step4
import Bridge.WifiService.Provenance
import Bridge.WifiService.Crypt
import Bridge.Guest.PinCommands
import Bridge.WifiService.FsmMemory
import Bridge.Library.Transitions
import Bridge.BridgeMain.FsmDriver
import Bridge.BridgeMain.LockReport
import Bridge.Ble.Discovery
import Bridge.BridgeMain.AddressBook
import Bridge.Library.Memory
import Bridge.BridgeMain.BleData
import Bridge.BridgeMain.PairingDelivery
import Bridge.Library.Protobuf
import Bridge.BridgeMain.Activities
import Bridge.WifiService.ServerThread
import Bridge.WifiService.TableIds
import Bridge.BridgeMain.Certificate
import Bridge.Library.Retry
import Bridge.BridgeMain.HexString
import Bridge.Library.NarrowLoop
import Bridge.Library.Stdio
import Bridge.Library.Pattern
import Bridge.BridgeMain.Statistics
import Bridge.BridgeMain.WifiInfo
import Bridge.BridgeMain.Profile
import Bridge.Library.Blockwise
import Bridge.Library.CcmHeader
import Bridge.Library.Window
import Bridge.Library.Digest
import Bridge.Cifra.Blockwise
import Bridge.Cifra.KeyStream
import Bridge.Cifra.Modes
import Bridge.Cifra.Ccm
import Bridge.Cifra.Sha
import Bridge.Cifra.Hmac
import Bridge.Cifra.HmacDrbg
import Bridge.Connection.CifraCcm
import Bridge.WifiService.RandomVector
import Bridge.Messages.Shapes
import Bridge.Messages.Generated
import Bridge.Library.BinaryInverse
import Bridge.Library.CoZ
import Bridge.Library.Convolution
import Bridge.Library.Lucas
import Bridge.MicroEcc.Compression
import Bridge.WifiService.WholePairing
import Bridge.Nanopb.Message
import Bridge.Nanopb.Decode
import Bridge.Nanopb.RoundTrip
