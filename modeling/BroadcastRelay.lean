import BroadcastRelay.CommandLine.Arguments
import BroadcastRelay.CommandLine.Program
import BroadcastRelay.Credential.Basic
import BroadcastRelay.Credential.DatabaseStore
import BroadcastRelay.Credential.DatabaseUrl
import BroadcastRelay.Credential.MemoryStore
import BroadcastRelay.Credential.Store
import BroadcastRelay.Decimal.Layout
import BroadcastRelay.Decimal.Nearest
import BroadcastRelay.Decimal.Shortest
import BroadcastRelay.Document.Basic
import BroadcastRelay.Document.Decode
import BroadcastRelay.EnvFile.Entries
import BroadcastRelay.EnvFile.Line
import BroadcastRelay.EnvFile.Value
import BroadcastRelay.Gateway.ApiError
import BroadcastRelay.Gateway.Authorization
import BroadcastRelay.Gateway.Dialogue
import BroadcastRelay.Gateway.Handler
import BroadcastRelay.Gateway.Link
import BroadcastRelay.Gateway.Redirect
import BroadcastRelay.Gateway.Relay
import BroadcastRelay.Gateway.Router
import BroadcastRelay.Http.Header
import BroadcastRelay.Http.Message
import BroadcastRelay.Http.Percent
import BroadcastRelay.Http.Query
import BroadcastRelay.Http.Reason
import BroadcastRelay.Http.Uri
import BroadcastRelay.Json.Document
import BroadcastRelay.Json.Number
import BroadcastRelay.Json.Token
import BroadcastRelay.Json.Value
import BroadcastRelay.KeyMap
import BroadcastRelay.Main
import BroadcastRelay.Media.Broadcast
import BroadcastRelay.Media.Codec
import BroadcastRelay.Media.Engine
import BroadcastRelay.Media.Error
import BroadcastRelay.Media.Layer
import BroadcastRelay.Media.PeerState
import BroadcastRelay.Media.Probe
import BroadcastRelay.Media.Registry
import BroadcastRelay.Media.Rewriter
import BroadcastRelay.Media.Sdp
import BroadcastRelay.Media.Session
import BroadcastRelay.Media.Settings
import BroadcastRelay.Media.Status
import BroadcastRelay.Net.Address
import BroadcastRelay.Net.Listen
import BroadcastRelay.Net.Pem
import BroadcastRelay.Net.Url
import BroadcastRelay.Proofs.KeyMap
import BroadcastRelay.SelfTest
import BroadcastRelay.Settings.Basic
import BroadcastRelay.Settings.Check
import BroadcastRelay.Settings.Error
import BroadcastRelay.Settings.FileTree
import BroadcastRelay.Settings.Load
import BroadcastRelay.Settings.Overlay
import BroadcastRelay.Settings.Record
import BroadcastRelay.Settings.Text
import BroadcastRelay.Startup
import BroadcastRelay.StreamKey
import BroadcastRelay.Text.Alphanumeric
import BroadcastRelay.Text.Blank
import BroadcastRelay.Text.Charset
import BroadcastRelay.Text.Duration
import BroadcastRelay.Text.Quoted
import BroadcastRelay.Text.Scan
import BroadcastRelay.Text.Similarity
import BroadcastRelay.Text.Split
import BroadcastRelay.Text.Unprintable
import BroadcastRelay.Text.Utf8
import BroadcastRelay.Text.Whole
import BroadcastRelay.Toml.Document
import BroadcastRelay.Toml.Number
import BroadcastRelay.Toml.Table
import BroadcastRelay.Toml.Text
import BroadcastRelay.Proofs.Registry
import BroadcastRelay.Proofs.Operation
import BroadcastRelay.Proofs.LiveStreams
import BroadcastRelay.Proofs.Interleaving
import BroadcastRelay.Proofs.Orphans
import BroadcastRelay.Proofs.Conversation
import BroadcastRelay.Proofs.Forwarder
import BroadcastRelay.Proofs.Publishing
import BroadcastRelay.Proofs.Ownership
import BroadcastRelay.Proofs.Refusal
import BroadcastRelay.Proofs.Fanout
import BroadcastRelay.Proofs.IdleStreams
import BroadcastRelay.Proofs.Succession
import BroadcastRelay.Proofs.Handover
import BroadcastRelay.Proofs.Selection
import BroadcastRelay.Proofs.Utf8
import BroadcastRelay.Proofs.Links
import BroadcastRelay.Proofs.JsonText
import BroadcastRelay.Proofs.Advertised
import BroadcastRelay.Proofs.Places
import BroadcastRelay.Proofs.Apart
import BroadcastRelay.Proofs.Projection
import BroadcastRelay.Proofs.Locality
import BroadcastRelay.Proofs.Isolation
import BroadcastRelay.Proofs.StatusListing
import BroadcastRelay.Proofs.Claimants
import BroadcastRelay.Proofs.Precedence
import BroadcastRelay.Proofs.SecureListener
import BroadcastRelay.Proofs.Retirement
import BroadcastRelay.Proofs.Changeover
import BroadcastRelay.Proofs.Viewing
import BroadcastRelay.Proofs.KnownStreams
import BroadcastRelay.Proofs.SequenceReuse
import BroadcastRelay.Proofs.BearerGrammar
import BroadcastRelay.Proofs.CrossOrigin
import BroadcastRelay.Proofs.Rewriting
import BroadcastRelay.Proofs.Chunking
import BroadcastRelay.Proofs.CompleteDocuments
import BroadcastRelay.Proofs.RecordReading
import BroadcastRelay.Proofs.LayerSwitch
import BroadcastRelay.Proofs.StoreAgreement
import BroadcastRelay.Proofs.ByteOrder
import BroadcastRelay.Proofs.StoreHistory
import BroadcastRelay.Proofs.Redirection
import BroadcastRelay.Proofs.RecordWriting
import BroadcastRelay.Proofs.FailureTexts
import BroadcastRelay.Proofs.LayerHistory
import BroadcastRelay.Proofs.ListGrammar
