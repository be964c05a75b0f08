import Sqrl.Address
import Sqrl.Audit.Chain
import Sqrl.Audit.Event
import Sqrl.Audit.Trail
import Sqrl.Base64
import Sqrl.Base64.Url
import Sqrl.Bytes
import Sqrl.Calendar
import Sqrl.Crypto.Aes
import Sqrl.Crypto.Ed25519
import Sqrl.Crypto.Gcm
import Sqrl.Crypto.Sha2
import Sqrl.Crypto.Sha256
import Sqrl.Crypto.Sha3
import Sqrl.Crypto.Sha512
import Sqrl.Dictionary
import Sqrl.Entropy
import Sqrl.Flag
import Sqrl.Form
import Sqrl.Json
import Sqrl.Json.Display
import Sqrl.Json.Printer
import Sqrl.Json.Reader
import Sqrl.Json.Token
import Sqrl.Log
import Sqrl.Log.Message
import Sqrl.Log.Setup
import Sqrl.Log.Structured
import Sqrl.Log.Template
import Sqrl.Log.Template.Argument
import Sqrl.Number
import Sqrl.Number.Binary64
import Sqrl.Number.Rounded
import Sqrl.Number.Shortest
import Sqrl.Nut
import Sqrl.Proofs.Action
import Sqrl.Proofs.Audit
import Sqrl.Proofs.Base64
import Sqrl.Proofs.Clock
import Sqrl.Proofs.Effect
import Sqrl.Proofs.Flag
import Sqrl.Proofs.Login
import Sqrl.Proofs.Nut
import Sqrl.Proofs.NutReplay
import Sqrl.Proofs.NutUse
import Sqrl.Proofs.Protocol
import Sqrl.Proofs.Run
import Sqrl.Proofs.Sessions
import Sqrl.Proofs.Signature
import Sqrl.Proofs.Step
import Sqrl.Proofs.Utf8
import Sqrl.Request
import Sqrl.Response
import Sqrl.Server
import Sqrl.Server.Decision
import Sqrl.Server.Endpoints
import Sqrl.Server.Nuts
import Sqrl.Server.Protocol
import Sqrl.Server.Route
import Sqrl.Server.Site
import Sqrl.Server.Start
import Sqrl.Server.Stores
import Sqrl.Server.Target
import Sqrl.Settings
import Sqrl.Settings.Value
import Sqrl.Signature
import Sqrl.Store.Accounts
import Sqrl.Store.Sessions
import Sqrl.Text.Blank
import Sqrl.Text.Case
import Sqrl.Text.CodePoint
import Sqrl.Text.Printable
import Sqrl.Text.Quoted
import Sqrl.Text.Split
import Sqrl.Text.Utf8
import Sqrl.Url
import Sqrl.Proofs.Accounts
import Sqrl.Proofs.Answer
import Sqrl.Proofs.AccountHistory
import Sqrl.Proofs.Polling
import Sqrl.Proofs.FreshNut
import Sqrl.Proofs.SignedRequest
import Sqrl.Proofs.DisabledLogin
import Sqrl.Proofs.Refusal
import Sqrl.Proofs.KeySpelling
import Sqrl.Proofs.Text
import Sqrl.Proofs.Request
import Sqrl.Proofs.Response
import Sqrl.Proofs.Form
import Sqrl.Proofs.Endpoint
import Sqrl.Proofs.UnlockKeys
import Sqrl.Proofs.AuditLog
import Sqrl.Proofs.AuditChain
import Sqrl.Proofs.AuditTamper
import Sqrl.Proofs.AuditEvent
import Sqrl.Proofs.AuditMirror
import Sqrl.Proofs.SessionStore
import Sqrl.Proofs.NutCodec
import Sqrl.Proofs.AuditVerdict
import Sqrl.Proofs.AuditAppend
import Sqrl.Proofs.AuditHead
import Sqrl.Proofs.Base64Spelling
import Sqrl.Proofs.ClientBlock
import Sqrl.Proofs.Ascii
import Sqrl.Proofs.JsonBlank
import Sqrl.Proofs.AuditReader
import Sqrl.Proofs.ResponseText
import Sqrl.Proofs.AccountStore
import Sqrl.Proofs.Address
import Sqrl.Proofs.Case
import Sqrl.Proofs.JsonCanonical
import Sqrl.Proofs.Origin
import Sqrl.Proofs.Url
import Sqrl.Proofs.NutExpiry
import Sqrl.Proofs.BaseUri
