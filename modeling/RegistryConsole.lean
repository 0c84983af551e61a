import RegistryConsole.Base64
import RegistryConsole.Bytes
import RegistryConsole.Client.Basic
import RegistryConsole.Client.Download
import RegistryConsole.Client.Fault
import RegistryConsole.Console.Basic
import RegistryConsole.Console.Connection
import RegistryConsole.Console.Listener
import RegistryConsole.Console.Pages
import RegistryConsole.Console.Site
import RegistryConsole.Console.Startup
import RegistryConsole.Decimal.Binary64
import RegistryConsole.Decimal.Shortest
import RegistryConsole.FileStore
import RegistryConsole.Gateway.Basic
import RegistryConsole.Gateway.Body
import RegistryConsole.Gateway.Forward
import RegistryConsole.Gateway.Headers
import RegistryConsole.Http.Agent
import RegistryConsole.Http.Date
import RegistryConsole.Http.Header
import RegistryConsole.Http.Message
import RegistryConsole.Http.Method
import RegistryConsole.Http.Network
import RegistryConsole.Http.Range
import RegistryConsole.Http.Status
import RegistryConsole.Http.Target
import RegistryConsole.Http.Wire
import RegistryConsole.Json.Basic
import RegistryConsole.Json.Codec
import RegistryConsole.Json.Cursor
import RegistryConsole.Json.Fault
import RegistryConsole.Json.Members
import RegistryConsole.Json.Number
import RegistryConsole.Json.Reader
import RegistryConsole.Json.Record
import RegistryConsole.Json.Skip
import RegistryConsole.Json.StringReader
import RegistryConsole.Json.Table
import RegistryConsole.Json.Writer
import RegistryConsole.Key.Asn1
import RegistryConsole.Key.KeyFile
import RegistryConsole.Key.Pem
import RegistryConsole.Key.Rsa
import RegistryConsole.Key.Sha256
import RegistryConsole.Log.Event
import RegistryConsole.Log.Filter
import RegistryConsole.Log.Setup
import RegistryConsole.Main
import RegistryConsole.Proofs.Answers
import RegistryConsole.Proofs.Arrivals
import RegistryConsole.Proofs.AuditQueries
import RegistryConsole.Proofs.Base64
import RegistryConsole.Proofs.Binary64
import RegistryConsole.Proofs.Bodies
import RegistryConsole.Proofs.Calls
import RegistryConsole.Proofs.Codings
import RegistryConsole.Proofs.Credential
import RegistryConsole.Proofs.Deliveries
import RegistryConsole.Proofs.Downloads
import RegistryConsole.Proofs.ErrorExits
import RegistryConsole.Proofs.EventRequests
import RegistryConsole.Proofs.Exposure
import RegistryConsole.Proofs.Faults
import RegistryConsole.Proofs.Forwarding
import RegistryConsole.Proofs.Headers
import RegistryConsole.Proofs.HttpAnswers
import RegistryConsole.Proofs.Indifference
import RegistryConsole.Proofs.Json.Decimals
import RegistryConsole.Proofs.Json.Documents
import RegistryConsole.Proofs.Json.Integers
import RegistryConsole.Proofs.Json.Literals
import RegistryConsole.Proofs.Json.Loops
import RegistryConsole.Proofs.Json.Numerals
import RegistryConsole.Proofs.Json.Pretty
import RegistryConsole.Proofs.Json.Reads
import RegistryConsole.Proofs.Json.Records
import RegistryConsole.Proofs.Json.RoundTrip
import RegistryConsole.Proofs.Json.Scalars
import RegistryConsole.Proofs.Json.Skipping
import RegistryConsole.Proofs.Json.Sorted
import RegistryConsole.Proofs.Json.Texts
import RegistryConsole.Proofs.Json.Variants
import RegistryConsole.Proofs.Json.Writable
import RegistryConsole.Proofs.KeyText
import RegistryConsole.Proofs.LastAnswers
import RegistryConsole.Proofs.Layers
import RegistryConsole.Proofs.Messages
import RegistryConsole.Proofs.Objects
import RegistryConsole.Proofs.Operations
import RegistryConsole.Proofs.Pages
import RegistryConsole.Proofs.Records
import RegistryConsole.Proofs.Redirects
import RegistryConsole.Proofs.Refusals
import RegistryConsole.Proofs.Relays
import RegistryConsole.Proofs.Requests
import RegistryConsole.Proofs.Routes
import RegistryConsole.Proofs.Rsa
import RegistryConsole.Proofs.Runs
import RegistryConsole.Proofs.SentNumbers
import RegistryConsole.Proofs.Signing
import RegistryConsole.Proofs.Spans
import RegistryConsole.Proofs.Target
import RegistryConsole.Proofs.Token
import RegistryConsole.Proofs.TokenParts
import RegistryConsole.Proofs.Uploads
import RegistryConsole.Proofs.Url.Address
import RegistryConsole.Proofs.Url.Authority
import RegistryConsole.Proofs.Url.Base
import RegistryConsole.Proofs.Url.Form
import RegistryConsole.Proofs.Url.Host
import RegistryConsole.Proofs.Url.Path
import RegistryConsole.Proofs.Url.Server
import RegistryConsole.Proofs.Utf8
import RegistryConsole.Registry.Audit
import RegistryConsole.Registry.Claims
import RegistryConsole.Registry.Event
import RegistryConsole.Registry.Object
import RegistryConsole.Registry.Page
import RegistryConsole.Settings.Load
import RegistryConsole.Settings.Server
import RegistryConsole.Text.Blank
import RegistryConsole.Text.Lead
import RegistryConsole.Text.Printable
import RegistryConsole.Text.Quoted
import RegistryConsole.Text.Utf8
import RegistryConsole.Token
import RegistryConsole.Url.Basic
import RegistryConsole.Url.Escape
import RegistryConsole.Url.Form
import RegistryConsole.Url.Host
import RegistryConsole.Url.Parse
import RegistryConsole.Url.Punycode
