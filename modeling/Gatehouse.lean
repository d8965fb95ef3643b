import Gatehouse.App.Basic
import Gatehouse.App.Build
import Gatehouse.App.Login
import Gatehouse.App.Route
import Gatehouse.App.Router
import Gatehouse.Auth.Claims
import Gatehouse.Auth.Directory
import Gatehouse.Auth.Fault
import Gatehouse.Auth.Gate
import Gatehouse.Auth.Jar
import Gatehouse.Auth.Token
import Gatehouse.Auth.Validator
import Gatehouse.Config
import Gatehouse.Digest.Hmac
import Gatehouse.Digest.Sha256
import Gatehouse.Fault
import Gatehouse.Http.Cookie
import Gatehouse.Http.Headers
import Gatehouse.Http.Message
import Gatehouse.Http.Target
import Gatehouse.Ip
import Gatehouse.Json.Binary64
import Gatehouse.Json.Number
import Gatehouse.Json.Reader
import Gatehouse.Json.Record
import Gatehouse.Json.Value
import Gatehouse.Json.Writer
import Gatehouse.Limit.Endpoint
import Gatehouse.Limit.Key
import Gatehouse.Limit.Limiter
import Gatehouse.Limit.Window
import Gatehouse.Limit.Workspace
import Gatehouse.Metrics
import Gatehouse.OAuth.Client
import Gatehouse.OAuth.Grant
import Gatehouse.OAuth.Provider
import Gatehouse.OAuth.State
import Gatehouse.Page
import Gatehouse.Reply
import Gatehouse.Store.Address
import Gatehouse.Store.Basic
import Gatehouse.Store.Memory
import Gatehouse.Store.Strict
import Gatehouse.Store.Reaper
import Gatehouse.Store.Remote
import Gatehouse.Text.Base64Url
import Gatehouse.Text.Blank
import Gatehouse.Text.Bytes
import Gatehouse.Text.Decimal
import Gatehouse.Text.Form
import Gatehouse.Text.Html
import Gatehouse.Text.Percent
import Gatehouse.Text.Punycode
import Gatehouse.Time
import Gatehouse.Url.Basic
import Gatehouse.Url.Domain
import Gatehouse.Url.Reader
import Gatehouse.Url.Resolve
import Gatehouse.Uuid
import Gatehouse.World
import Gatehouse.Proofs.Assoc
import Gatehouse.Proofs.Layer
import Gatehouse.Proofs.Store.Entries
import Gatehouse.Proofs.Limit.FixedWindow
import Gatehouse.Proofs.Http.SetCookie
import Gatehouse.Proofs.Auth.Jar
import Gatehouse.Proofs.Auth.Require
import Gatehouse.Proofs.App.Callback
import Gatehouse.Proofs.Limit.Workspace
import Gatehouse.Proofs.OAuth.State
import Gatehouse.Proofs.App.Cookies
import Gatehouse.Proofs.Http.Cookie
import Gatehouse.Proofs.App.Browser
import Gatehouse.Proofs.Store.Eviction
import Gatehouse.Proofs.Store.Runs
import Gatehouse.Proofs.Store.Purges
import Gatehouse.Proofs.App.Stages
import Gatehouse.Proofs.Store.Agreement
import Gatehouse.Proofs.Limit.Admission
import Gatehouse.Proofs.Limit.InFlight
import Gatehouse.Proofs.Limit.Turns
import Gatehouse.Proofs.Limit.Fairness
import Gatehouse.Proofs.Limit.Retry
import Gatehouse.Proofs.App.Alike
import Gatehouse.Proofs.App.FailOpen
import Gatehouse.Proofs.App.Attempts
import Gatehouse.Proofs.App.SkipPaths
import Gatehouse.Proofs.Text.Percent
import Gatehouse.Proofs.Text.Utf8
import Gatehouse.Proofs.Text.Form
import Gatehouse.Proofs.Page
import Gatehouse.Proofs.App.DeepLinks
import Gatehouse.Proofs.Checks
import Gatehouse.Proofs.Json.Record
import Gatehouse.Proofs.Auth.Token
import Gatehouse.Proofs.App.SessionCookie
import Gatehouse.Proofs.Config
import Gatehouse.Proofs.App.Built
import Gatehouse.Proofs.Uuid
import Gatehouse.Proofs.Limit.Keys
import Gatehouse.Proofs.App.Workspaces
import Gatehouse.Proofs.App.Landing
import Gatehouse.Proofs.Limit.Stack
import Gatehouse.Proofs.Limit.Overrides
import Gatehouse.Proofs.App.Accounts
import Gatehouse.Proofs.App.SignedIn
import Gatehouse.Proofs.Auth.Neighbours
import Gatehouse.Proofs.App.Consistent
import Gatehouse.Proofs.App.Overflow
import Gatehouse.Proofs.Url
import Gatehouse.Proofs.App.RoundTrip
import Gatehouse.Proofs.Store.Shared
import Gatehouse.Proofs.Limit.Patterns
import Gatehouse.Proofs.App.LocalPaths
import Gatehouse.Proofs.OAuth.Authorization
import Gatehouse.Proofs.Store.Amortized
import Gatehouse.Proofs.Settings
import Gatehouse.Proofs.Outline
import Gatehouse.Proofs.Json.Number
import Gatehouse.Proofs.Json.Tokens
import Gatehouse.Proofs.Json.Values
import Gatehouse.Proofs.OAuth.Exchange
import Gatehouse.Proofs.Auth.Directory
import Gatehouse.Proofs.Auth.ExternalNames
