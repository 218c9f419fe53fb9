import TokenKeeper.Main
import TokenKeeper.Health
import TokenKeeper.Http.Served
import TokenKeeper.Daemon.RunGroup
import TokenKeeper.Daemon.ProcessWatch
import TokenKeeper.Proofs.Refresh.Continuity
import TokenKeeper.Proofs.Refresh.Admission
import TokenKeeper.Proofs.Proxy.Confinement
import TokenKeeper.Proofs.Files.Access
import TokenKeeper.Proofs.Files.Publish
import TokenKeeper.Proofs.Settings.StagingPath
import TokenKeeper.Proofs.Refresh.Cadence
import TokenKeeper.Proofs.Http.Header
import TokenKeeper.Proofs.Http.Silence
import TokenKeeper.Proofs.Url.Front
import TokenKeeper.Proofs.Proxy.Authorization
import TokenKeeper.Proofs.Files.Rename
import TokenKeeper.Proofs.Refresh.Cancellation
import TokenKeeper.Proofs.Refresh.Delivery
import TokenKeeper.Proofs.Url.Punycode
import TokenKeeper.Proofs.Url.DomainName
import TokenKeeper.Proofs.Net.Ip
import TokenKeeper.Proofs.Url.HostText
import TokenKeeper.Proofs.Url.Origin
import TokenKeeper.Proofs.Proxy.OwnFields
import TokenKeeper.Proofs.Text.Form
import TokenKeeper.Proofs.Issuer.Request
import TokenKeeper.Proofs.Json.Reader
import TokenKeeper.Proofs.Token.FormPairs
import TokenKeeper.Proofs.Token.Formats
import TokenKeeper.Proofs.Refresh.Recording
import TokenKeeper.Proofs.Refresh.ExpiryGauge
import TokenKeeper.Proofs.Refresh.Accounting
import TokenKeeper.Proofs.Token.Channel
import TokenKeeper.Proofs.Daemon.RunGroup
import TokenKeeper.Proofs.Daemon.Startup
import TokenKeeper.Proofs.Settings.Validation
import TokenKeeper.Proofs.Files.Sequence
import TokenKeeper.Proofs.Settings.GrantShape
import TokenKeeper.Proofs.Token.Expiry
import TokenKeeper.Proofs.Http.HopFields
import TokenKeeper.Proofs.Proxy.Fields
import TokenKeeper.Proofs.Time.SpanText
import TokenKeeper.Proofs.Issuer.Acceptance
import TokenKeeper.Proofs.Time.Words
import TokenKeeper.Proofs.Proxy.Accounting
import TokenKeeper.Proofs.Refresh.Window
import TokenKeeper.Proofs.Url.PathLaws
import TokenKeeper.Proofs.Settings.Scopes
import TokenKeeper.Proofs.Proxy.Query
import TokenKeeper.Proofs.Proxy.ClientChain
