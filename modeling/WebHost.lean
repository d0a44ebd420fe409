import WebHost.Handler.Probe
import WebHost.Main
import WebHost.Middleware.Cors
import WebHost.Proofs.Cli.Precedence
import WebHost.Proofs.Config.ClientVerification
import WebHost.Proofs.Config.Limits
import WebHost.Proofs.Middleware.AccessLog
import WebHost.Proofs.Middleware.BasicAuth
import WebHost.Proofs.Middleware.Redirect
import WebHost.Proofs.Net.Restriction
import WebHost.Proofs.Route.Allowed
import WebHost.Proofs.Route.Specificity
import WebHost.Proofs.Route.Syntax
import WebHost.Proofs.Server.Attendance
import WebHost.Proofs.Server.Drain
import WebHost.View.Rehearsal
import WebHost.View.Settings
import WebHost.Proofs.Middleware.Cors
import WebHost.Proofs.Handler.Scope
import WebHost.Proofs.Middleware.Meter
import WebHost.Proofs.Middleware.Accounting
import WebHost.Proofs.Middleware.Metrics
import WebHost.Proofs.Handler.Deeds
import WebHost.Proofs.Handler.Layer
import WebHost.Proofs.Handler.Notes
import WebHost.Proofs.Handler.Tree
import WebHost.Proofs.Middleware.Layers
import WebHost.Proofs.Middleware.Observation
import WebHost.Proofs.Tls.Sources
import WebHost.Proofs.Tls.Failure
import WebHost.Proofs.Files.Forbidden
import WebHost.Proofs.Files.Validation
import WebHost.Proofs.Server.Restart
import WebHost.Proofs.Config.Order
import WebHost.Proofs.Route.Captures
import WebHost.Proofs.Server.Choice
import WebHost.Proofs.Server.Failures
import WebHost.Proofs.Net.Numerals
import WebHost.Proofs.Route.Bindings
import WebHost.Proofs.Encoding.Offsets
import WebHost.Proofs.Net.Replacement
import WebHost.Proofs.Middleware.LogFields
import WebHost.Proofs.Middleware.LoggedUser
import WebHost.Proofs.Middleware.SecureRedirect
import WebHost.Proofs.Middleware.Settling
import WebHost.Proofs.Middleware.Defaults
import WebHost.Proofs.Middleware.CacheDirectives
import WebHost.Proofs.Server.Reports
import WebHost.Proofs.Server.Waking
