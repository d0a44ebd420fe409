import WebHost.Json.Access
import WebHost.Server.Settings

/-!
# Settings as documents

The limits of a server, its profile of secure connections and its settings as a whole can be shown
as documents, with counts and names in place of what has no text.
-/

set_option autoImplicit false

namespace WebHost

/-- The limits of a run as a document. -/
def Limits.toJson (l : Limits) : Json :=
  .obj [("read_timeout", .ofDuration l.readTimeout),
    ("read_header_timeout", .ofDuration l.readHeaderTimeout),
    ("write_timeout", .ofDuration l.writeTimeout), ("idle_timeout", .ofDuration l.idleTimeout),
    ("max_header_bytes", .ofNat l.maxHeaderBytes)]

/-- Limits from a document. -/
def LimitSettings.ofJson (j : Json) : LimitSettings where
  readTimeout := j.duration "read_timeout"
  readHeaderTimeout := j.duration "read_header_timeout"
  writeTimeout := j.duration "write_timeout"
  idleTimeout := j.duration "idle_timeout"
  shutdownTimeout := j.duration "shutdown_timeout"
  maxHeaderBytes := j.nat "max_header_bytes"

/-- The configured limits as those of a run, without any default. -/
def LimitSettings.plain (s : LimitSettings) : Limits where
  readTimeout := s.readTimeout
  readHeaderTimeout := s.readHeaderTimeout
  writeTimeout := s.writeTimeout
  idleTimeout := s.idleTimeout
  maxHeaderBytes := s.maxHeaderBytes

/-- The configured limits as a document. -/
def LimitSettings.toJson (s : LimitSettings) : Json :=
  s.plain.toJson.plus [("shutdown_timeout", .ofDuration s.shutdownTimeout)]

/-- A profile of secure connections as a document. -/
def TlsProfile.toJson (p : TlsProfile) : Json :=
  .obj [("has_certificates", .bool p.hasCertificates),
    ("certificates", .ofNat p.certificates.length), ("resolver", .bool p.supply.isSome),
    ("client_cas", .ofNat p.clientRoots.length), ("client_auth", .str p.clientAuth.report),
    ("insecure_skip_verify", .bool p.skipVerify), ("min_version", .str p.minVersion.report),
    ("cipher_suites", .ofNat p.suites.length), ("kx_groups", .ofNat p.groups.length),
    ("alpn", .arr (p.protocols.map .ofBytes))]

/-- Settings as a document. -/
def Settings.toJson (s : Settings) : Json :=
  .obj [("name", .str s.name), ("addr", .str s.address), ("config", s.limits.toJson),
    ("handler", .bool s.handler.isSome), ("logger", .bool s.logger.isSome),
    ("error_logger", .bool s.errorSink.isSome), ("conn_state", .bool s.hook.isSome),
    ("base_extensions", .bool s.extensions.isSome),
    ("middleware", .ofTexts (s.middleware.map (·.name))), ("mux", .ofNat s.mux.size),
    ("mux_empty", .bool (s.mux.size = 0)), ("use_tls", .bool s.usesTls),
    ("tls", .ofOption TlsProfile.toJson s.tls)]

end WebHost
