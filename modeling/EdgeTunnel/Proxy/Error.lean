/-
Why a proxied connection ends early, or a proxy front does not start.
-/
import EdgeTunnel.Net.OsError
import EdgeTunnel.Net.SocketAddress
import EdgeTunnel.Span

namespace EdgeTunnel.Proxy

/-- what is wrong with an HTTP request -/
inductive BadHead where
  | closed
  | tooLarge
  | notUtf8
  | malformedLine
  | notProxied
  | missingHost
  deriving DecidableEq, Repr

def BadHead.message : BadHead → String
  | .closed => "connection closed in request head"
  | .tooLarge => "request head too large"
  | .notUtf8 => "non-UTF-8 head"
  | .malformedLine => "malformed request line"
  | .notProxied => "only CONNECT and absolute http:// requests are proxied"
  | .missingHost => "missing host"

inductive ProxyError where
  | bind (address : SocketAddress) (cause : OsError)
  | invalidVersion
  | authNotSupported
  | unsupportedCommand
  | invalidAddress
  | badRequest (what : BadHead)
  | connectionFailed (destination reason : String)
  | shortWrite
  | idle (limit : Span)
  | endOfStream
  | io (cause : OsError)
  deriving DecidableEq

namespace ProxyError

def message : ProxyError → String
  | .bind a e => s!"Failed to bind {a}: {e.message}"
  | .invalidVersion => "Invalid SOCKS version"
  | .authNotSupported => "Authentication not supported"
  | .unsupportedCommand => "Unsupported command"
  | .invalidAddress => "Invalid address"
  | .badRequest what => s!"Bad HTTP request: {what.message}"
  | .connectionFailed d r => s!"Connection to {d} failed: {r}"
  | .shortWrite => "Short write"
  | .idle limit => s!"Idle for {limit.text}"
  | .endOfStream => "IO error: early eof"
  | .io e => s!"IO error: {e.message}"

def chain (e : ProxyError) : List String :=
  e.message :: (match e with
    | .endOfStream => ["early eof"]
    | .io c => [c.message]
    | _ => [])

end ProxyError

end EdgeTunnel.Proxy
