/-
What a client asks a proxy front for.

A request names a destination in one of three dialects. Reading one ends with the request, the bytes read so far that
already belong to the destination, and the client's bytes that have not been read.
-/
import EdgeTunnel.Proxy.Error

namespace EdgeTunnel.Proxy

/-- how a client asked for its destination -/
inductive Dialect where
  | socks
  | httpConnect
  /-- a request in absolute form, forwarded as it is -/
  | httpForward
  deriving DecidableEq, Repr

/-- a request: its dialect, its destination, and the bytes read so far that are for the destination -/
structure Request where
  dialect : Dialect
  destination : String
  pending : List UInt8
  deriving DecidableEq

/-- what reading a request came to: what was answered meanwhile, the outcome, and the client's bytes not read yet -/
structure Reading where
  replies : List UInt8
  outcome : Except ProxyError Request
  rest : List UInt8

/-- the text of an authority with its port, or with this one when it has none -/
def withDefaultPort (authority : List Char) (port : Nat) : List Char :=
  let afterLastColon := authority.reverse.takeWhile (· ≠ ':')
  if authority.contains ':' && !afterLastColon.contains ']' then authority
  else authority ++ ':' :: Text.decimal port

def httpConnected : List UInt8 := "HTTP/1.1 200 Connection established\r\n\r\n".toUTF8.toList

def httpFailed : List UInt8 := "HTTP/1.1 502 Bad Gateway\r\nContent-Length: 0\r\n\r\n".toUTF8.toList

/-- a SOCKS answer with this code, and no address -/
def socksReply (code : UInt8) : List UInt8 := [5, code, 0, 1, 0, 0, 0, 0, 0, 0]

/-- what a client is answered when its destination has been dialed -/
def Dialect.success : Dialect → List UInt8
  | .socks => socksReply 0
  | .httpConnect => httpConnected
  | .httpForward => []

/-- what a client is answered when its destination could not be dialed -/
def Dialect.failure : Dialect → List UInt8
  | .socks => socksReply 5
  | _ => httpFailed

end EdgeTunnel.Proxy
