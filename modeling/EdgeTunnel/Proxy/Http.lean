/-
Reading an HTTP request.

The head of a request ends with the first empty line. It is looked for after every read; a head that has grown past its
limit without one is refused. The first line gives the method and the target: `CONNECT` asks for the target itself, every
other method for the host of an absolute `http` address, and then the bytes of the head are for the destination too.
-/
import EdgeTunnel.Proxy.Request
import EdgeTunnel.Text.Blank

namespace EdgeTunnel.Proxy.Http

/-- the largest head that may be without an end -/
def headLimit : Nat := 8192

/-- the most bytes of one read -/
def readSize : Nat := 1024

/-- the number of bytes up to and with the first empty line -/
def headEnd? : List UInt8 → Option Nat
  | [] => none
  | c :: r =>
    match c :: r with
    | 13 :: 10 :: 13 :: 10 :: _ => some 4
    | _ => (headEnd? r).map (· + 1)

/-- the head and what was read past it, piece by piece; `head` is what has been read so far -/
def readHead (head : List UInt8) : List (List UInt8) → Except ProxyError (List UInt8 × Nat) × List (List UInt8)
  | [] => (.error (.badRequest .closed), [])
  | piece :: rest =>
    let head := head ++ piece
    match headEnd? head with
    | some n => (.ok (head, n), rest)
    | none => if headLimit < head.length then (.error (.badRequest .tooLarge), rest) else readHead head rest

/-- the host of an absolute address: what stands between its scheme and the next slash -/
def authority? (target : List Char) : Option (List Char) :=
  (Text.stripStart? "http://".toList target).map fun r => r.takeWhile (· ≠ '/')

/-- the request that a head asks for; `head` is all that was read, `n` the length of the head in it -/
def ofHead (head : List UInt8) (n : Nat) : Except ProxyError Request :=
  match String.fromUTF8? ⟨(head.take n).toArray⟩ with
  | none => .error (.badRequest .notUtf8)
  | some text =>
    match Text.words ((Text.lines text.toList).headD []) with
    | method :: target :: _ =>
      if Text.upper method = "CONNECT".toList then
        .ok ⟨.httpConnect, String.ofList (withDefaultPort target 443), head.drop n⟩
      else
        match authority? target with
        | none => .error (.badRequest .notProxied)
        | some [] => .error (.badRequest .missingHost)
        | some host => .ok ⟨.httpForward, String.ofList (withDefaultPort host 80), head⟩
    | _ => .error (.badRequest .malformedLine)

/-- reading a request from a client's bytes, which come in these pieces -/
def read (pieces : List (List UInt8)) : Reading :=
  match readHead [] pieces with
  | (.error e, rest) => ⟨[], .error e, rest.flatten⟩
  | (.ok (head, n), rest) => ⟨[], ofHead head n, rest.flatten⟩

end EdgeTunnel.Proxy.Http
