/-
Reading a SOCKS request.

A client greets with the methods it knows, of which the one without authentication has to be among, and asks for a
connection to an address or a name. Every part is read to its exact length, so it does not matter in which pieces the bytes
come, and nothing of what follows is taken.
-/
import EdgeTunnel.Net.Ip
import EdgeTunnel.Proxy.Request

namespace EdgeTunnel.Proxy.Socks

def version : UInt8 := 5

def noAuthentication : UInt8 := 0

/-- the answer that no offered method is known -/
def noMethod : List UInt8 := [5, 0xff]

/-- the answer that the method without authentication is taken -/
def methodTaken : List UInt8 := [5, 0]

def connectCommand : UInt8 := 1

/-- so many bytes, and the rest, when there are so many -/
def takeExact (n : Nat) (s : List UInt8) : Option (List UInt8 × List UInt8) :=
  if n ≤ s.length then some (s.take n, s.drop n) else none

/-- a reading that ends with an error -/
def fails (replies : List UInt8) (e : ProxyError) (rest : List UInt8) : Reading := ⟨replies, .error e, rest⟩

/-- a reading of a stream that ends before the part is complete: what there was of it is read -/
def cut (replies : List UInt8) : Reading := fails replies .endOfStream []

def readPort (replies : List UInt8) (host : List Char) : List UInt8 → Reading
  | a :: b :: rest =>
    let port := a.toNat * 256 + b.toNat
    ⟨replies, .ok ⟨.socks, String.ofList (host ++ ':' :: Text.decimal port), []⟩, rest⟩
  | _ => cut replies

/-- the host and the port of a request for a kind of address -/
def readAddress (replies : List UInt8) (kind : UInt8) (s : List UInt8) : Reading :=
  if kind = 1 then
    match takeExact 4 s with
    | none => cut replies
    | some (bs, rest) => readPort replies (Ip.ofNat .v4 (Ip.ofFields 8 (bs.map (·.toNat)))).text rest
  else if kind = 3 then
    match s with
    | [] => cut replies
    | n :: s =>
      match takeExact n.toNat s with
      | none => cut replies
      | some (bs, rest) =>
        match String.fromUTF8? ⟨bs.toArray⟩ with
        | some name => readPort replies name.toList rest
        | none => fails replies .invalidAddress rest
  else if kind = 4 then
    match takeExact 16 s with
    | none => cut replies
    | some (bs, rest) =>
      readPort replies ('[' :: (Ip.ofNat .v6 (Ip.ofFields 8 (bs.map (·.toNat)))).text ++ [']']) rest
  else fails (replies ++ socksReply 8) .invalidAddress s

/-- the command of a request, and what follows -/
def readCommand (replies : List UInt8) : List UInt8 → Reading
  | v :: command :: _ :: kind :: rest =>
    if v ≠ version then fails replies .invalidVersion rest
    else if command ≠ connectCommand then fails (replies ++ socksReply 7) .unsupportedCommand rest
    else readAddress replies kind rest
  | _ => cut replies

def read : List UInt8 → Reading
  | v :: n :: s =>
    if v ≠ version then fails [] .invalidVersion s
    else
      match takeExact n.toNat s with
      | none => cut []
      | some (methods, rest) =>
        if methods.contains noAuthentication then readCommand methodTaken rest
        else fails noMethod .authNotSupported rest
  | _ => cut []

end EdgeTunnel.Proxy.Socks
