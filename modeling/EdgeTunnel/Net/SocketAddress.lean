/-
Socket addresses: an IP address with a port, and for IPv6 a scope and flow information.

The text of an IPv6 socket address has the address in brackets and a non-zero scope in decimal after a percent sign. It has
no flow information, so what is read from it has none either.
-/
import EdgeTunnel.Net.Ip

namespace EdgeTunnel

/-- an address, a port, and the scope and the flow information of an IPv6 address -/
structure SocketAddress where
  ip : Ip
  port : UInt16
  scope : UInt32
  flow : UInt32
  scope_v4 : ip.family = .v4 → scope = 0
  flow_v4 : ip.family = .v4 → flow = 0
  deriving DecidableEq

namespace SocketAddress

/-- an address and a port, without scope and flow information -/
def of (ip : Ip) (port : UInt16) : SocketAddress := ⟨ip, port, 0, 0, fun _ => rfl, fun _ => rfl⟩

instance : Inhabited SocketAddress := ⟨of default 0⟩

/-- the same address without flow information -/
def withoutFlow (a : SocketAddress) : SocketAddress := { a with flow := 0, flow_v4 := fun _ => rfl }

/-- IPv4 before IPv6, then by address, then by port -/
def key (a : SocketAddress) : Nat × Nat × Nat := (a.ip.key.1, a.ip.key.2, a.port.toNat)

def text (a : SocketAddress) : List Char :=
  let port := ':' :: Text.decimal a.port.toNat
  match a.ip.family with
  | .v4 => a.ip.text ++ port
  | .v6 =>
    let scope := if a.scope = 0 then [] else '%' :: Text.decimal a.scope.toNat
    '[' :: (a.ip.text ++ scope ++ [']'] ++ port)

instance : ToString SocketAddress := ⟨fun a => String.ofList a.text⟩

/-- a port: digits, leading zeros allowed -/
def portRule : Text.DigitRule := ⟨10, none, true, 65535⟩

/-- a scope: digits, leading zeros allowed -/
def scopeRule : Text.DigitRule := ⟨10, none, true, 4294967295⟩

/-- a colon, a port, and nothing more -/
def readPort : List Char → Option UInt16
  | ':' :: s =>
    match Text.readDigits portRule s with
    | some (n, []) => some (UInt16.ofNat n)
    | _ => none
  | _ => none

/-- a scope after a percent sign, zero without one -/
def readScope : List Char → Option (Nat × List Char)
  | '%' :: s => Text.readDigits scopeRule s
  | s => some (0, s)

def parse (s : List Char) : Option SocketAddress :=
  match Ip.readDotted s with
  | some (n, rest) => (readPort rest).map (of (Ip.ofNat .v4 n))
  | none =>
    match s with
    | '[' :: s => do
      let (n, s) ← Ip.readV6 s
      let (scope, ']' :: s) ← readScope s | none
      let port ← readPort s
      return ⟨Ip.ofNat .v6 n, port, UInt32.ofNat scope, 0, (nomatch ·), fun _ => rfl⟩
    | _ => none

end SocketAddress

end EdgeTunnel
