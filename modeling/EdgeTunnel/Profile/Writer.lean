/-
Writing profiles.

An identity is all that a profile says, with its keys as bytes. The interface section comes first, then the peer section
after a blank line. A value that is absent has no line, and a list without items has one or none, as asked. Keys are written
in base64 and lists with commas between their items.
-/
import EdgeTunnel.Profile.Basic
import EdgeTunnel.Text.Blank

namespace EdgeTunnel

/-- an address of the device with its host bits, and the length that is written after it -/
structure DeviceAddress where
  ip : Ip
  len : Option Nat
  len_le : ∀ n ∈ len, n ≤ ip.family.width

/-- an address of the device, with its length when it has one -/
def DeviceAddress.text (a : DeviceAddress) : List Char :=
  match a.len with
  | none => a.ip.text
  | some n => a.ip.text ++ '/' :: Text.decimal n

/-- a text that can be the value of a line -/
structure ValueText where
  chars : List Char
  oneLine : '\n' ∉ chars
  trimmed : Text.Trimmed chars

/-- what a profile says -/
structure Identity where
  own : PrivateKey
  peer : PublicKey
  psk : Option PresharedKey
  addresses : List DeviceAddress
  dns : List Ip
  mtu : Option UInt64
  allowed : List Cidr
  endpoint : Option ValueText
  keepalive : Option UInt16

namespace Identity

/-- a line with a key and its value -/
def entry (key : String) (value : List Char) : List Char := key.toList ++ ' ' :: '=' :: ' ' :: value

/-- a line for a value, if there is one -/
def optionalEntry (key : String) (value : Option (List Char)) : List (List Char) := (value.map (entry key)).toList

def joined (items : List (List Char)) : List Char := List.intercalate [',', ' '] items

/-- a line for a list; an empty one may be left out -/
def entries (omitEmpty : Bool) (key : String) (items : List (List Char)) : List (List Char) :=
  if omitEmpty && items.isEmpty then [] else [entry key (joined items)]

section
variable (omitEmpty : Bool) (i : Identity)

def interfaceLines : List (List Char) :=
  entry "PrivateKey" i.own.key.text :: (entries omitEmpty "Address" (i.addresses.map (·.text)) ++
    (entries omitEmpty "DNS" (i.dns.map (·.text)) ++ optionalEntry "MTU" (i.mtu.map fun n => Text.decimal n.toNat)))

def peerLines : List (List Char) :=
  entry "PublicKey" i.peer.key.text :: (optionalEntry "PresharedKey" (i.psk.map (·.key.text)) ++
    (entries omitEmpty "AllowedIPs" (i.allowed.map (·.text)) ++ (optionalEntry "Endpoint" (i.endpoint.map (·.chars)) ++
      optionalEntry "PersistentKeepalive" (i.keepalive.map fun n => Text.decimal n.toNat))))

def lines : List (List Char) :=
  "[Interface]".toList :: (i.interfaceLines omitEmpty ++ ([] :: "[Peer]".toList :: i.peerLines omitEmpty))

def write : String := String.ofList (Text.terminated (i.lines omitEmpty))

end

/-- the profile of an identity: its keys as text, its addresses without their lengths -/
def profile (i : Identity) : Profile where
  interface := {
    privateKey := String.ofList i.own.key.text
    addresses := i.addresses.map (·.ip)
    dns := i.dns
    mtu := i.mtu.map UInt64.toNat }
  peer := {
    publicKey := String.ofList i.peer.key.text
    presharedKey := i.psk.map fun k => String.ofList k.key.text
    allowed := i.allowed
    endpoint := i.endpoint.map fun t => String.ofList t.chars
    keepalive := i.keepalive.map UInt16.toNat }

end Identity

end EdgeTunnel
