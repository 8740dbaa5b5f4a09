/-
Reading a profile file.

A line is blank or a comment, a section header in brackets, or a key and a value around the first equals sign; anything
else is malformed. Section names and keys are matched without regard to ASCII case. A known key in a known section sets
its field or extends its list; other keys and other sections are skipped, but a pair before any section is malformed.
-/
import EdgeTunnel.Directory
import EdgeTunnel.Profile.Basic

namespace EdgeTunnel.Profile

/-- the section a line stands in -/
inductive Place where
  | outside
  | interface
  | peer
  | other
  deriving DecidableEq, Repr

inductive Line where
  | skipped
  | header (place : Place)
  | pair (key value : List Char)
  | malformed
  deriving DecidableEq

/-- the section a header names -/
def Place.ofName (name : List Char) : Place :=
  let n := Text.lower (Text.trim name)
  if n = "interface".toList then .interface else if n = "peer".toList then .peer else .other

def bracketed? : List Char → Option (List Char)
  | '[' :: r =>
    match r.reverse with
    | ']' :: name => some name.reverse
    | _ => none
  | _ => none

/-- what a raw line is -/
def Line.of (raw : List Char) : Line :=
  let s := Text.trim raw
  match s with
  | [] => .skipped
  | '#' :: _ => .skipped
  | ';' :: _ => .skipped
  | _ =>
    match bracketed? s with
    | some name => .header (.ofName name)
    | none =>
      match Text.splitAt? '=' s with
      | some (key, value) => .pair (Text.trim key) (Text.trim value)
      | none => .malformed

/-- the non-empty items of a comma-separated list, trimmed -/
def items (value : List Char) : List (List Char) := ((Text.pieces ',' value).map Text.trim).filter fun i => !i.isEmpty

/-- the prefixes of a list; the first bad item is the error -/
def cidrs (line : Nat) (value : List Char) : Except ProfileError (List Cidr) :=
  (items value).mapM fun i =>
    match Cidr.parse i with
    | .ok p => .ok p
    | .error _ => .error (.value line (String.ofList i))

/-- a device address: an address or a prefix, of which the address is kept with its host bits -/
def deviceAddress? (item : List Char) : Option Ip :=
  match Cidr.parse item with
  | .error _ => none
  | .ok _ =>
    match Text.splitAt? '/' item with
    | some (host, _) => Ip.parse (Text.trim host)
    | none => Ip.parse (Text.trim item)

/-- the device addresses of a list; the first bad item is the error -/
def deviceAddresses (line : Nat) (value : List Char) : Except ProfileError (List Ip) :=
  (items value).mapM fun i =>
    match deviceAddress? i with
    | some a => .ok a
    | none => .error (.value line (String.ofList i))

def number (line most : Nat) (value : List Char) : Except ProfileError Nat :=
  match Text.readUnsigned most value with
  | some n => .ok n
  | none => .error (.value line (String.ofList value))

/-- the interface section after a pair -/
def setInterface (s : InterfaceSection) (line : Nat) (key value : List Char) : Except ProfileError InterfaceSection :=
  match String.ofList (Text.lower key) with
  | "privatekey" => .ok { s with privateKey := String.ofList value }
  | "address" => do
    let as ← deviceAddresses line value
    return { s with addresses := s.addresses ++ as }
  | "dns" => .ok { s with dns := s.dns ++ (items value).filterMap Ip.parse }
  | "mtu" => do
    let n ← number line (2 ^ 64 - 1) value
    return { s with mtu := some n }
  | _ => .ok s

/-- the peer section after a pair -/
def setPeer (s : PeerSection) (line : Nat) (key value : List Char) : Except ProfileError PeerSection :=
  match String.ofList (Text.lower key) with
  | "publickey" => .ok { s with publicKey := String.ofList value }
  | "presharedkey" => .ok { s with presharedKey := some (String.ofList value) }
  | "allowedips" => do
    let ps ← cidrs line value
    return { s with allowed := s.allowed ++ ps }
  | "endpoint" => .ok { s with endpoint := some (String.ofList value) }
  | "persistentkeepalive" => do
    let n ← number line 65535 value
    return { s with keepalive := some n }
  | _ => .ok s

/-- the section and the profile after a line -/
def step (place : Place) (p : Profile) (line : Nat) : Line → Except ProfileError (Place × Profile)
  | .skipped => .ok (place, p)
  | .header next => .ok (next, p)
  | .malformed => .error (.malformed line)
  | .pair key value =>
    match place with
    | .outside => .error (.malformed line)
    | .other => .ok (place, p)
    | .interface => do
      let s ← setInterface p.interface line key value
      return (place, { p with interface := s })
    | .peer => do
      let s ← setPeer p.peer line key value
      return (place, { p with peer := s })

/-- the profile after all lines, numbered from `line` on -/
def readLines (place : Place) (p : Profile) (line : Nat) : List (List Char) → Except ProfileError Profile
  | [] => .ok p
  | raw :: rest => do
    let (place, p) ← step place p line (Line.of raw)
    readLines place p (line + 1) rest

/-- a profile with its two required keys -/
def complete (p : Profile) : Except ProfileError Profile :=
  if p.interface.privateKey.isEmpty then .error (.missing "Interface.PrivateKey")
  else if p.peer.publicKey.isEmpty then .error (.missing "Peer.PublicKey")
  else .ok p

def parse (text : String) : Except ProfileError Profile := do
  complete (← readLines .outside {} 1 (Text.lines text.toList))

def load (files : Files) (path : FilePath) : Except ProfileError Profile :=
  match files.read path with
  | .ok text => parse text
  | .error e => .error (.read path e)

end EdgeTunnel.Profile
