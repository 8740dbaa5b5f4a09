/-
What a profile file means, all its lines at once.

Each line has a number and stands in the section of the last header before it. The first bad line is the error. If there is
none, a field with one value has the last value of its key in the sections of its name, a list has the items of all of them
in order, and a profile without one of its two required keys is refused.
-/
import EdgeTunnel.Profile.Reader

namespace EdgeTunnel.Profile

open Text

/-! ## Lines -/

/-- is a trimmed text no blank line, no comment and no header? -/
def Plain (t : List Char) : Prop :=
  t ≠ [] ∧ t.head? ≠ some '#' ∧ t.head? ≠ some ';' ∧ ∀ name, t ≠ '[' :: (name ++ [']'])

inductive Line.Form : List Char → Line → Prop
  | blank : Form [] .skipped
  | comment {c : Char} {r : List Char} (mark : c = '#' ∨ c = ';') : Form (c :: r) .skipped
  | header {name : List Char} : Form ('[' :: (name ++ [']'])) (.header (.ofName name))
  | pair {key value : List Char} (plain : Plain (key ++ '=' :: value)) (first : '=' ∉ key) :
      Form (key ++ '=' :: value) (.pair (trim key) (trim value))
  | malformed {t : List Char} (plain : Plain t) (unequal : '=' ∉ t) : Form t .malformed

/-- the section that a header begins -/
def Line.header? : Line → Option Place
  | .header place => some place
  | _ => none

/-- the section that lines end in: that of the last header, and the one they began in without any -/
def Place.after (start : Place) (ls : List Line) : Place := (ls.filterMap Line.header?).getLastD start

/-- a line with its number and the section it stands in -/
structure Placed where
  number : Nat
  place : Place
  line : Line

/-- lines that begin in a section, numbered from `first` on -/
def placed (start : Place) (first : Nat) (ls : List Line) : List Placed :=
  ls.mapIdx fun i l => ⟨first + i, start.after (ls.take i), l⟩

/-! ## Values -/

def prefixOf? (item : List Char) : Option Cidr :=
  match Cidr.parse item with
  | .ok p => some p
  | .error _ => none

/-- the address of an item, with its host bits: all of it, or what is before the slash -/
def hostOf? (item : List Char) : Option Ip := Ip.parse (item.takeWhile (· ≠ '/'))

/-- a value that is no number up to a bound -/
def unreadNumber? (most : Nat) (value : List Char) : Option (List Char) :=
  if (readUnsigned most value).isNone then some value else none

/-- what cannot be read in the value of a key: the first item of a list that is no prefix, or the value of a number -/
def offending? (place : Place) (key : String) (value : List Char) : Option (List Char) :=
  if place = .interface ∧ key = "address" ∨ place = .peer ∧ key = "allowedips" then
    (items value).find? fun item => (prefixOf? item).isNone
  else if place = .interface ∧ key = "mtu" then unreadNumber? (2 ^ 64 - 1) value
  else if place = .peer ∧ key = "persistentkeepalive" then unreadNumber? 65535 value
  else none

namespace Placed

/-- the error of a line, if it is bad -/
def fault? (l : Placed) : Option ProfileError :=
  match l.line with
  | .malformed => some (.malformed l.number)
  | .pair key value =>
    if l.place = .outside then some (.malformed l.number)
    else (offending? l.place (String.ofList (lower key)) value).map fun t => .value l.number (String.ofList t)
  | _ => none

/-- the value of a line that has this key and stands in this section -/
def value? (place : Place) (key : String) (l : Placed) : Option (List Char) :=
  match l.line with
  | .pair k value => if l.place = place ∧ String.ofList (lower k) = key then some value else none
  | _ => none

end Placed

/-- the values of a key in the sections of a name, in order -/
def values (ls : List Placed) (place : Place) (key : String) : List (List Char) := ls.filterMap (·.value? place key)

/-- the items of the values of a key in the sections of a name, in order -/
def listed (ls : List Placed) (place : Place) (key : String) : List (List Char) := (values ls place key).flatMap items

/-- the last value of a key in the sections of a name, and the old one without any -/
def latest {α : Type} (ls : List Placed) (place : Place) (key : String) (read : List Char → α) (old : α) : α :=
  ((values ls place key).map read).getLastD old

/-- an interface section with what lines say on top of it -/
def interfaceWith (s : InterfaceSection) (ls : List Placed) : InterfaceSection where
  privateKey := latest ls .interface "privatekey" String.ofList s.privateKey
  addresses := s.addresses ++ (listed ls .interface "address").filterMap hostOf?
  dns := s.dns ++ (listed ls .interface "dns").filterMap Ip.parse
  mtu := latest ls .interface "mtu" (readUnsigned (2 ^ 64 - 1)) s.mtu

/-- a peer section with what lines say on top of it -/
def peerWith (s : PeerSection) (ls : List Placed) : PeerSection where
  publicKey := latest ls .peer "publickey" String.ofList s.publicKey
  presharedKey := latest ls .peer "presharedkey" (fun v => some (String.ofList v)) s.presharedKey
  allowed := s.allowed ++ (listed ls .peer "allowedips").filterMap prefixOf?
  endpoint := latest ls .peer "endpoint" (fun v => some (String.ofList v)) s.endpoint
  keepalive := latest ls .peer "persistentkeepalive" (readUnsigned 65535) s.keepalive

/-- a profile with what lines say on top of it -/
def profileWith (p : Profile) (ls : List Placed) : Profile := ⟨interfaceWith p.interface ls, peerWith p.peer ls⟩

/-- what a profile file means -/
def meaning (text : String) : Except ProfileError Profile :=
  let ls := placed .outside 1 ((lines text.toList).map Line.of)
  let p := profileWith {} ls
  match ls.findSome? Placed.fault? with
  | some e => .error e
  | none =>
    if p.interface.privateKey = "" then .error (.missing "Interface.PrivateKey")
    else if p.peer.publicKey = "" then .error (.missing "Peer.PublicKey")
    else .ok p

end EdgeTunnel.Profile
