/-
Reading and writing settings.

A section is a record, whose unknown fields are skipped and whose missing fields take their defaults, or a list of its
first fields in order. A field given twice is refused. Settings are written with every field, the absent sections as null.
-/
import EdgeTunnel.Directory
import EdgeTunnel.Document.Json
import EdgeTunnel.Document.Toml.Reader
import EdgeTunnel.Document.Toml.Writer
import EdgeTunnel.Settings.Basic

namespace EdgeTunnel

inductive SettingsFormat where
  | toml
  | json
  deriving DecidableEq, Repr

namespace SettingsFormat

/-- the error of a text that stops inside a part -/
def unfinished (s : String) (inside : Json.Part) : SettingsError :=
  let lines := Text.pieces '\n' s.toList
  .unfinished inside lines.length (String.ofList (lines.getLastD [])).utf8ByteSize

def parse : SettingsFormat → String → Except SettingsError Data
  | .toml, s =>
    match Toml.parse s with
    | some x => .ok x
    | none => .error .malformed
  | .json, s =>
    match Json.parse s with
    | .ok x => .ok x
    | .error (.ended inside) => .error (unfinished s inside)
    | .error .unexpected => .error .malformed

/-- may a list have more items than the section has fields? -/
def allowsExtra : SettingsFormat → Bool
  | .toml => true
  | .json => false

/-- does a value stand for nothing, as the value beside the name of a choice must? -/
def isUnit : SettingsFormat → Data → Bool
  | .toml, .record fs => fs.isEmpty
  | .toml, .list xs => xs.isEmpty
  | .json, .null => true
  | _, _ => false

/-- the format of a file, by its extension -/
def ofPath (path : FilePath) : Except SettingsError SettingsFormat :=
  let ext := (path.extension?.bind fun e => FilePath.text? ⟨e⟩).getD ""
  if ext = "toml" then .ok .toml else if ext = "json" then .ok .json else .error (.unsupportedFormat ext)

end SettingsFormat

namespace Settings

/-- what a section gives for each of its fields -/
def section? (f : SettingsFormat) (names : List String) : Data → Option (String → Option Data)
  | .record fs =>
    if fs.all (·.1.isSome) && names.all (fun n => fs.countP (·.1 == some n) ≤ 1) then
      some fun n => (fs.find? (·.1 == some n)).map (·.2)
    else none
  | .list xs => if f.allowsExtra || xs.length ≤ names.length then some fun n => xs[names.idxOf n]? else none
  | .moment => some fun _ => none
  | _ => none

/-- a field, or its default when it is missing -/
def field {α : Type} (get : String → Option Data) (name : String) (read : Data → Option α) (standard : α) : Option α :=
  match get name with
  | none => some standard
  | some x => read x

def text : Data → Option String
  | .text t => t
  | _ => none

def flag : Data → Option Bool
  | .bool b => some b
  | _ => none

/-- a whole number below `limit` -/
def number (limit : Nat) : Data → Option Nat
  | .integer n => if 0 ≤ n ∧ n < limit then some n.toNat else none
  | _ => none

def number64 (x : Data) : Option UInt64 := (number (2 ^ 64) x).map UInt64.ofNat

def listOf {α : Type} (read : Data → Option α) : Data → Option (List α)
  | .list xs => xs.mapM read
  | _ => none

/-- a value that null stands for the absence of -/
def optional {α : Type} (read : Data → Option α) : Data → Option (Option α)
  | .null => some none
  | x => (read x).map some

def path (x : Data) : Option FilePath := (text x).map .ofString

def address (x : Data) : Option SocketAddress := (text x).bind fun t => SocketAddress.parse t.toList

def modeName : Ipv6Mode → String
  | .auto => "auto"
  | .on => "on"
  | .off => "off"

def modeOfName : String → Option Ipv6Mode
  | "auto" => some .auto
  | "on" => some .on
  | "off" => some .off
  | _ => none

/-- an IPv6 mode: its name, or a record with its name as the only field -/
def mode (f : SettingsFormat) : Data → Option Ipv6Mode
  | .text (some n) => modeOfName n
  | .record [(some n, x)] => if f.isUnit x then modeOfName n else none
  | _ => none

def obfuscationSection (f : SettingsFormat) (x : Data) : Option ObfuscationSettings := do
  let get ← section? f ["region", "program", "args"] x
  let region ← (get "region").bind text
  let standard : ObfuscationSettings := { region }
  let program ← field get "program" text standard.program
  let args ← field get "args" (listOf text) standard.args
  return { region, program, args }

def scanSection (f : SettingsFormat) (x : Data) : Option ScanSettings := do
  let get ← section? f
    ["max_rtt_ms", "deadline_secs", "concurrency", "poll_interval_ms", "ipv4", "ipv6", "decoys", "ports"] x
  let standard : ScanSettings := {}
  return {
    maxRttMs := ← field get "max_rtt_ms" number64 standard.maxRttMs
    deadlineSecs := ← field get "deadline_secs" number64 standard.deadlineSecs
    concurrency := ← field get "concurrency" number64 standard.concurrency
    pollMs := ← field get "poll_interval_ms" number64 standard.pollMs
    ipv4 := ← field get "ipv4" flag standard.ipv4
    ipv6 := ← field get "ipv6" (mode f) standard.ipv6
    decoys := ← field get "decoys" flag standard.decoys
    ports := ← field get "ports" (listOf fun p => (number 65536 p).map UInt16.ofNat) standard.ports }

def profilesSection (f : SettingsFormat) (x : Data) : Option ProfilePaths := do
  let get ← section? f ["primary", "secondary"] x
  let standard : ProfilePaths := {}
  return {
    primary := ← field get "primary" path standard.primary
    secondary := ← field get "secondary" path standard.secondary }

def proxySection (f : SettingsFormat) (x : Data) : Option ProxySettings := do
  let get ← section? f ["idle_timeout_secs", "max_connections", "buffer_size"] x
  let standard : ProxySettings := {}
  return {
    idleSecs := ← field get "idle_timeout_secs" number64 standard.idleSecs
    maxConnections := ← field get "max_connections" number64 standard.maxConnections
    bufferSize := ← field get "buffer_size" number64 standard.bufferSize }

/-- the settings that a document value means -/
def ofData (f : SettingsFormat) (x : Data) : Option Settings := do
  let get ← section? f ["bind", "endpoint", "log_level", "gool", "obfuscation", "scan", "profiles", "proxy"] x
  let standard : Settings := {}
  return {
    bind := ← field get "bind" address standard.bind
    endpoint := ← field get "endpoint" (optional address) standard.endpoint
    logLevel := ← field get "log_level" text standard.logLevel
    gool := ← field get "gool" flag standard.gool
    obfuscation := ← field get "obfuscation" (optional (obfuscationSection f)) standard.obfuscation
    scan := ← field get "scan" (optional (scanSection f)) standard.scan
    profiles := ← field get "profiles" (profilesSection f) standard.profiles
    proxy := ← field get "proxy" (proxySection f) standard.proxy }

def parse (f : SettingsFormat) (s : String) : Except SettingsError Settings := do
  match ofData f (← f.parse s) with
  | some c => return c
  | none => throw .malformed

/-- the settings in a file; the extension is looked at before the file is -/
def load (files : Files) (path : FilePath) : Except SettingsError Settings := do
  let f ← SettingsFormat.ofPath path
  match files.read path with
  | .error e => throw (.read path e)
  | .ok s => parse f s

def ofWord (n : UInt64) : Data := .ofNat n.toNat

/-- a value, or null for its absence -/
def ofOption {α : Type} (write : α → Data) (x : Option α) : Data := (x.map write).getD .null

def ofAddress (a : SocketAddress) : Data := .ofString (toString a)

def obfuscationData (o : ObfuscationSettings) : Data := .record [
  (some "region", .ofString o.region), (some "program", .ofString o.program),
  (some "args", .list (o.args.map .ofString))]

def scanData (s : ScanSettings) : Data := .record [
  (some "max_rtt_ms", ofWord s.maxRttMs), (some "deadline_secs", ofWord s.deadlineSecs),
  (some "concurrency", ofWord s.concurrency), (some "poll_interval_ms", ofWord s.pollMs), (some "ipv4", .bool s.ipv4),
  (some "ipv6", .ofString (modeName s.ipv6)), (some "decoys", .bool s.decoys),
  (some "ports", .list (s.ports.map fun p => .ofNat p.toNat))]

/-- a path as a value, which has no written form when the path is not text -/
def ofPath (p : FilePath) : Data := .text p.text?

def profilesData (p : ProfilePaths) : Data := .record [
  (some "primary", ofPath p.primary), (some "secondary", ofPath p.secondary)]

def proxyData (p : ProxySettings) : Data := .record [
  (some "idle_timeout_secs", ofWord p.idleSecs), (some "max_connections", ofWord p.maxConnections),
  (some "buffer_size", ofWord p.bufferSize)]

/-- the fields of settings, in the order they are written in -/
def fields (c : Settings) : List (Option String × Data) := [
  (some "bind", ofAddress c.bind), (some "endpoint", ofOption ofAddress c.endpoint),
  (some "log_level", .ofString c.logLevel), (some "gool", .bool c.gool),
  (some "obfuscation", ofOption obfuscationData c.obfuscation), (some "scan", ofOption scanData c.scan),
  (some "profiles", profilesData c.profiles), (some "proxy", proxyData c.proxy)]

def toData (c : Settings) : Data := .record c.fields

/-- the TOML text of settings, empty when a number or a path has no written form -/
def toToml (c : Settings) : String := (Toml.write c.fields).getD ""

end Settings

end EdgeTunnel
