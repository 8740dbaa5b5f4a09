/-
Settings files that give some settings only.

A file may leave keys out, give its keys in any order and have keys that mean nothing (`Edited`). A setting whose key is left
out has its default, and a section that is given has its own defaults for the keys that are left out of it (`without`). A key
is named by its path from the top of the file.
-/
import EdgeTunnel.Settings.Reader

namespace EdgeTunnel.Settings

mutual

/-- `y` is what is left of the value `x` at a path when keys are removed, the others put in any order and unknown keys
added, in every record on the way -/
inductive Edited (removed : List (List String)) : List String → Data → Data → Prop where
  | leaf {path : List String} {x : Data} (h : ∀ fs, x ≠ .record fs) : Edited removed path x x
  | record {path : List String} {fs kept others gs : List (Option String × Data)}
    (members : EditedMembers removed path fs kept)
    (unknown : ∀ m ∈ others, ∃ k, m.1 = some k ∧ ∀ f ∈ fs, f.1 ≠ some k) (order : gs.Perm (kept ++ others)) :
    Edited removed path (.record fs) (.record gs)

/-- the members of a record that are left when keys are removed -/
inductive EditedMembers (removed : List (List String)) : List String → List (Option String × Data) →
    List (Option String × Data) → Prop where
  | nil {path : List String} : EditedMembers removed path [] []
  | drop {path : List String} {k : String} {x : Data} {fs kept : List (Option String × Data)} (gone : path ++ [k] ∈ removed)
    (more : EditedMembers removed path fs kept) : EditedMembers removed path ((some k, x) :: fs) kept
  | keep {path : List String} {k : String} {x y : Data} {fs kept : List (Option String × Data)}
    (stays : path ++ [k] ∉ removed) (value : Edited removed (path ++ [k]) x y) (more : EditedMembers removed path fs kept) :
    EditedMembers removed path ((some k, x) :: fs) ((some k, y) :: kept)

end

section
variable (removed : List (List String))

/-- a setting, or its default when its key is removed -/
def keptOr {α : Type} (path : List String) (x standard : α) : α := if path ∈ removed then standard else x

/-- an obfuscation section without the removed keys; its region has no default -/
def obfuscationWithout (o : ObfuscationSettings) : ObfuscationSettings :=
  let standard : ObfuscationSettings := { region := o.region }
  { region := o.region
    program := keptOr removed ["obfuscation", "program"] o.program standard.program
    args := keptOr removed ["obfuscation", "args"] o.args standard.args }

def scanWithout (s : ScanSettings) : ScanSettings :=
  let standard : ScanSettings := {}
  { maxRttMs := keptOr removed ["scan", "max_rtt_ms"] s.maxRttMs standard.maxRttMs
    deadlineSecs := keptOr removed ["scan", "deadline_secs"] s.deadlineSecs standard.deadlineSecs
    concurrency := keptOr removed ["scan", "concurrency"] s.concurrency standard.concurrency
    pollMs := keptOr removed ["scan", "poll_interval_ms"] s.pollMs standard.pollMs
    ipv4 := keptOr removed ["scan", "ipv4"] s.ipv4 standard.ipv4
    ipv6 := keptOr removed ["scan", "ipv6"] s.ipv6 standard.ipv6
    decoys := keptOr removed ["scan", "decoys"] s.decoys standard.decoys
    ports := keptOr removed ["scan", "ports"] s.ports standard.ports }

def profilesWithout (p : ProfilePaths) : ProfilePaths :=
  let standard : ProfilePaths := {}
  { primary := keptOr removed ["profiles", "primary"] p.primary standard.primary
    secondary := keptOr removed ["profiles", "secondary"] p.secondary standard.secondary }

def proxyWithout (p : ProxySettings) : ProxySettings :=
  let standard : ProxySettings := {}
  { idleSecs := keptOr removed ["proxy", "idle_timeout_secs"] p.idleSecs standard.idleSecs
    maxConnections := keptOr removed ["proxy", "max_connections"] p.maxConnections standard.maxConnections
    bufferSize := keptOr removed ["proxy", "buffer_size"] p.bufferSize standard.bufferSize }

/-- settings without the removed keys: their defaults stand for them -/
def without (c : Settings) : Settings :=
  let standard : Settings := {}
  { bind := keptOr removed ["bind"] c.bind standard.bind
    endpoint := keptOr removed ["endpoint"] c.endpoint standard.endpoint
    logLevel := keptOr removed ["log_level"] c.logLevel standard.logLevel
    gool := keptOr removed ["gool"] c.gool standard.gool
    obfuscation := keptOr removed ["obfuscation"] (c.obfuscation.map (obfuscationWithout removed)) standard.obfuscation
    scan := keptOr removed ["scan"] (c.scan.map (scanWithout removed)) standard.scan
    profiles := keptOr removed ["profiles"] (profilesWithout removed c.profiles) standard.profiles
    proxy := keptOr removed ["proxy"] (proxyWithout removed c.proxy) standard.proxy }

end

end EdgeTunnel.Settings
