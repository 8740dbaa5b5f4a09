/-
The options of the command line.

An option is given by its long name, some by a letter too, and letters may be put together. A value follows its option
after an equals sign, after the letter, or as the next argument unless that looks like an option. Every option is given at
most once. A value is checked when the next option is met or the arguments end, unless it is attached to its option.
-/
import EdgeTunnel.FilePath
import EdgeTunnel.Net.SocketAddress

namespace EdgeTunnel.CommandLine

inductive Flag where
  | verbose
  | bind
  | endpoint
  | country
  | cfon
  | gool
  | scan
  | rtt
  | config
  | primaryProfile
  | secondaryProfile
  | obfsProgram
  | help
  | version
  deriving DecidableEq, Repr

namespace Flag

def longNames : List (String × Flag) := [
  ("verbose", verbose), ("bind", bind), ("endpoint", endpoint), ("country", country), ("cfon", cfon), ("gool", gool),
  ("scan", scan), ("rtt", rtt), ("config", config), ("primary-profile", primaryProfile),
  ("secondary-profile", secondaryProfile), ("obfs-program", obfsProgram), ("help", help), ("version", version)]

/-- the options that have a letter -/
def letters : List (Char × Flag) := [('v', verbose), ('b', bind), ('e', endpoint), ('h', help), ('V', version)]

def takesValue : Flag → Bool
  | verbose => false
  | cfon => false
  | gool => false
  | scan => false
  | help => false
  | version => false
  | _ => true

end Flag

inductive UsageError where
  | unknownArgument
  | invalidValue
  | valueValidation
  | argumentConflict
  | tooManyValues
  | displayHelp
  | displayVersion
  deriving DecidableEq, Repr

structure Overrides where
  verbose : Bool := false
  bind : Option SocketAddress := none
  endpoint : Option SocketAddress := none
  country : Option String := none
  cfon : Bool := false
  gool : Bool := false
  scan : Bool := false
  rtt : Option UInt64 := none
  config : Option FilePath := none
  primaryProfile : Option FilePath := none
  secondaryProfile : Option FilePath := none
  obfsProgram : Option String := none
  deriving DecidableEq

namespace Overrides

def address (v : String) : Except UsageError SocketAddress :=
  match SocketAddress.parse v.toList with
  | some a => .ok a
  | none => .error .valueValidation

def number (v : String) : Except UsageError UInt64 :=
  match Text.readUnsigned (2 ^ 64 - 1) v.toList with
  | some n => .ok (UInt64.ofNat n)
  | none => .error .valueValidation

/-- a path as a value, which is not empty -/
def path (v : String) : Except UsageError FilePath := if v.isEmpty then .error .invalidValue else .ok v

def has (o : Overrides) : Flag → Bool
  | .verbose => o.verbose
  | .bind => o.bind.isSome
  | .endpoint => o.endpoint.isSome
  | .country => o.country.isSome
  | .cfon => o.cfon
  | .gool => o.gool
  | .scan => o.scan
  | .rtt => o.rtt.isSome
  | .config => o.config.isSome
  | .primaryProfile => o.primaryProfile.isSome
  | .secondaryProfile => o.secondaryProfile.isSome
  | .obfsProgram => o.obfsProgram.isSome
  | .help => false
  | .version => false

def setFlag (o : Overrides) (f : Flag) : Except UsageError Overrides :=
  if o.has f then .error .argumentConflict
  else
    match f with
    | .verbose => .ok { o with verbose := true }
    | .cfon => .ok { o with cfon := true }
    | .gool => .ok { o with gool := true }
    | .scan => .ok { o with scan := true }
    | .help => .error .displayHelp
    | .version => .error .displayVersion
    | _ => .error .invalidValue

def setValue (o : Overrides) (f : Flag) (v : String) : Except UsageError Overrides :=
  if o.has f then .error .argumentConflict
  else
    match f with
    | .bind => return { o with bind := some (← address v) }
    | .endpoint => return { o with endpoint := some (← address v) }
    | .country => .ok { o with country := some v }
    | .rtt => return { o with rtt := some (← number v) }
    | .config => return { o with config := some (← path v) }
    | .primaryProfile => return { o with primaryProfile := some (← path v) }
    | .secondaryProfile => return { o with secondaryProfile := some (← path v) }
    | .obfsProgram => .ok { o with obfsProgram := some v }
    | _ => .error .tooManyValues

end Overrides

/-- the options met so far: what they ask for, and the last one with a value if that is not settled yet -/
structure Parsed where
  overrides : Overrides
  unsettled : Option (Flag × Option String)

namespace Parsed

def settle (p : Parsed) : Except UsageError Parsed :=
  match p.unsettled with
  | none => .ok p
  | some (_, none) => .error .invalidValue
  | some (f, some v) => return ⟨← p.overrides.setValue f v, none⟩

def flag (p : Parsed) (f : Flag) : Except UsageError Parsed := do
  let p ← p.settle
  return ⟨← p.overrides.setFlag f, none⟩

def attached (p : Parsed) (f : Flag) (v : String) : Except UsageError Parsed := do
  let p ← p.settle
  return ⟨← p.overrides.setValue f v, none⟩

/-- an option whose value is to follow -/
def awaiting (p : Parsed) (f : Flag) : Except UsageError Parsed := do
  let p ← p.settle
  return ⟨p.overrides, some (f, none)⟩

/-- an argument of two dashes, a name, and perhaps a value after an equals sign -/
def long (p : Parsed) (s : List Char) : Except UsageError Parsed :=
  let (name, value) := match Text.splitAt? '=' s with
    | some (n, v) => (n, some (String.ofList v))
    | none => (s, none)
  match Flag.longNames.lookup (String.ofList name), value with
  | none, _ => .error .unknownArgument
  | some f, some v => if f.takesValue then p.attached f v else .error .tooManyValues
  | some f, none => if f.takesValue then p.awaiting f else p.flag f

/-- the letters after one dash; the rest of them is the value of the first option that takes one -/
def short (p : Parsed) : List Char → Except UsageError Parsed
  | [] => .ok p
  | c :: rest =>
    match Flag.letters.lookup c with
    | none => .error .unknownArgument
    | some f =>
      if f.takesValue then
        match rest with
        | [] => p.awaiting f
        | '=' :: v => p.attached f (String.ofList v)
        | v => p.attached f (String.ofList v)
      else
        match p.flag f with
        | .ok p => p.short rest
        | .error e => .error e

/-- an argument that is no option -/
def plain (p : Parsed) (s : String) : Except UsageError Parsed :=
  match p.unsettled with
  | some (f, none) => .ok { p with unsettled := some (f, some s) }
  | _ => .error .unknownArgument

/-- all arguments; after two dashes alone there may be none -/
def args (p : Parsed) : List String → Except UsageError Parsed
  | [] => p.settle
  | a :: rest =>
    match a.toList with
    | ['-', '-'] => if rest.isEmpty then p.settle else .error .unknownArgument
    | '-' :: '-' :: s => do
      let p ← p.long s
      p.args rest
    | ['-'] => do
      let p ← p.plain a
      p.args rest
    | '-' :: s => do
      let p ← p.short s
      p.args rest
    | _ => do
      let p ← p.plain a
      p.args rest

end Parsed

/-- what a command line asks for -/
def parse (argv : List String) : Except UsageError Overrides := do
  let p ← Parsed.args ⟨{}, none⟩ argv
  return p.overrides

end EdgeTunnel.CommandLine
