/-
Settings changed by the command line.
-/
import EdgeTunnel.CommandLine.Options
import EdgeTunnel.Settings.Basic

namespace EdgeTunnel.CommandLine

inductive OverrideError where
  | cfonNeedsCountry
  | countryNeedsCfon
  deriving DecidableEq, Repr

def OverrideError.message : OverrideError → String
  | .cfonNeedsCountry => "--cfon needs --country"
  | .countryNeedsCfon => "--country is only used with --cfon"

namespace Overrides

/-- the obfuscation section: with `cfon` it is there, in the country that is given or else the one it had -/
def obfuscation (o : Overrides) (old : Option ObfuscationSettings) : Except OverrideError (Option ObfuscationSettings) :=
  let chosen : Except OverrideError (Option ObfuscationSettings) :=
    if o.cfon then
      match o.country, old with
      | some c, some s => .ok (some { s with region := c })
      | some c, none => .ok (some { region := c })
      | none, some s => .ok (some s)
      | none, none => .error .cfonNeedsCountry
    else if o.country.isSome then .error .countryNeedsCfon
    else .ok old
  match chosen with
  | .ok (some s) => .ok (some { s with program := o.obfsProgram.getD s.program })
  | other => other

/-- the scan section: with `scan` or `rtt` it is there -/
def scanSection (o : Overrides) (old : Option ScanSettings) : Option ScanSettings :=
  if o.scan || o.rtt.isSome then
    let s := old.getD {}
    some { s with maxRttMs := o.rtt.getD s.maxRttMs }
  else old

def apply (o : Overrides) (s : Settings) : Except OverrideError Settings :=
  match o.obfuscation s.obfuscation with
  | .error e => .error e
  | .ok obfuscation => .ok {
      bind := o.bind.getD s.bind
      endpoint := o.endpoint.or s.endpoint
      logLevel := if o.verbose then "debug" else s.logLevel
      gool := o.gool || s.gool
      obfuscation
      scan := o.scanSection s.scan
      profiles := ⟨o.primaryProfile.getD s.profiles.primary, o.secondaryProfile.getD s.profiles.secondary⟩
      proxy := s.proxy }

end Overrides

end EdgeTunnel.CommandLine
