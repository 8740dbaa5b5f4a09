/-
Exit countries of the circumvention network.

A region is one of a fixed list of two-letter codes. Reading trims the text and folds its case.
-/
import EdgeTunnel.Text.Blank
import EdgeTunnel.Text.Quoted

namespace EdgeTunnel

/-- the codes of the countries that are served -/
def supportedRegions : List String := [
  "AT", "BE", "BG", "BR", "CA", "CH", "CZ", "DE", "DK", "EE", "ES", "FI", "FR", "GB", "HU", "IE", "IN", "IT", "JP",
  "LV", "NL", "NO", "PL", "RO", "RS", "SE", "SG", "SK", "UA", "US"]

structure Region where
  code : String
  supported : code ∈ supportedRegions
  deriving DecidableEq

namespace Region

instance : ToString Region := ⟨code⟩

/-- every region, in the order of the codes -/
def all : List Region := supportedRegions.attach.map fun c => ⟨c.1, c.2⟩

def parse (s : String) : Option Region :=
  let code := String.ofList (Text.upper (Text.trim s.toList))
  if h : code ∈ supportedRegions then some ⟨code, h⟩ else none

def unsupportedMessage (s : String) : String := s!"Unsupported region: {Text.quoted s}"

end Region

end EdgeTunnel
