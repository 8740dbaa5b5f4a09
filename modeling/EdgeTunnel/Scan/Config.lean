/-
The limits of a scan: what is probed, how fast an answer has to be, how many answers end the scan and how long it may take.
-/
import EdgeTunnel.Net.Catalogue

namespace EdgeTunnel

structure ScanConfig where
  prefixes : List Cidr := Catalogue.all
  families : Families := default
  /-- the ports a candidate is probed on, one picked at random per probe -/
  ports : List UInt16 := [Catalogue.probePort]
  /-- the slowest answer that counts -/
  maxRtt : Span := .ofSecs 1
  /-- how many addresses end the scan: one for each tunnel of a chain -/
  wanted : Nat := 2
  deadline : Span := .ofSecs 120
  /-- the most probes in flight -/
  concurrency : Nat := 32
  /-- how often the answers are looked at -/
  poll : Span := .ofSecs 1
  deriving DecidableEq

/-- can a scan with these limits ever find an endpoint? -/
def ScanConfig.isUsable (c : ScanConfig) : Bool := c.wanted ≠ 0 && c.concurrency ≠ 0 && !c.ports.isEmpty

theorem ScanConfig.ports_ne_nil {c : ScanConfig} (h : c.isUsable = true) : c.ports ≠ [] := by
  simp only [isUsable, Bool.and_eq_true, Bool.not_eq_true', List.isEmpty_eq_false_iff] at h
  exact h.2

end EdgeTunnel
