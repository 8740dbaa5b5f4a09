/-
The built-in endpoints.

Tunnel endpoints live in six IPv4 and two IPv6 prefixes and take traffic on a fixed list of ports, one of which answers
handshakes everywhere. A run without a scan takes a random IPv4 endpoint on a random port.
-/
import EdgeTunnel.Net.Candidates
import EdgeTunnel.Net.SocketAddress
import EdgeTunnel.Span

namespace EdgeTunnel.Catalogue

/-- the port that answers handshakes on every endpoint -/
def probePort : UInt16 := 2408

/-- the ports that take tunnel traffic -/
def ports : List UInt16 := [
  500, 854, 859, 864, 878, 880, 890, 891, 894, 903, 908, 928, 934, 939, 942, 943, 945, 946, 955, 968, 987, 988, 1002,
  1010, 1014, 1018, 1070, 1074, 1180, 1387, 1701, 1843, 2371, 2408, 2506, 3138, 3476, 3581, 3854, 4177, 4198, 4233,
  4500, 5279, 5956, 7103, 7152, 7156, 7281, 7559, 8319, 8742, 8854, 8886]

def v4Block (a b c : Nat) : Cidr := Cidr.around (Ip.ofNat .v4 (Ip.ofFields 8 [a, b, c, 0])) 24 (by show 24 ≤ 32; decide)

def v6Block (a b c : Nat) : Cidr :=
  Cidr.around (Ip.ofNat .v6 (Ip.ofFields 16 [a, b, c, 0, 0, 0, 0, 0])) 48 (by show 48 ≤ 128; decide)

def ipv4 : List Cidr :=
  [v4Block 162 159 192, v4Block 162 159 195, v4Block 188 114 96, v4Block 188 114 97, v4Block 188 114 98,
    v4Block 188 114 99]

def ipv6 : List Cidr := [v6Block 0x2606 0x4700 0xd0, v6Block 0x2606 0x4700 0xd1]

/-- all prefixes, IPv4 first -/
def all : List Cidr := ipv4 ++ ipv6

/-- the host whose reachability decides whether IPv6 candidates are worth a scan -/
def ipv6Target : SocketAddress :=
  .of (Ip.ofNat .v6 (Ip.ofFields 16 [0x2001, 0x4860, 0x4860, 0, 0, 0, 0, 0x8888])) 80

/-- how long that check waits -/
def ipv6Timeout : Span := Span.ofSecs 5

/-- a random IPv4 endpoint: first the port is drawn, then the prefix, then the address -/
def randomEndpoint {σ : Type} [RandomSource σ] (s : σ) : SocketAddress × σ :=
  let (port, s) := Random.choose ports s
  let port := port.getD probePort
  match Random.choose ipv4 s with
  | (some p, s) =>
    let (o, s) := Random.below .w128 p.size s
    (.of (p.nth o) port, s)
  | (none, s) => (.of (Ip.ofNat .v4 (Ip.ofFields 8 [162, 159, 192, 0])) port, s)

def randomEndpoints {σ : Type} [RandomSource σ] : Nat → σ → List SocketAddress × σ
  | 0, s => ([], s)
  | n + 1, s =>
    let (a, s) := randomEndpoint s
    let (as, s) := randomEndpoints n s
    (a :: as, s)

end EdgeTunnel.Catalogue
