/-
The settings of a proxy front: where it listens, how many connections it serves at a time, the size of a copy buffer and
how long a direction may be idle.
-/
import EdgeTunnel.Net.Host
import EdgeTunnel.Span

namespace EdgeTunnel

/-- the address that the proxy listens on unless told otherwise -/
def SocketAddress.standardBind : SocketAddress := .of .loopback 8086

namespace Proxy

structure Config where
  listen : SocketAddress := .standardBind
  maxConnections : UInt64 := 512
  bufferSize : UInt64 := 32 * 1024
  idle : Span := .ofSecs 15
  deriving DecidableEq

/-- the bytes of one connection: a buffer for each direction and some room for the rest -/
def Config.connectionBytes (c : Config) : Nat := c.bufferSize.toNat * 2 + 512

/-- the bytes of all connections -/
def Config.memory (c : Config) : Nat := c.maxConnections.toNat * c.connectionBytes

/-- the bytes of all connections, where 64 bits can count them -/
def Config.memoryEstimate (c : Config) : Option UInt64 := if c.memory < 2 ^ 64 then some (UInt64.ofNat c.memory) else none

end Proxy

end EdgeTunnel
