/-
The sizes that a proxy front works out from its settings, in words of 64 bits.

A product or a sum that does not fit has no value. `memoryWord` is what a word keeps of the last one, whether it fits or not.
-/
import EdgeTunnel.Proxy.Config
import EdgeTunnel.Word

namespace EdgeTunnel

namespace Proxy.Config

/-- the buffers that are kept for use: one for each direction of every connection -/
def poolBuffers? (c : Config) : Option UInt64 := Word.mul? c.maxConnections 2

/-- the bytes of one connection -/
def connectionBytes? (c : Config) : Option UInt64 := (Word.mul? c.bufferSize 2).bind fun buffers => Word.add? buffers 512

/-- the bytes of all connections -/
def memory? (c : Config) : Option UInt64 := c.connectionBytes?.bind fun bytes => Word.mul? c.maxConnections bytes

/-- the bytes of all connections as far as a word keeps them -/
def memoryWord (c : Config) : UInt64 := c.maxConnections * (c.bufferSize * 2 + 512)

end Proxy.Config

end EdgeTunnel
