/-
Arguments of a transport program.

An argument may hold placeholders for the address of the tunnel's proxy, the address that users connect to, and the exit
country. They are filled in one kind after the other.
-/
import EdgeTunnel.Net.SocketAddress
import EdgeTunnel.Region

namespace EdgeTunnel

/-- an argument with its placeholders filled in -/
def fillArgument (proxy listen : SocketAddress) (region : Region) (arg : String) : String :=
  let s := Text.replaceAll "\x7bupstream\x7d".toList proxy.text arg.toList
  let s := Text.replaceAll "\x7bdownstream\x7d".toList listen.text s
  String.ofList (Text.replaceAll "\x7bregion\x7d".toList region.code.toList s)

def fillArguments (proxy listen : SocketAddress) (region : Region) (args : List String) : List String :=
  args.map (fillArgument proxy listen region)

end EdgeTunnel
