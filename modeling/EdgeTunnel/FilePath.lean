/-
File paths.

A path is bytes, which need not be text: a settings file can only hold one that is, while a command line can give any. Two
paths name the same file when their components agree: repeated slashes, a slash at the end and single dots after the first
component do not count.
-/
import EdgeTunnel.Text.Blank
import EdgeTunnel.Text.Utf8

namespace EdgeTunnel

structure FilePath where
  bytes : List UInt8
  deriving DecidableEq, Repr

namespace FilePath

def ofString (s : String) : FilePath := ⟨s.toUTF8.data.toList⟩

instance : Coe String FilePath := ⟨ofString⟩

/-- the text of a path, when it is UTF-8 -/
def text? (p : FilePath) : Option String := String.fromUTF8? ⟨p.bytes.toArray⟩

def isText (p : FilePath) : Bool := p.text?.isSome

/-- the path as it is shown in messages -/
instance : ToString FilePath := ⟨fun p => p.text?.getD (String.ofList (Text.lossy p.bytes))⟩

def slash : UInt8 := 47

def dot : UInt8 := 46

/-- does a piece of a path after the first slash count? -/
def counts (piece : List UInt8) : Bool := piece ≠ [] && piece ≠ [dot]

/-- the components of a path; the root is a component of its own -/
def components (p : FilePath) : List (List UInt8) :=
  match Text.pieces slash p.bytes with
  | [] => []
  | first :: rest =>
    let head := if first ≠ [] then [first] else if rest.isEmpty then [] else [[slash]]
    head ++ rest.filter counts

/-- the last component, when it names a file -/
def fileName? (p : FilePath) : Option (List UInt8) :=
  match p.components.getLast? with
  | none => none
  | some c => if c = [slash] || c = [dot] || c = [dot, dot] then none else some c

/-- what stands after the last dot of the file name, when something stands before it -/
def extension? (p : FilePath) : Option (List UInt8) := do
  let name ← p.fileName?
  let (ext, stem) ← Text.splitAt? dot name.reverse
  if stem.isEmpty then none else some ext.reverse

end FilePath

end EdgeTunnel
