/-
Files and the paths that lead to them.

A path is followed part by part, from the root if it starts with a slash and else from the working directory. An empty
part and a dot stay where they are, two dots go up, and any part but the first needs a directory to stand in; so a slash
after the name of a file leads nowhere.
-/
import EdgeTunnel.FilePath
import EdgeTunnel.Net.OsError

namespace EdgeTunnel

/-- what reading gives for each path -/
abbrev Files := FilePath → Except OsError ByteArray

def Files.read (files : Files) (path : FilePath) : Except OsError String := do
  match String.fromUTF8? (← files path) with
  | some text => return text
  | none => throw .notUtf8

/-- a tree of directories and files; a place in it is the list of names that lead there from the root -/
structure Disk where
  /-- the working directory -/
  here : List String
  /-- directories; those above them and above the files are there as well -/
  directories : List (List String)
  files : List (List String × ByteArray)

namespace Disk

def maxName : Nat := 255

def maxPath : Nat := 4095

def isFile (d : Disk) (place : List String) : Bool := (d.files.lookup place).isSome

def isDirectory (d : Disk) (place : List String) : Bool :=
  !d.isFile place && (d.here :: d.directories ++ d.files.map (·.1)).any fun p => place.isPrefixOf p

/-- the place that the parts of a path lead to -/
def follow (d : Disk) (place : List String) : List String → Except OsError (List String)
  | [] => .ok place
  | name :: rest =>
    if !d.isDirectory place then .error .notDirectory
    else if name = "" ∨ name = "." then d.follow place rest
    else if name = ".." then d.follow place.dropLast rest
    else if maxName < name.utf8ByteSize then .error .nameTooLong
    else if d.isFile (place ++ [name]) || d.isDirectory (place ++ [name]) then d.follow (place ++ [name]) rest
    else .error .notFound

def parts (path : String) : List String := (Text.pieces '/' path.toList).map String.ofList

def locate (d : Disk) (path : String) : Except OsError (List String) :=
  if path.contains '\x00' then .error .nulInName
  else if path = "" then .error .notFound
  else if maxPath < path.utf8ByteSize then .error .nameTooLong
  else d.follow (if path.startsWith "/" then [] else d.here) (parts path)

/-- what reading gives for each path; the names on a disk are text -/
def reading (d : Disk) : Files := fun path => do
  match path.text? with
  | none => throw .notFound
  | some path =>
    match d.files.lookup (← d.locate path) with
    | some bytes => return bytes
    | none => throw .isDirectory

/-- the same disk with more files in its working directory -/
def adding (d : Disk) (entries : List (String × ByteArray)) : Disk :=
  { d with files := entries.map (fun e => (d.here ++ parts e.1, e.2)) ++ d.files }

/-- the directories that every host has, and a file that is always empty; nothing is in the working directory -/
def standard : Disk where
  here := ["tmp", "work"]
  directories := [["bin"], ["boot"], ["etc"], ["home"], ["lib"], ["mnt"], ["opt"], ["proc"], ["root"], ["run"], ["sbin"],
    ["srv"], ["sys"], ["usr", "bin"], ["usr", "lib"], ["usr", "local", "bin"], ["usr", "sbin"], ["usr", "share"],
    ["var", "lib"], ["var", "log"], ["var", "run"], ["var", "tmp"]]
  files := [(["dev", "null"], .empty)]

end Disk

end EdgeTunnel
