/-
Laying out a profile anew.

The lines of a text are what stands between its line feeds. A layout may change within lines, by blanks at places where none
are needed and by the case of section names and keys, and it may change by lines that say nothing, blank ones and comments,
put between the others.
-/
import EdgeTunnel.Profile.Reader
import Mathlib.Data.List.Forall2
import Mathlib.Logic.Relation

namespace EdgeTunnel

/-- an error with another number of its line -/
def ProfileError.renumbered (f : Nat → Nat) : ProfileError → ProfileError
  | .malformed n => .malformed (f n)
  | .value n t => .value (f n) t
  | e => e

namespace Profile

open Text

/-! ## Within lines -/

/-- a text with a carriage return before each line feed -/
def withReturns (s : List Char) : List Char := s.flatMap fun c => if c = '\n' then ['\r', '\n'] else [c]

inductive LineEdit : List Char → List Char → Prop
  /-- blanks at the ends of the line -/
  | ends {l before after : List Char} (hb : Blanks before) (ha : Blanks after) : LineEdit l (before ++ l ++ after)
  /-- blanks around the first equals sign -/
  | equals {key value before after : List Char} (first : '=' ∉ key) (hb : Blanks before) (ha : Blanks after) :
      LineEdit (key ++ '=' :: value) ((key ++ before) ++ '=' :: (after ++ value))
  /-- blanks inside the brackets of a header -/
  | brackets {u v name before after : List Char} (hu : Blanks u) (hv : Blanks v) (hb : Blanks before) (ha : Blanks after) :
      LineEdit (u ++ '[' :: (name ++ [']']) ++ v) (u ++ '[' :: ((before ++ name ++ after) ++ [']']) ++ v)
  /-- another case of a key -/
  | keyCase {key key' value : List Char} (first : '=' ∉ key) (same : lower key = lower key') :
      LineEdit (key ++ '=' :: value) (key' ++ '=' :: value)
  /-- another case of the name of a section -/
  | nameCase {u v name name' : List Char} (hu : Blanks u) (hv : Blanks v) (same : lower name = lower name') :
      LineEdit (u ++ '[' :: (name ++ [']']) ++ v) (u ++ '[' :: (name' ++ [']']) ++ v)

/-- the same lines, each with any number of changes -/
def Relaid (s s' : List Char) : Prop := List.Forall₂ (Relation.ReflTransGen LineEdit) (pieces '\n' s) (pieces '\n' s')

/-! ## Between lines -/

/-- a line that says nothing -/
inductive Idle : List Char → Prop
  | blank {l : List Char} (h : Blanks l) : Idle l
  | comment {before rest : List Char} {mark : Char} (hb : Blanks before) (hash : mark = '#' ∨ mark = ';') :
      Idle (before ++ mark :: rest)

/-- a line with the lines that are put before it -/
structure Preceded where
  extra : List (List Char)
  line : List Char

/-- all lines with those that are put before each of them, and those that are put at the end -/
def spaced (ls : List Preceded) (atEnd : List (List Char)) : List (List Char) :=
  ls.flatMap (fun l => l.extra ++ [l.line]) ++ atEnd

/-- how many lines are put before the end of the first `n` -/
def putBefore (ls : List Preceded) (n : Nat) : Nat := ((ls.take n).flatMap (·.extra)).length

end Profile

end EdgeTunnel
