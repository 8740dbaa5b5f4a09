/-
Writing TOML text.

A document is written as its plain values, one line each, and then its tables, each after a blank line and a header. A list
of two or more items has a line for each item. A text is written in the first form that holds it without an escape, tabs
apart: double quotes, single quotes, three double quotes, three single quotes; when none does, escapes are used. Between
double quotes a tab is escaped, between single quotes it stands as it is. A number above the largest signed 64-bit number
has no written form, and neither has a document that holds one.
-/
import EdgeTunnel.Document.Data
import EdgeTunnel.Text.Decimal

namespace EdgeTunnel.Toml

/-- the longest run of `q` -/
def longestRun (q : Char) (s : List Char) : Nat :=
  go 0 0 s
where
  go (best run : Nat) : List Char → Nat
    | [] => max best run
    | c :: r => if c = q then go best (run + 1) r else go (max best run) 0 r

/-- a control character that no form but an escape can hold -/
def isCode (c : Char) : Bool := (c.toNat < 0x20 && c != '\t' && c != '\n') || c.toNat == 0x7f

def fourDigits (n : Nat) : List Char :=
  let ds := (Text.hexadecimal n).map Char.toUpper
  List.replicate (4 - ds.length) '0' ++ ds

/-- the characters of a text between double quotes, escaped where needed; a double quote may stand unescaped while at
most `most` stand in a row, and in the multi-line form a line feed stands for itself -/
def escaped (multiline : Bool) (most : Nat) (run : Nat) : List Char → List Char
  | [] => []
  | c :: r =>
    match c with
    | '\x08' => '\\' :: 'b' :: escaped multiline most 0 r
    | '\t' => '\\' :: 't' :: escaped multiline most 0 r
    | '\n' => if multiline then '\n' :: escaped multiline most 0 r else '\\' :: 'n' :: escaped multiline most 0 r
    | '\x0c' => '\\' :: 'f' :: escaped multiline most 0 r
    | '\r' => '\\' :: 'r' :: escaped multiline most 0 r
    | '"' =>
      if run < most then '"' :: escaped multiline most (run + 1) r else '\\' :: '"' :: escaped multiline most 0 r
    | '\\' => '\\' :: '\\' :: escaped multiline most 0 r
    | c =>
      if isCode c then ['\\', 'u'] ++ fourDigits c.toNat ++ escaped multiline most 0 r
      else c :: escaped multiline most 0 r

/-- a text between delimiters; the multi-line forms start a line of their own when the text has a line feed -/
def between (delimiter : List Char) (multiline : Bool) (s body : List Char) : List Char :=
  delimiter ++ (if multiline && s.contains '\n' then ['\n'] else []) ++ body ++ delimiter

def textValue (s : List Char) : List Char :=
  let codes := s.any isCode
  let feeds := s.contains '\n'
  if !codes && !feeds && !s.contains '\\' && !s.contains '"' then between ['"'] false s (escaped false 0 0 s)
  else if !codes && !feeds && !s.contains '\'' then between ['\''] false s s
  else if !codes && !s.contains '\\' && longestRun '"' s ≤ 2 then between ['"', '"', '"'] true s (escaped true 2 0 s)
  else if !codes && longestRun '\'' s ≤ 2 then between ['\'', '\'', '\''] true s s
  else if feeds then between ['"', '"', '"'] true s (escaped true 2 0 s)
  else between ['"'] false s (escaped false 0 0 s)

/-- a value that is not a list or a table -/
def atomValue : Data → Option (List Char)
  | .bool b => some (if b then "true".toList else "false".toList)
  | .integer n => if -(2 ^ 63) ≤ n ∧ n < 2 ^ 63 then some (toString n).toList else none
  | .text (some s) => some (textValue s.toList)
  | _ => none

/-- a value that stands on a key's line -/
def lineValue : Data → Option (List Char)
  | .list xs => do
    let items ← xs.mapM atomValue
    match items with
    | [] => some "[]".toList
    | [x] => some (['['] ++ x ++ [']'])
    | _ => some (['['] ++ items.flatMap (fun x => "\n    ".toList ++ x ++ [',']) ++ "\n]".toList)
  | x => atomValue x

/-- the lines of the plain values of a record; absent values are left out -/
def plainLines : List (Option String × Data) → Option (List Char)
  | [] => some []
  | (_, .null) :: r => plainLines r
  | (_, .record _) :: r => plainLines r
  | (k, x) :: r => do
    let key ← k
    let v ← lineValue x
    let rest ← plainLines r
    some (key.toList ++ " = ".toList ++ v ++ ['\n'] ++ rest)

/-- the tables of a document, each with a header and plain values -/
def tables : List (Option String × Data) → Option (List Char)
  | [] => some []
  | (k, .record fs) :: r => do
    let key ← k
    let body ← plainLines fs
    let rest ← tables r
    some ("\n[".toList ++ key.toList ++ "]\n".toList ++ body ++ rest)
  | _ :: r => tables r

/-- the text of a record of plain values and of tables with plain values -/
def write (fields : List (Option String × Data)) : Option String := do
  let plain ← plainLines fields
  let rest ← tables fields
  some (String.ofList (plain ++ rest))

end EdgeTunnel.Toml
