/-
The commands of a script.

A script is read line by line. A line is a list of commands: simple commands made of words, joined by `;`, `&`, `&&`, `||`
and `|`, negated by `!`, grouped by braces or parentheses, or chosen by `if`. Redirections are dropped: where output goes
does not show in how a script ends. A line that breaks the rules ends the script where it stands; the lines before it are run.
-/
import EdgeTunnel.Transport.Script.Token

namespace EdgeTunnel.Transport.Script

inductive Command where
  | simple (words : List Word)
  | seq (first second : Command)
  | andThen (first second : Command)
  | orElse (first second : Command)
  | pipe (first second : Command)
  | negation (command : Command)
  | background (command : Command)
  | subshell (command : Command)
  | choice (test yes no : Command)

/-- the words that shape commands -/
def reservedWords : List String :=
  ["!", "\x7b", "\x7d", "if", "then", "elif", "else", "fi", "while", "until", "for", "case", "esac", "do", "done"]

/-- the text of a word without parameters and quotes -/
def bare? (w : Word) : Option String := (w.mapM Piece.bare?).map String.ofList

/-- the reserved word that stands in front -/
def reserved? (ts : List Token) : Option String :=
  match ts with
  | .word w :: _ => (bare? w).filter reservedWords.contains
  | _ => none

/-- the tokens after a reserved word that has to stand in front -/
def expect (s : String) (ts : List Token) : Option (List Token) := if reserved? ts = some s then some ts.tail else none

def skipLineEnds (ts : List Token) : List Token := ts.dropWhile (· == .operator "\n")

/-- does no further command of the same list follow? -/
def endsList (ts : List Token) : Bool :=
  match ts with
  | [] => true
  | .operator s :: _ => s == "\n" || s == ")"
  | ts => ["\x7d", "then", "elif", "else", "fi"].any fun s => reserved? ts = some s

def skipRedirections : List Token → Option (List Token)
  | .redirection :: .word _ :: r => skipRedirections r
  | .redirection :: _ => none
  | r => some r

/-- the words of a simple command, without its redirections -/
def simple : List Token → Option (List Word × List Token)
  | .word w :: r => (simple r).map fun p => (w :: p.1, p.2)
  | .redirection :: .word _ :: r => simple r
  | .redirection :: _ => none
  | r => some ([], r)

mutual

/-- the commands up to the end of a line or of the group they stand in; the first argument bounds the nesting -/
def list : Nat → List Token → Option (Command × List Token)
  | 0, _ => none
  | n + 1, ts => do
    let (a, ts) ← condition n ts
    match ts with
    | .operator ";" :: r =>
      if endsList r then return (a, r)
      let (b, r) ← list n r
      return (.seq a b, r)
    | .operator "&" :: r =>
      if endsList r then return (.background a, r)
      let (b, r) ← list n r
      return (.seq (.background a) b, r)
    | r => return (a, r)

/-- the commands of a group, which may take several lines -/
def body : Nat → List Token → Option (Command × List Token)
  | 0, _ => none
  | n + 1, ts => do
    let (a, r) ← list n (skipLineEnds ts)
    let rest := skipLineEnds r
    if rest.length = r.length ∨ endsList rest then return (a, rest)
    let (b, rest) ← body n rest
    return (.seq a b, rest)

/-- commands joined by `&&` and `||` -/
def condition : Nat → List Token → Option (Command × List Token)
  | 0, _ => none
  | n + 1, ts => do
    let (a, r) ← pipeline n ts
    conditionAfter n a r

/-- what follows a command joined by `&&` and `||` -/
def conditionAfter : Nat → Command → List Token → Option (Command × List Token)
  | 0, _, _ => none
  | n + 1, a, ts =>
    match ts with
    | .operator "&&" :: r => do
      let (b, r) ← pipeline n (skipLineEnds r)
      conditionAfter n (.andThen a b) r
    | .operator "||" :: r => do
      let (b, r) ← pipeline n (skipLineEnds r)
      conditionAfter n (.orElse a b) r
    | r => some (a, r)

/-- commands joined by `|`, negated or not -/
def pipeline : Nat → List Token → Option (Command × List Token)
  | 0, _ => none
  | n + 1, ts =>
    match expect "!" ts with
    | some r => (pipes n r).map fun p => (.negation p.1, p.2)
    | none => pipes n ts

def pipes : Nat → List Token → Option (Command × List Token)
  | 0, _ => none
  | n + 1, ts => do
    let (a, r) ← command n ts
    match r with
    | .operator "|" :: r =>
      let (b, r) ← pipes n (skipLineEnds r)
      return (.pipe a b, r)
    | r => return (a, r)

def command : Nat → List Token → Option (Command × List Token)
  | 0, _ => none
  | n + 1, ts =>
    match ts with
    | .operator "(" :: r => do
      let (a, r) ← body n r
      match r with
      | .operator ")" :: r => return (.subshell a, ← skipRedirections r)
      | _ => none
    | ts =>
      match reserved? ts with
      | some "\x7b" => do
        let (a, r) ← body n ts.tail
        let r ← expect "\x7d" r
        return (a, ← skipRedirections r)
      | some "if" => branches n ts.tail
      | some _ => none
      | none => do
        let (ws, r) ← simple ts
        if r.length < ts.length then return (.simple ws, r) else none

/-- the test and the branches after `if` or `elif` -/
def branches : Nat → List Token → Option (Command × List Token)
  | 0, _ => none
  | n + 1, ts => do
    let (test, r) ← body n ts
    let (yes, r) ← body n (← expect "then" r)
    match reserved? r with
    | some "elif" =>
      let (no, r) ← branches n r.tail
      return (.choice test yes no, r)
    | some "else" =>
      let (no, r) ← body n r.tail
      return (.choice test yes no, ← expect "fi" r)
    | _ => return (.choice test yes (.simple []), ← expect "fi" r)

end

/-- the lines of a script, and whether the text after them breaks the rules; the first argument bounds their number -/
def lines : Nat → List Token → List Command × Bool
  | 0, _ => ([], true)
  | n + 1, ts =>
    match skipLineEnds ts with
    | [] => ([], false)
    | ts =>
      match list (8 * ts.length + 8) ts with
      | some (c, []) => ([c], false)
      | some (c, .operator "\n" :: r) =>
        let (cs, broken) := lines n r
        (c :: cs, broken)
      | _ => ([], true)

/-- the lines of a text, and whether the text after them breaks the rules -/
def read (s : List Char) : List Command × Bool :=
  let ts := tokens s
  lines (ts.length + 1) ts

end EdgeTunnel.Transport.Script
