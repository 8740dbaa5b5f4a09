/-
Documents: the values that both settings formats write.

A document value says what a text meant and not how it was spelled. Fractional numbers and moments are kept as a mark
only, since no setting takes one. A text whose escapes spell half of a surrogate pair has no characters; such a text may
stand where nothing reads it. Bytes that are not UTF-8 have none either, and so no written form.
-/
namespace EdgeTunnel

inductive Data where
  | null
  | bool (b : Bool)
  | integer (n : Int)
  | real
  | moment
  | text (s : Option String)
  | list (xs : List Data)
  | record (fields : List (Option String × Data))
  deriving Inhabited

namespace Data

def ofString (s : String) : Data := .text (some s)

def ofNat (n : Nat) : Data := .integer n

end Data

end EdgeTunnel
