/-
Where a request in absolute form goes.

An authority is a host, with a port or without. The reader cuts it from the target at the first slash only, so it is read
as it stands when a path follows or nothing; a query or a fragment that follows at once is taken for a part of it.

- `Authority.withDefaultPort_text`: an authority keeps its port, and is given one when it has none.
- `absolute_form`: the destination of a request, and when it is that of the authority.
- `query_joins_authority`: a request whose query follows the host goes to no host at all.
-/
import EdgeTunnel.Proofs.Proxy.DefaultPort
import EdgeTunnel.Proofs.Proxy.RequestLine

namespace EdgeTunnel.Proxy

/-! ## Authorities -/

/-- what ends an authority in a target, and what sets user information off in it -/
def delimiters : List Char := ['/', '?', '#', '@']

/-- is this a host: a text without colons, or an address in brackets? -/
inductive IsHost : List Char → Prop
  | named {name : List Char} (ne_nil : name ≠ []) (noColon : ':' ∉ name) : IsHost name
  | bracketed (address : List Char) : IsHost ('[' :: address ++ [']'])

theorem IsHost.ne_nil {host : List Char} (h : IsHost host) : host ≠ [] := by
  cases h with
  | named ne_nil _ => exact ne_nil
  | bracketed address => exact List.cons_ne_nil _ _

theorem IsHost.withDefaultPort {host : List Char} (h : IsHost host) (port : Nat) :
    withDefaultPort host port = host ++ ':' :: Text.decimal port := by
  cases h with
  | named _ noColon => exact withDefaultPort_noColon noColon port
  | bracketed address => exact withDefaultPort_bracket ('[' :: address) port

/-- a host, and a port in decimal when it has one -/
structure Authority where
  host : List Char
  port : Option (List Char)
  isHost : IsHost host
  undelimited : ∀ c ∈ host, c ∉ delimiters
  isPort : ∀ ds ∈ port, ds ≠ [] ∧ ∀ c ∈ ds, Text.isDigitOf 10 c = true

namespace Authority

variable (a : Authority)

def text : List Char :=
  match a.port with
  | some ds => a.host ++ ':' :: ds
  | none => a.host

/-- the authority with its port, or with that of the protocol -/
def destination : List Char :=
  match a.port with
  | some _ => a.text
  | none => a.text ++ ":80".toList

/-- **An authority keeps its port**, and is given one when it has none. -/
theorem withDefaultPort_text : withDefaultPort a.text 80 = a.destination := by
  unfold destination text
  cases hport : a.port with
  | some ds =>
    have hds := (a.isPort ds (hport ▸ rfl)).2
    have hcolon : ':' ∉ ds := fun h => absurd (hds _ h) (by decide)
    have hbracket : ']' ∉ ds := fun h => absurd (hds _ h) (by decide)
    simp only
    rw [withDefaultPort_colon a.host hcolon, if_neg hbracket]
  | none => exact a.isHost.withDefaultPort 80

theorem undelimited_text : ∀ c ∈ a.text, c ∉ delimiters := by
  unfold text
  cases hport : a.port with
  | none => exact a.undelimited
  | some ds =>
    have hds := (a.isPort ds (hport ▸ rfl)).2
    simp only [List.mem_append, List.mem_cons]
    rintro c (hc | rfl | hc)
    · exact a.undelimited c hc
    · decide
    · intro hin
      have hnoDigit : delimiters.any (Text.isDigitOf 10) = false := by decide
      exact List.any_eq_false.1 hnoDigit c hin (hds c hc)

theorem text_ne_nil : a.text ≠ [] := by
  unfold text
  cases a.port with
  | none => exact a.isHost.ne_nil
  | some ds => simp

end Authority

/-! ## Targets -/

namespace Http

/-- what the reader takes for the authority of a target: all up to the first slash -/
theorem authority?_target (a : Authority) (remainder : List Char) :
    authority? ("http://".toList ++ a.text ++ remainder) = some (a.text ++ remainder.takeWhile (· ≠ '/')) := by
  have hall : ∀ c ∈ a.text, decide (c ≠ '/') = true := fun c hc => by
    simpa using fun h : c = '/' => a.undelimited_text c hc (h ▸ by decide)
  rw [authority?, List.append_assoc, Text.stripStart?_append, Option.map_some, List.takeWhile_append_of_pos hall]

/-- a text is left as it is, or given a port behind it -/
theorem withDefaultPort_cases (authority : List Char) (port : Nat) :
    ∃ behind, withDefaultPort authority port = authority ++ behind ∧ ∀ c ∈ behind.head?, c = ':' := by
  simp only [withDefaultPort]
  split_ifs
  · exact ⟨[], by simp, by simp⟩
  · exact ⟨_, rfl, by simp⟩

/-- no port makes up for a query or a fragment that was taken for a part of the authority -/
theorem withDefaultPort_ne (a : Authority) {c : Char} (hc : c ≠ ':') (behind : List Char) :
    withDefaultPort (a.text ++ c :: behind) 80 ≠ a.destination := by
  obtain ⟨port, hport, hhead⟩ := withDefaultPort_cases a.text 80
  obtain ⟨late, hlate, -⟩ := withDefaultPort_cases (a.text ++ c :: behind) 80
  rw [hlate, ← a.withDefaultPort_text, hport, List.append_assoc]
  intro heq
  rw [← List.append_cancel_left heq] at hhead
  exact hc (hhead c rfl)

/-- **Where a request in absolute form goes.** Of a head that was read and asks for the target by a method that is not
`CONNECT`, in whatever pieces it came, the request is forwarded with all that was read. Its destination is the authority,
with the port of the protocol when it has none, exactly when a path follows the authority or nothing; a query or a
fragment that follows it is taken for a part of it, up to the first slash. -/
theorem absolute_form (a : Authority) {remainder : List Char} (hremainder : ∀ c ∈ remainder.head?, c ∈ ['/', '?', '#'])
    {pieces rest : List (List UInt8)} {all : List UInt8} {n : Nat} (hread : readHead [] pieces = (.ok (all, n), rest))
    {method : List Char} (hmethod : Text.upper method ≠ "CONNECT".toList)
    (hasks : Asks (all.take n) method ("http://".toList ++ a.text ++ remainder)) :
    ∃ destination, (read pieces).outcome = .ok ⟨.httpForward, String.ofList destination, all⟩ ∧
      all ++ (read pieces).rest = pieces.flatten ∧
      (destination = a.destination ↔ ∀ c ∈ remainder.head?, c = '/') ∧
      destination = withDefaultPort (a.text ++ remainder.takeWhile (· ≠ '/')) 80 := by
  have hvalue : read pieces = ⟨[], ofHead all n, rest.flatten⟩ := by simp only [read, hread]
  obtain ⟨c, host, hhost⟩ := List.exists_cons_of_ne_nil (l := a.text ++ remainder.takeWhile (· ≠ '/'))
    (List.append_ne_nil_of_left_ne_nil a.text_ne_nil _)
  refine ⟨_, ?_, ?_, ?_, rfl⟩
  · rw [hvalue, ofHead_of_asks hasks, if_neg hmethod, authority?_target, hhost]
  · rw [hvalue, (readHead_eq hread).1, List.nil_append]
  · cases remainder with
    | nil => simp [a.withDefaultPort_text]
    | cons c behind =>
      by_cases hslash : c = '/'
      · simp [hslash, a.withDefaultPort_text]
      · have hcolon : c ≠ ':' := by
          have := hremainder c rfl
          rintro rfl
          simp at this
        -- the first character of the query or fragment stays behind the authority, where only a colon could be a port's
        have hne := withDefaultPort_ne a hcolon (behind.takeWhile (· ≠ '/'))
        rw [List.takeWhile_cons_of_pos (by simpa using hslash)]
        exact ⟨fun h => absurd h hne, fun h => absurd (h c rfl) hslash⟩

/-- an address in brackets without a port, followed by a path with colons and brackets in it -/
theorem absolute_form_brackets :
    let a : Authority := ⟨"[::1]".toList, none, .bracketed "::1".toList, by simp [delimiters], by simp⟩
    let remainder := "/a:b]/?x=[:9]".toList
    let head : List UInt8 := "get http://[::1]/a:b]/?x=[:9] HTTP/1.1\r\n\r\n".toUTF8.data.toList
    let pieces := [head.take 20, head.drop 20 ++ [1, 2]]
    (∀ c ∈ remainder.head?, c ∈ ['/', '?', '#']) ∧
      readHead [] pieces = (.ok (head ++ [1, 2], head.length), []) ∧
      Text.upper "get".toList ≠ "CONNECT".toList ∧
      Asks ((head ++ [1, 2]).take head.length) "get".toList ("http://".toList ++ a.text ++ remainder) ∧
      (read pieces).outcome = .ok ⟨.httpForward, "[::1]:80", head ++ [1, 2]⟩ := by
  intro a remainder head pieces
  have hremainder : ∀ c ∈ remainder.head?, c ∈ ['/', '?', '#'] := by simp [remainder]
  have hread : readHead [] pieces = (.ok (head ++ [1, 2], head.length), []) := by decide +kernel
  have hmethod : Text.upper "get".toList ≠ "CONNECT".toList := by decide
  have hasks : Asks ((head ++ [1, 2]).take head.length) "get".toList ("http://".toList ++ a.text ++ remainder) :=
    ⟨"get http://[::1]/a:b]/?x=[:9] HTTP/1.1\r\n\r\n", ["HTTP/1.1".toList], by decide +kernel, by decide +kernel⟩
  obtain ⟨destination, houtcome, -, hauthority, -⟩ := absolute_form a hremainder hread hmethod hasks
  have hdestination : destination = "[::1]:80".toList := hauthority.2 (by simp [remainder])
  exact ⟨hremainder, hread, hmethod, hasks, by rw [houtcome, hdestination, String.ofList_toList]⟩

/-- **A request whose query follows the host** goes to no host at all: the query is a part of the destination. -/
theorem query_joins_authority :
    let a : Authority := ⟨"h".toList, none, .named (by decide) (by decide), by simp [delimiters], by simp⟩
    let head : List UInt8 := "GET http://h?x=1 HTTP/1.1\r\n\r\n".toUTF8.data.toList
    Asks head "GET".toList ("http://".toList ++ a.text ++ "?x=1".toList) ∧
      (read [head]).outcome = .ok ⟨.httpForward, "h?x=1:80", head⟩ ∧
      String.ofList a.destination = "h:80" := by
  intro a head
  refine ⟨⟨"GET http://h?x=1 HTTP/1.1\r\n\r\n", ["HTTP/1.1".toList], rfl, ?_⟩, ?_, rfl⟩
  · decide +kernel
  · decide +kernel

end Http

end EdgeTunnel.Proxy
