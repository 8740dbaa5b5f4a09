/-
The request that a head asks for, from its first line.

- `Asks`: the head is a text, and the first words of its first line are a method and a target.
- `ofHead_of_asks`: what is read from such a head.
- `asks_of_line`: a line with spaces between its parts asks for its target.
-/
import EdgeTunnel.Proofs.Proxy.SocksGrammar
import EdgeTunnel.Proofs.Text.Blank

namespace EdgeTunnel.Proxy.Http

open Socks (utf8 utf8_eq_iff)

/-- does the first line of a head ask for this target by this method? -/
def Asks (head : List UInt8) (method target : List Char) : Prop :=
  ∃ text more, utf8 text = head ∧ Text.words ((Text.lines text.toList).headD []) = method :: target :: more

/-- **What is read from a head** that asks for a target. -/
theorem ofHead_of_asks {all : List UInt8} {n : Nat} {method target : List Char} (h : Asks (all.take n) method target) :
    ofHead all n =
      if Text.upper method = "CONNECT".toList then
        .ok ⟨.httpConnect, String.ofList (withDefaultPort target 443), all.drop n⟩
      else
        match authority? target with
        | none => .error (.badRequest .notProxied)
        | some [] => .error (.badRequest .missingHost)
        | some host => .ok ⟨.httpForward, String.ofList (withDefaultPort host 80), all⟩ := by
  obtain ⟨text, more, htext, hwords⟩ := h
  rw [ofHead, (utf8_eq_iff _ _).1 htext]
  rcases hauthority : authority? target with _ | _ | ⟨c, host⟩ <;> simp only [hwords, hauthority]

section Line

variable {method target version rest : List Char}

/-- **A line with spaces between its parts** asks for its target by its method. -/
theorem asks_of_line (hmethod : method ≠ []) (hm : method.any Text.isBlank = false) (htarget : target ≠ [])
    (ht : target.any Text.isBlank = false) (hversion : '\n' ∉ version) :
    Asks (utf8 (String.ofList (method ++ ' ' :: (target ++ ' ' :: (version ++ '\r' :: '\n' :: rest))))) method target := by
  have hword : ∀ w : List Char, w.any Text.isBlank = false → ∀ c ∈ w, Text.isBlank c = false := fun w hw c hc =>
    Bool.eq_false_iff.2 (List.any_eq_false.1 hw c hc)
  have hnoFeed : ∀ w : List Char, w.any Text.isBlank = false → '\n' ∉ w := fun w hw hin =>
    List.any_eq_false.1 hw '\n' hin (by decide)
  have hline : '\n' ∉ method ++ ' ' :: (target ++ ' ' :: version) ++ ['\r'] := by
    simp [hnoFeed method hm, hnoFeed target ht, hversion]
  refine ⟨_, Text.words version, rfl, ?_⟩
  have hsplit : method ++ ' ' :: (target ++ ' ' :: (version ++ '\r' :: '\n' :: rest)) =
      method ++ ' ' :: (target ++ ' ' :: version) ++ ['\r'] ++ '\n' :: rest := by simp
  rw [String.toList_ofList, hsplit, Text.headD_lines hline, Text.dropReturn_append,
    Text.words_append hmethod (hword method hm) (by decide), Text.words_append htarget (hword target ht) (by decide)]

end Line

end EdgeTunnel.Proxy.Http
