/-
The default port of an authority.

A text has a port when some colon has no closing bracket after it. The rule looks at the last colon only, and that is enough:
what stands after the last colon stands after every other one too.

- `withDefaultPort_colon`: what stands after the last colon decides whether there is a port.
- `withDefaultPort_of_hasPort`, `withDefaultPort_of_not_hasPort`: a text keeps its port, and is given one when it has none.
- `default_port_rule`: so every text has one in the end, and no second one is given.
-/
import EdgeTunnel.Proofs.Text.Digits
import EdgeTunnel.Proxy.Request

namespace EdgeTunnel.Proxy

/-! ## The last colon -/

/-- what stands after the last colon decides whether there is a port -/
theorem withDefaultPort_colon (host : List Char) {last : List Char} (hlast : ':' ∉ last) (port : Nat) :
    withDefaultPort (host ++ ':' :: last) port =
      if ']' ∈ last then host ++ ':' :: last ++ ':' :: Text.decimal port else host ++ ':' :: last := by
  have hafter : (host ++ ':' :: last).reverse.takeWhile (· ≠ ':') = last.reverse := by
    have hall : ∀ c ∈ last.reverse, decide (c ≠ ':') = true := fun c hc => by
      simpa using fun h : c = ':' => hlast (h ▸ List.mem_reverse.1 hc)
    rw [List.reverse_append, List.reverse_cons, List.append_assoc, List.singleton_append,
      List.takeWhile_append_of_pos hall, List.takeWhile_cons_of_neg (by simp), List.append_nil]
  simp only [withDefaultPort, hafter]
  by_cases hin : ']' ∈ last <;> simp [hin]

theorem withDefaultPort_noColon {host : List Char} (h : ':' ∉ host) (port : Nat) :
    withDefaultPort host port = host ++ ':' :: Text.decimal port := by
  simp [withDefaultPort, h]

/-- a text that ends with a bracket has no port -/
theorem withDefaultPort_bracket (host : List Char) (port : Nat) :
    withDefaultPort (host ++ [']']) port = host ++ [']'] ++ ':' :: Text.decimal port := by
  have hafter : ((host ++ [']']).reverse.takeWhile (· ≠ ':')).contains ']' = true := by simp
  simp only [withDefaultPort, hafter, Bool.not_true, Bool.and_false, Bool.false_eq_true, if_false]

/-! ## Texts with a port -/

/-- is there a colon with no closing bracket after it? -/
def HasPort (authority : List Char) : Prop := ∃ host port, authority = host ++ ':' :: port ∧ ']' ∉ port

variable {authority : List Char}

/-- a text with a colon has a last one -/
theorem exists_last_colon (h : ':' ∈ authority) : ∃ host last, authority = host ++ ':' :: last ∧ ':' ∉ last := by
  obtain ⟨behind, before, hsplit, hlast⟩ := List.eq_append_cons_of_mem (List.mem_reverse.2 h)
  refine ⟨before.reverse, behind.reverse, ?_, by simpa using hlast⟩
  rw [← List.reverse_reverse authority, hsplit]
  simp

theorem withDefaultPort_of_hasPort (h : HasPort authority) (port : Nat) : withDefaultPort authority port = authority := by
  obtain ⟨host, behind, rfl, hbracket⟩ := h
  obtain ⟨between, last, hsplit, hlast⟩ := exists_last_colon (show ':' ∈ ':' :: behind from List.mem_cons_self)
  have hnone : ']' ∉ last := fun hin => by
    have hbehind : ']' ∈ ':' :: behind := hsplit ▸ List.mem_append_right _ (List.mem_cons_of_mem _ hin)
    exact hbracket (List.mem_of_ne_of_mem (by decide) hbehind)
  rw [hsplit, ← List.append_assoc, withDefaultPort_colon _ hlast, if_neg hnone]

theorem withDefaultPort_of_not_hasPort (h : ¬ HasPort authority) (port : Nat) :
    withDefaultPort authority port = authority ++ ':' :: Text.decimal port := by
  by_cases hcolon : ':' ∈ authority
  · obtain ⟨host, last, rfl, hlast⟩ := exists_last_colon hcolon
    have hbracket : ']' ∈ last := by
      by_contra hnone
      exact h ⟨host, last, rfl, hnone⟩
    rw [withDefaultPort_colon host hlast, if_pos hbracket]
  · exact withDefaultPort_noColon hcolon port

theorem hasPort_append (host : List Char) (port : Nat) : HasPort (host ++ ':' :: Text.decimal port) :=
  ⟨host, Text.decimal port, rfl, Text.not_mem_decimal (by decide) port⟩

/-- **Every text has a port in the end.** -/
theorem hasPort_withDefaultPort (authority : List Char) (port : Nat) : HasPort (withDefaultPort authority port) := by
  by_cases h : HasPort authority
  · rwa [withDefaultPort_of_hasPort h]
  · rw [withDefaultPort_of_not_hasPort h]
    exact hasPort_append authority port

/-! ## The rule -/

/-- **The default port.** A text that has a port is left as it is, and any other is given one behind it. So every text has
one in the end, and no second one is given. A host without colons and whatever stands in brackets are given one, unless one
stands behind them. -/
theorem default_port_rule (authority : List Char) (port other : Nat) :
    (HasPort authority ∧ withDefaultPort authority port = authority ∨
      ¬ HasPort authority ∧ withDefaultPort authority port = authority ++ ':' :: Text.decimal port) ∧
    HasPort (withDefaultPort authority port) ∧
    withDefaultPort (withDefaultPort authority port) other = withDefaultPort authority port ∧
    ∀ host, ':' ∉ host ∨ (∃ address, host = '[' :: address ++ [']']) →
      withDefaultPort host port = host ++ ':' :: Text.decimal port ∧
      ∀ n, withDefaultPort (host ++ ':' :: Text.decimal n) port = host ++ ':' :: Text.decimal n := by
  have hhas := hasPort_withDefaultPort authority port
  refine ⟨?_, hhas, withDefaultPort_of_hasPort hhas other, fun host hhost => ⟨?_, fun n => ?_⟩⟩
  · by_cases h : HasPort authority
    · exact .inl ⟨h, withDefaultPort_of_hasPort h port⟩
    · exact .inr ⟨h, withDefaultPort_of_not_hasPort h port⟩
  · rcases hhost with hnone | ⟨address, rfl⟩
    · exact withDefaultPort_noColon hnone port
    · exact withDefaultPort_bracket ('[' :: address) port
  · exact withDefaultPort_of_hasPort (hasPort_append host n) port

/-- a colon between brackets is not one that a port stands behind -/
example : withDefaultPort "[a]:[b]".toList 80 = "[a]:[b]:80".toList := by decide

/-- an IPv6 address in brackets, and the same with a port -/
theorem default_port_rule_of_literal :
    let host := "[2001:db8::1]".toList
    (':' ∉ host ∨ ∃ address, host = '[' :: address ++ [']']) ∧
      withDefaultPort host 80 = "[2001:db8::1]:80".toList ∧
      withDefaultPort "[2001:db8::1]:81".toList 80 = "[2001:db8::1]:81".toList := by
  intro host
  have hhost : ':' ∉ host ∨ ∃ address, host = '[' :: address ++ [']'] := .inr ⟨"2001:db8::1".toList, by decide⟩
  obtain ⟨-, -, -, hrule⟩ := default_port_rule host 80 443
  obtain ⟨hgiven, hkept⟩ := hrule host hhost
  exact ⟨hhost, hgiven, hkept 81⟩

end EdgeTunnel.Proxy
