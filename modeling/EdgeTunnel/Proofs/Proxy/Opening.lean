/-
Where a request ends and the bytes for its destination begin.

`Opening` says in each dialect what a client sends before the first byte that is for its destination. It speaks of the bytes
alone; the pieces they come in and the way they are read do not occur in it.

- `Opening.unique`: a stream has at most one opening in a dialect.
- `take_headEnd?`, `le_of_emptyLine`: the end of a head is the first place where an empty line ends.
- `opening_of_socks`, `opening_of_http`: a reader stops so that the bytes it hands over and those it has not read are what
  follows the opening.
- `opening_of_readRequest`: so does reading a request, in whatever pieces the bytes come.
-/
import EdgeTunnel.Proxy.Session
import Mathlib.Tactic

namespace EdgeTunnel.Proxy

/-! ## Openings -/

/-- what ends a head: a line that is empty -/
def emptyLine : List UInt8 := [13, 10, 13, 10]

/-- has an address the form that its kind asks for? -/
inductive AddressForm : UInt8 → List UInt8 → Prop
  | ipv4 {address : List UInt8} (length : address.length = 4) : AddressForm 1 address
  | name {n : UInt8} {name : List UInt8} (length : name.length = n.toNat) : AddressForm 3 (n :: name)
  | ipv6 {address : List UInt8} (length : address.length = 16) : AddressForm 4 address

/-- what a client sends before the first byte that is for its destination -/
inductive Opening : Dialect → List UInt8 → Prop
  /-- a request in absolute form is for the destination itself -/
  | forward : Opening .httpForward []
  /-- all up to the first empty line -/
  | connect {head : List UInt8} (ends : emptyLine <:+ head)
      (first : ∀ part, part <+: head → emptyLine <:+ part → part = head) : Opening .httpConnect head
  /-- the greeting with its methods, and the request with its address and port -/
  | socks {count reserved kind a b : UInt8} {methods address : List UInt8} (counted : methods.length = count.toNat)
      (form : AddressForm kind address) :
      Opening .socks (5 :: count :: methods ++ 5 :: 1 :: reserved :: kind :: address ++ [a, b])

/-- what a client is answered while its request is read -/
def Dialect.greeting : Dialect → List UInt8
  | .socks => Socks.methodTaken
  | _ => []

theorem AddressForm.append_inj {kind : UInt8} {a a' r r' : List UInt8} (h : AddressForm kind a) (h' : AddressForm kind a')
    (heq : a ++ r = a' ++ r') : a = a' ∧ r = r' := by
  have hlen : a.length = a'.length := by
    cases h with
    | ipv4 length => cases h' with
      | ipv4 length' => rw [length, length']
    | ipv6 length => cases h' with
      | ipv6 length' => rw [length, length']
    | name length => cases h' with
      | name length' =>
        simp only [List.cons_append, List.cons.injEq] at heq
        rw [List.length_cons, List.length_cons, length, length', heq.1]
  exact List.append_inj heq hlen

/-- **A stream has at most one opening** in a dialect. -/
theorem Opening.unique {d : Dialect} {p p' r r' : List UInt8} (h : Opening d p) (h' : Opening d p')
    (heq : p ++ r = p' ++ r') : p = p' := by
  cases h with
  | forward => cases h'; rfl
  | connect ends first =>
    cases h' with
    | connect ends' first' =>
      have hp : p <+: p' ++ r' := heq ▸ List.prefix_append p r
      rcases List.prefix_or_prefix_of_prefix hp (List.prefix_append p' r') with hle | hle
      · exact first' p hle ends
      · exact (first p' hle ends').symm
  | socks counted form =>
    cases h' with
    | socks counted' form' =>
      simp only [List.cons_append, List.append_assoc, List.cons.injEq, true_and] at heq
      obtain ⟨rfl, hgreeting⟩ := heq
      obtain ⟨rfl, hrequest⟩ := List.append_inj hgreeting (counted.trans counted'.symm)
      simp only [List.cons.injEq, true_and] at hrequest
      obtain ⟨rfl, rfl, haddress⟩ := hrequest
      obtain ⟨rfl, hport⟩ := form.append_inj form' haddress
      simp only [List.cons.injEq] at hport
      rw [hport.1, hport.2.1]

/-! ## Heads -/

namespace Http

theorem headEnd?_cons (c : UInt8) (r : List UInt8) :
    headEnd? (c :: r) = if emptyLine <+: c :: r then some 4 else (headEnd? r).map (· + 1) := by
  rw [headEnd?]
  split
  · rename_i t heq
    rw [if_pos (heq ▸ ⟨t, rfl⟩)]
  · rename_i hne
    rw [if_neg]
    rintro ⟨t, ht⟩
    exact hne t ht.symm

/-- an empty line ends where the head does -/
theorem take_headEnd? {s : List UInt8} {n : Nat} (h : headEnd? s = some n) :
    n ≤ s.length ∧ emptyLine <:+ s.take n := by
  induction s generalizing n with
  | nil => simp [headEnd?] at h
  | cons c r ih =>
    rw [headEnd?_cons] at h
    split_ifs at h with hline
    · obtain ⟨t, ht⟩ := hline
      cases h
      rw [← ht]
      simp [emptyLine]
    · obtain ⟨m, hm, rfl⟩ := Option.map_eq_some_iff.1 h
      obtain ⟨hle, hends⟩ := ih hm
      exact ⟨Nat.succ_le_succ hle, hends.trans (List.suffix_cons c _)⟩

/-- no empty line ends earlier -/
theorem le_of_emptyLine {s : List UInt8} {n : Nat} (h : headEnd? s = some n) {part : List UInt8} (hpart : part <+: s)
    (hends : emptyLine <:+ part) : n ≤ part.length := by
  induction s generalizing n part with
  | nil => simp [headEnd?] at h
  | cons c r ih =>
    rw [headEnd?_cons] at h
    split_ifs at h with hline
    · cases h
      exact hends.length_le
    · obtain ⟨m, hm, rfl⟩ := Option.map_eq_some_iff.1 h
      cases part with
      | nil => exact absurd hends (by simp [emptyLine])
      | cons c' part =>
        rcases List.suffix_cons_iff.1 hends with hwhole | hends
        · exact absurd (hwhole ▸ hpart) hline
        · exact Nat.succ_le_succ (ih hm (List.cons_prefix_cons.1 hpart).2 hends)

/-- the bytes up to the end of a head are the opening of a request to connect -/
theorem opening_of_headEnd? {s : List UInt8} {n : Nat} (h : headEnd? s = some n) : Opening .httpConnect (s.take n) := by
  obtain ⟨hle, hends⟩ := take_headEnd? h
  refine .connect hends fun part hpart hpartEnds => ?_
  have hlen := le_of_emptyLine h (hpart.trans (List.take_prefix n s)) hpartEnds
  exact hpart.eq_of_length_le (by rw [List.length_take]; omega)

/-- reading a head piece by piece loses nothing, and it stops when the head has ended -/
theorem readHead_eq {head : List UInt8} {pieces rest : List (List UInt8)} {all : List UInt8} {n : Nat}
    (h : readHead head pieces = (.ok (all, n), rest)) :
    all ++ rest.flatten = head ++ pieces.flatten ∧ headEnd? all = some n := by
  induction pieces generalizing head with
  | nil => simp [readHead] at h
  | cons piece pieces ih =>
    simp only [readHead] at h
    split at h
    · rename_i m hm
      simp only [Prod.mk.injEq, Except.ok.injEq] at h
      obtain ⟨⟨rfl, rfl⟩, rfl⟩ := h
      exact ⟨by simp, hm⟩
    · split_ifs at h
      · simp at h
      · obtain ⟨hall, hend⟩ := ih h
        exact ⟨by simpa using hall, hend⟩

/-- what a head's request hands on: the bytes past the head, or all that was read -/
theorem pending_of_ofHead {head : List UInt8} {n : Nat} {q : Request} (h : ofHead head n = .ok q) :
    (q.dialect = .httpConnect ∧ q.pending = head.drop n) ∨ (q.dialect = .httpForward ∧ q.pending = head) := by
  unfold ofHead at h
  split at h
  · cases h
  · split at h
    · split_ifs at h
      · cases h
        exact .inl ⟨rfl, rfl⟩
      · split at h <;> cases h
        exact .inr ⟨rfl, rfl⟩
    · cases h

/-- **Handing over from a head.** -/
theorem opening_of_http {pieces : List (List UInt8)} {q : Request} (h : (read pieces).outcome = .ok q) :
    (read pieces).replies = q.dialect.greeting ∧
      ∃ opening, Opening q.dialect opening ∧ pieces.flatten = opening ++ (q.pending ++ (read pieces).rest) := by
  unfold read at h ⊢
  split at h
  · cases h
  · rename_i head n rest hread
    obtain ⟨hall, hend⟩ := readHead_eq hread
    simp only [List.nil_append] at hall
    rcases pending_of_ofHead h with ⟨hd, hp⟩ | ⟨hd, hp⟩
    · refine ⟨by rw [hd]; rfl, head.take n, hd ▸ opening_of_headEnd? hend, ?_⟩
      rw [hp, ← List.append_assoc, List.take_append_drop, hall]
    · exact ⟨by rw [hd]; rfl, [], hd ▸ .forward, by rw [hp, List.nil_append, hall]⟩

end Http

/-! ## Greetings and requests -/

namespace Socks

theorem takeExact_eq {n : Nat} {s t rest : List UInt8} (h : takeExact n s = some (t, rest)) :
    s = t ++ rest ∧ t.length = n := by
  unfold takeExact at h
  split_ifs at h with hn
  simp only [Option.some.injEq, Prod.mk.injEq] at h
  obtain ⟨rfl, rfl⟩ := h
  exact ⟨(List.take_append_drop n s).symm, List.length_take_of_le hn⟩

theorem readPort_eq {replies : List UInt8} {host : List Char} {s : List UInt8} {q : Request}
    (h : (readPort replies host s).outcome = .ok q) :
    (q.dialect = .socks ∧ q.pending = [] ∧ (readPort replies host s).replies = replies) ∧
      ∃ a b, s = a :: b :: (readPort replies host s).rest := by
  unfold readPort at h ⊢
  split at h
  · cases h
    exact ⟨⟨rfl, rfl, rfl⟩, _, _, rfl⟩
  · simp [cut, fails] at h

theorem readAddress_eq {replies : List UInt8} {kind : UInt8} {s : List UInt8} {q : Request}
    (h : (readAddress replies kind s).outcome = .ok q) :
    (q.dialect = .socks ∧ q.pending = [] ∧ (readAddress replies kind s).replies = replies) ∧
      ∃ address a b, AddressForm kind address ∧ s = address ++ a :: b :: (readAddress replies kind s).rest := by
  simp only [readAddress] at h ⊢
  split_ifs at h ⊢ with h4 hname h6
  · subst h4
    cases hs : takeExact 4 s with
    | none => simp [hs, cut, fails] at h
    | some p =>
      obtain ⟨rfl, hlen⟩ := takeExact_eq hs
      simp only [hs] at h ⊢
      obtain ⟨hq, a, b, hrest⟩ := readPort_eq h
      exact ⟨hq, p.1, a, b, .ipv4 hlen, by rw [← hrest]⟩
  · subst hname
    cases s with
    | nil => simp [cut, fails] at h
    | cons n s =>
      cases hs : takeExact n.toNat s with
      | none => simp [hs, cut, fails] at h
      | some p =>
        obtain ⟨rfl, hlen⟩ := takeExact_eq hs
        simp only [hs] at h ⊢
        split at h
        · obtain ⟨hq, a, b, hrest⟩ := readPort_eq h
          exact ⟨hq, n :: p.1, a, b, .name hlen, by rw [← hrest]; rfl⟩
        · simp [fails] at h
  · subst h6
    cases hs : takeExact 16 s with
    | none => simp [hs, cut, fails] at h
    | some p =>
      obtain ⟨rfl, hlen⟩ := takeExact_eq hs
      simp only [hs] at h ⊢
      obtain ⟨hq, a, b, hrest⟩ := readPort_eq h
      exact ⟨hq, p.1, a, b, .ipv6 hlen, by rw [← hrest]⟩
  · simp [fails] at h

theorem readCommand_eq {replies s : List UInt8} {q : Request} (h : (readCommand replies s).outcome = .ok q) :
    (q.dialect = .socks ∧ q.pending = [] ∧ (readCommand replies s).replies = replies) ∧
      ∃ reserved kind address a b, AddressForm kind address ∧
        s = 5 :: 1 :: reserved :: kind :: address ++ a :: b :: (readCommand replies s).rest := by
  unfold readCommand at h ⊢
  split at h
  · rename_i v command reserved kind rest
    split_ifs at h ⊢ with hv hc
    · simp [fails] at h
    · simp [fails] at h
    · obtain ⟨hq, address, a, b, hform, hrest⟩ := readAddress_eq h
      rw [not_not] at hv hc
      refine ⟨hq, reserved, kind, address, a, b, hform, ?_⟩
      rw [hv, hc, List.cons_append, List.cons_append, List.cons_append, List.cons_append, ← hrest]
      rfl
  · simp [cut, fails] at h

/-- **Handing over from a request in the binary dialect.** Nothing is read past it. -/
theorem opening_of_socks {client : List UInt8} {q : Request} (h : (read client).outcome = .ok q) :
    (read client).replies = q.dialect.greeting ∧
      ∃ opening, Opening q.dialect opening ∧ client = opening ++ (q.pending ++ (read client).rest) := by
  unfold read at h ⊢
  split at h
  · rename_i v n s
    split_ifs at h ⊢ with hv
    · simp [fails] at h
    · cases hs : takeExact n.toNat s with
      | none => simp [hs, cut, fails] at h
      | some p =>
        obtain ⟨rfl, hlen⟩ := takeExact_eq hs
        simp only [hs] at h ⊢
        split_ifs at h ⊢
        · obtain ⟨⟨hd, hp, hreplies⟩, reserved, kind, address, a, b, hform, hrest⟩ := readCommand_eq h
          have hopening : Opening .socks (5 :: n :: _ ++ 5 :: 1 :: reserved :: kind :: address ++ [a, b]) :=
            .socks hlen hform
          rw [not_not] at hv
          refine ⟨by rw [hreplies, hd]; rfl, _, hd ▸ hopening, ?_⟩
          rw [hv, hp, List.nil_append]
          conv_lhs => rw [hrest]
          simp [version]
        · simp [fails] at h
  · simp [cut, fails] at h

end Socks

/-! ## Reading a request -/

/-- **Handing over.** Of a client's bytes that are read as a request, those that it hands on and those not read yet are what
follows the opening, in whatever pieces they came. -/
theorem opening_of_readRequest {pieces : List (List UInt8)} {r : Reading} {q : Request} (hr : readRequest pieces = some r)
    (hq : r.outcome = .ok q) :
    r.replies = q.dialect.greeting ∧
      ∃ opening, Opening q.dialect opening ∧ pieces.flatten = opening ++ (q.pending ++ r.rest) := by
  unfold readRequest at hr
  split at hr
  · simp at hr
  · rename_i first rest hbytes
    simp only [Option.some.injEq] at hr
    split_ifs at hr <;> subst hr
    · rw [hbytes]
      exact Socks.opening_of_socks hq
    · exact Http.opening_of_http hq

end EdgeTunnel.Proxy
