/-
Placeholders filled in one kind after the other are filled in at once.

`Filled` is a single pass over a text for some kinds of placeholders: each of them gives way to its value, and every other
character is copied. An argument goes through one pass for each kind, each over what the one before it wrote. These come to
a single pass because a value cannot help to write a placeholder (`Neutral`): no brace stands in it, and it begins with a
character that no placeholder has. So a placeholder in the text that is written was one in the text that was read
(`prefix_of_filled`), one more pass fills in one more kind (`filled_replaceAll`), and by induction all of them
(`filled_passes`).

- `Filled.unique`, `Filled.spent`, `Filled.unchanged`: what a single pass leaves.
- `neutral_address`, `neutral_code`: printed addresses and country codes are such values.
- `arguments_filled_at_once`: all of it for the arguments of a program.
-/
import EdgeTunnel.Arguments
import EdgeTunnel.Net.Host
import EdgeTunnel.Proofs.Net.PrefixText
import EdgeTunnel.Proofs.Text.Replacement

namespace EdgeTunnel

open Text

/-- what stands for a value in an argument -/
inductive Placeholder where
  | upstream
  | downstream
  | region
  deriving DecidableEq, Repr

namespace Placeholder

def name : Placeholder → List Char
  | .upstream => "upstream".toList
  | .downstream => "downstream".toList
  | .region => "region".toList

/-- a placeholder as it is written, in braces -/
def text (p : Placeholder) : List Char := '\x7b' :: (p.name ++ ['\x7d'])

def value (proxy listen : SocketAddress) (region : Region) : Placeholder → List Char
  | .upstream => proxy.text
  | .downstream => listen.text
  | .region => region.code.toList

/-- every kind of placeholder, in the order of the passes -/
def all : List Placeholder := [.upstream, .downstream, .region]

theorem mem_all (p : Placeholder) : p ∈ all := by
  cases p <;> decide

theorem text_ne_nil (p : Placeholder) : p.text ≠ [] := List.cons_ne_nil _ _

theorem length_text_pos (p : Placeholder) : 0 < p.text.length := List.length_pos_iff.2 p.text_ne_nil

/-- after its first character a placeholder has no brace that opens another one -/
theorem brace_notMem (p : Placeholder) : '\x7b' ∉ p.name ++ ['\x7d'] := by
  cases p <;> decide

/-- what no character of any placeholder is -/
theorem eq_false_of_mem_text {f : Char → Bool} (hnone : (all.all fun p => p.text.all fun c => !f c) = true) {p : Placeholder}
    {c : Char} (hc : c ∈ p.text) : f c = false := by
  have hp := List.all_eq_true.1 hnone p p.mem_all
  simpa using List.all_eq_true.1 hp c hc

/-- a text begins with one placeholder at most -/
theorem eq_of_prefix {p q : Placeholder} {s : List Char} (hp : p.text <+: s) (hq : q.text <+: s) : p = q := by
  have hone : ∀ p q : Placeholder, p.text <+: q.text → p = q := by
    intro p q
    cases p <;> cases q <;> decide
  rcases List.prefix_or_prefix_of_prefix hp hq with h | h
  · exact hone p q h
  · exact (hone q p h).symm

end Placeholder

/-! ## A single pass -/

/-- a pass from left to right: a placeholder of these kinds gives way to its value, and every other character is copied -/
inductive Filled (value : Placeholder → List Char) (kinds : List Placeholder) : List Char → List Char → Prop
  | done : Filled value kinds [] []
  | put {p : Placeholder} {s t : List Char} (kind : p ∈ kinds) (rest : Filled value kinds s t) :
      Filled value kinds (p.text ++ s) (value p ++ t)
  | copy {c : Char} {s t : List Char} (plain : ∀ p ∈ kinds, ¬ p.text <+: c :: s) (rest : Filled value kinds s t) :
      Filled value kinds (c :: s) (c :: t)

variable {value : Placeholder → List Char} {kinds : List Placeholder}

theorem filled_nil (s : List Char) : Filled value [] s s := by
  induction s with
  | nil => exact .done
  | cons c s ih => exact .copy (List.forall_mem_nil _) ih

/-- **A pass has one result.** -/
theorem Filled.unique {s t t' : List Char} (h : Filled value kinds s t) (h' : Filled value kinds s t') : t = t' := by
  induction h generalizing t' with
  | done =>
    generalize hs : ([] : List Char) = s at h'
    cases h' with
    | done => rfl
    | put _ _ => exact absurd hs.symm (List.append_ne_nil_of_left_ne_nil (Placeholder.text_ne_nil _) _)
    | copy _ _ => cases hs
  | @put p s t kind rest ih =>
    generalize hs : p.text ++ s = whole at h'
    cases h' with
    | done => exact absurd hs (List.append_ne_nil_of_left_ne_nil p.text_ne_nil _)
    | @put q s' t' _ rest' =>
      obtain rfl : p = q := Placeholder.eq_of_prefix ⟨s, hs⟩ ⟨s', rfl⟩
      obtain rfl := List.append_cancel_left hs
      rw [ih rest']
    | copy plain _ => exact absurd ⟨s, hs⟩ (plain p kind)
  | @copy c s t plain rest ih =>
    generalize hs : c :: s = whole at h'
    cases h' with
    | done => cases hs
    | @put q s' t' kind _ => exact absurd ⟨s', hs.symm⟩ (plain q kind)
    | copy _ rest' =>
      obtain ⟨rfl, rfl⟩ := List.cons.inj hs
      rw [ih rest']

/-- **A text without placeholders** is left as it is. -/
theorem Filled.unchanged {s t : List Char} (h : Filled value kinds s t) (hs : ∀ p ∈ kinds, ¬ p.text <:+: s) : t = s := by
  induction h with
  | done => rfl
  | @put p s t kind _ _ => exact absurd (List.prefix_append _ _).isInfix (hs p kind)
  | copy _ _ ih =>
    have hrest := ih fun p hp hinfix => hs p hp (List.infix_cons hinfix)
    rw [hrest]

/-- where no brace stands, all is copied -/
theorem Filled.copied {w s t : List Char} (hw : '\x7b' ∉ w) (h : Filled value kinds (w ++ s) t) :
    ∃ t', t = w ++ t' ∧ Filled value kinds s t' := by
  induction w generalizing t with
  | nil => exact ⟨t, rfl, h⟩
  | cons c w ih =>
    rw [List.mem_cons, not_or] at hw
    generalize hs : c :: w ++ s = whole at h
    cases h with
    | done => cases hs
    | put _ _ => exact absurd (List.cons.inj hs).1.symm hw.1
    | copy _ rest =>
      obtain ⟨rfl, rfl⟩ := List.cons.inj hs
      obtain ⟨t', rfl, hrest⟩ := ih hw.2 rest
      exact ⟨t', rfl, hrest⟩

/-- a placeholder of another kind is copied as it is -/
theorem Filled.kept {p : Placeholder} (hp : p ∉ kinds) {s t : List Char} (h : Filled value kinds (p.text ++ s) t) :
    ∃ t', t = p.text ++ t' ∧ Filled value kinds s t' := by
  generalize hs : p.text ++ s = whole at h
  cases h with
  | done => exact absurd hs (List.append_ne_nil_of_left_ne_nil p.text_ne_nil _)
  | @put q s' _ kind _ =>
    obtain rfl : p = q := Placeholder.eq_of_prefix ⟨s, hs⟩ ⟨s', rfl⟩
    exact absurd kind hp
  | copy _ rest =>
    obtain ⟨rfl, rfl⟩ := List.cons.inj hs
    obtain ⟨t', rfl, hrest⟩ := rest.copied p.brace_notMem
    exact ⟨t', rfl, hrest⟩

/-! ## Values that write no placeholder -/

/-- can a value not help to write a placeholder? -/
structure Neutral (v : List Char) : Prop where
  brace : '\x7b' ∉ v
  head : ∃ c ∈ v.head?, ∀ p : Placeholder, c ∉ p.text

/-- no placeholder begins in a text without a brace, so one that stands behind it is all behind it -/
theorem infix_of_append {p : Placeholder} {v t : List Char} (hv : '\x7b' ∉ v) (h : p.text <:+: v ++ t) : p.text <:+: t := by
  induction v with
  | nil => exact h
  | cons c v ih =>
    rw [List.mem_cons, not_or] at hv
    rw [List.cons_append] at h
    rcases List.infix_cons_iff.1 h with hstart | hinfix
    · exact absurd (List.cons_prefix_cons.1 hstart).1 hv.1
    · exact ih hv.2 hinfix

theorem replaceAll_append_of_notMem (p : Placeholder) (v : List Char) {w : List Char} (hw : '\x7b' ∉ w) (t : List Char) :
    replaceAll p.text v (w ++ t) = w ++ replaceAll p.text v t := by
  induction w with
  | nil => rfl
  | cons c w ih =>
    rw [List.mem_cons, not_or] at hw
    have hc : ¬ p.text <+: c :: (w ++ t) := fun h => hw.1 (List.cons_prefix_cons.1 h).1
    rw [List.cons_append, replaceAll_cons v hc, ih hw.2, List.cons_append]

variable (hneutral : ∀ p, Neutral (value p))

include hneutral

/-- **What is written was read**, as long as it is made of characters of placeholders: a value begins with another one. -/
theorem prefix_of_filled {s t w : List Char} (h : Filled value kinds s t) (hw : ∀ c ∈ w, ∃ p : Placeholder, c ∈ p.text)
    (hstart : w <+: t) : w <+: s := by
  induction h generalizing w with
  | done => exact hstart
  | @put q _ _ _ _ _ =>
    cases w with
    | nil => exact List.nil_prefix
    | cons d w =>
      obtain ⟨c, hhead, hc⟩ := (hneutral q).head
      obtain ⟨r, hv⟩ := List.head?_eq_some_iff.1 hhead
      obtain ⟨p, hp⟩ := hw d List.mem_cons_self
      rw [hv, List.cons_append, List.cons_prefix_cons] at hstart
      exact absurd (hstart.1 ▸ hp) (hc p)
  | copy _ _ ih =>
    cases w with
    | nil => exact List.nil_prefix
    | cons d w =>
      rw [List.forall_mem_cons] at hw
      rw [List.cons_prefix_cons] at hstart ⊢
      exact ⟨hstart.1, ih hw.2 hstart.2⟩

/-- **No placeholder is left** of the kinds that were filled in. -/
theorem Filled.spent {s t : List Char} (h : Filled value kinds s t) {p : Placeholder} (hp : p ∈ kinds) :
    ¬ p.text <:+: t := by
  induction h with
  | done =>
    intro hinfix
    exact p.text_ne_nil (List.eq_nil_of_infix_nil hinfix)
  | @put q _ _ _ _ ih =>
    intro hinfix
    exact ih (infix_of_append (hneutral q).brace hinfix)
  | copy plain rest ih =>
    intro hinfix
    rcases List.infix_cons_iff.1 hinfix with hstart | hinfix
    · have hread := prefix_of_filled hneutral (.copy plain rest) (fun c hc => ⟨p, hc⟩) hstart
      exact plain p hp hread
    · exact ih hinfix

/-- **One more pass** over what a pass wrote fills in one more kind. -/
theorem filled_replaceAll {p : Placeholder} (hp : p ∉ kinds) {s t : List Char} (h : Filled value kinds s t) :
    Filled value (kinds ++ [p]) s (replaceAll p.text (value p) t) := by
  -- the new kind is passed over as a whole, so the induction is on the length of the text
  induction hlen : s.length using Nat.strong_induction_on generalizing s t with
  | _ n ih =>
    by_cases hstart : p.text <+: s
    · obtain ⟨s, rfl⟩ := hstart
      obtain ⟨t, rfl, hrest⟩ := h.kept hp
      have hpos := p.length_text_pos
      rw [List.length_append] at hlen
      rw [replaceAll_append (value p) p.text_ne_nil]
      exact .put (List.mem_append_right _ List.mem_cons_self) (ih s.length (by omega) hrest rfl)
    · cases h with
      | done => exact .done
      | @put q s t kind rest =>
        have hpos := q.length_text_pos
        rw [List.length_append] at hlen
        rw [replaceAll_append_of_notMem p (value p) (hneutral q).brace]
        exact .put (List.mem_append_left _ kind) (ih s.length (by omega) rest rfl)
      | @copy c s t plain rest =>
        have hwritten : ¬ p.text <+: c :: t := fun hin =>
          hstart (prefix_of_filled hneutral (.copy plain rest) (fun d hd => ⟨p, hd⟩) hin)
        rw [List.length_cons] at hlen
        rw [replaceAll_cons (value p) hwritten]
        refine .copy ?_ (ih s.length (by omega) rest rfl)
        intro q hq
        rcases List.mem_append.1 hq with hq | hq
        · exact plain q hq
        · rwa [List.mem_singleton.1 hq]

/-- **A pass for each kind** comes to a single pass for all of them. -/
theorem filled_passes (hkinds : kinds.Nodup) (s : List Char) :
    Filled value kinds s (kinds.foldl (fun t p => replaceAll p.text (value p) t) s) := by
  induction kinds using List.reverseRecOn with
  | nil => exact filled_nil s
  | append_singleton kinds p ih =>
    obtain ⟨hbefore, -, hdisjoint⟩ := List.nodup_append.1 hkinds
    have hp : p ∉ kinds := fun hmem => hdisjoint p hmem p List.mem_cons_self rfl
    rw [List.foldl_append]
    exact filled_replaceAll hneutral hp (ih hbefore)

omit hneutral

/-! ## Addresses and countries -/

theorem brace_of_isAddressChar {s : List Char} (h : ∀ c ∈ s, Ip.IsAddressChar c) : '\x7b' ∉ s := by
  intro hmem
  rcases h _ hmem with hdigit | hcolon | hdot
  · exact absurd hdigit (by decide)
  · cases hcolon
  · cases hdot

/-- **A printed socket address** begins with a digit or a bracket. -/
theorem neutral_address (a : SocketAddress) : Neutral a.text := by
  have hip : '\x7b' ∉ a.ip.text := brace_of_isAddressChar a.ip.isAddressChar_of_mem_text
  have hport : '\x7b' ∉ ':' :: decimal a.port.toNat := by
    rw [List.mem_cons, not_or]
    exact ⟨by decide, not_mem_decimal (by decide) _⟩
  rcases a with ⟨⟨family, n, hn⟩, port, scope, hscope⟩
  cases family with
  | v4 =>
    refine ⟨List.not_mem_append hip hport, ?_⟩
    obtain ⟨b, _, _, _, -, -, -, -, -, htext⟩ := Ip.dotted_eq n
    obtain ⟨d, ds, hdecimal, hd, -⟩ := exists_decimal_cons b
    have hhead : d ∈ (Ip.dotted n).head? := by
      rw [htext, hdecimal]
      rfl
    refine ⟨d, List.mem_head?_append_of_mem_head? hhead, ?_⟩
    intro p hmem
    have hno : isDigitOf 10 d = false := Placeholder.eq_false_of_mem_text rfl hmem
    rw [hno] at hd
    cases hd
  | v6 =>
    have hbracket : ∀ p : Placeholder, '[' ∉ p.text := by
      intro p hmem
      have hno : ('[' == '[') = false := Placeholder.eq_false_of_mem_text rfl hmem
      cases hno
    refine ⟨?_, '[', rfl, hbracket⟩
    have hzone : '\x7b' ∉ (if scope = 0 then [] else '%' :: decimal scope.toNat) := by
      split_ifs
      · exact List.not_mem_nil
      · rw [List.mem_cons, not_or]
        exact ⟨by decide, not_mem_decimal (by decide) _⟩
    have hclose : '\x7b' ∉ [']'] := by decide
    rw [SocketAddress.text, List.mem_cons, not_or]
    exact ⟨by decide, List.not_mem_append (List.not_mem_append (List.not_mem_append hip hzone) hclose) hport⟩

/-- a country code is written in capital letters -/
theorem isUpper_of_mem_code (region : Region) :
    region.code.toList ≠ [] ∧ ∀ c ∈ region.code.toList, c.isUpper = true := by
  -- as a function to Bool: what decides it is then the same whatever is imported
  have hcodes : supportedRegions.all (fun code => !code.toList.isEmpty && code.toList.all Char.isUpper) = true := by
    decide +kernel
  have hcode := List.all_eq_true.1 hcodes _ region.supported
  rw [Bool.and_eq_true, List.all_eq_true] at hcode
  exact ⟨by simpa using hcode.1, hcode.2⟩

/-- **A country code** begins with a capital letter. -/
theorem neutral_code (region : Region) : Neutral region.code.toList := by
  obtain ⟨hne, hupper⟩ := isUpper_of_mem_code region
  obtain ⟨c, s, hcons⟩ := List.exists_cons_of_ne_nil hne
  refine ⟨?_, c, ?_, ?_⟩
  · intro hbrace
    exact absurd (hupper _ hbrace) (by decide)
  · rw [hcons]
    rfl
  · intro p hmem
    have hc : c.isUpper = true := hupper c (hcons ▸ List.mem_cons_self)
    have hno : c.isUpper = false := Placeholder.eq_false_of_mem_text rfl hmem
    rw [hno] at hc
    cases hc

theorem neutral_value (proxy listen : SocketAddress) (region : Region) (p : Placeholder) :
    Neutral (p.value proxy listen region) := by
  cases p with
  | upstream => exact neutral_address proxy
  | downstream => exact neutral_address listen
  | region => exact neutral_code region

/-! ## Arguments -/

theorem filled_fillArgument (proxy listen : SocketAddress) (region : Region) (arg : String) :
    Filled (Placeholder.value proxy listen region) Placeholder.all arg.toList
      (fillArgument proxy listen region arg).toList := by
  have hkinds : Placeholder.all.Nodup := by decide
  have hpasses := filled_passes (neutral_value proxy listen region) hkinds arg.toList
  rwa [fillArgument, String.toList_ofList]

/-- **Arguments are filled in at once.** There are as many as before, and each is the one result of a single pass from left
to right, in which every placeholder gives way to its value and every other character is copied. No placeholder is left in
it, and an argument without placeholders stays as it is. -/
theorem arguments_filled_at_once (proxy listen : SocketAddress) (region : Region) (args : List String) :
    List.Forall₂ (fun arg filled =>
        (∀ t, Filled (Placeholder.value proxy listen region) Placeholder.all arg.toList t ↔ t = filled.toList) ∧
        (∀ p : Placeholder, ¬ p.text <:+: filled.toList) ∧
        ((∀ p : Placeholder, ¬ p.text <:+: arg.toList) → filled = arg))
      args (fillArguments proxy listen region args) := by
  rw [fillArguments, List.forall₂_map_right_iff, List.forall₂_same]
  intro arg _
  have hfilled := filled_fillArgument proxy listen region arg
  refine ⟨?_, ?_, ?_⟩
  · intro t
    constructor
    · intro h
      exact h.unique hfilled
    · intro h
      rwa [h]
  · intro p
    exact hfilled.spent (neutral_value proxy listen region) p.mem_all
  · intro hnone
    exact String.toList_inj.1 (hfilled.unchanged fun p _ => hnone p)

/-- a capital letter makes no placeholder -/
theorem arguments_filled_at_once_capital :
    let arg := "--region=\x7bRegion\x7d"
    (∀ p : Placeholder, ¬ p.text <:+: arg.toList) ∧
      fillArguments (.of .loopback 4000) (.of .loopback 8086) ⟨"SE", by decide⟩ [arg] = [arg] := by
  intro arg
  have hnone : ∀ p : Placeholder, ¬ p.text <:+: arg.toList := by
    intro p
    cases p <;> decide
  have hfilled := arguments_filled_at_once (.of .loopback 4000) (.of .loopback 8086) ⟨"SE", by decide⟩ [arg]
  obtain ⟨-, -, hunchanged⟩ := (List.forall₂_cons.1 hfilled).1
  exact ⟨hnone, congrArg (fun a => [a]) (hunchanged hnone)⟩

/-- a brace before a placeholder and the end of another one behind it -/
example : fillArguments (.of .loopback 4000) (.of .loopback 8086) ⟨"SE", by decide⟩
    ["\x7b\x7bupstream\x7dregion\x7d", "--listen=\x7bdownstream\x7d:\x7bregion\x7d", "\x7bUpstream\x7d"] =
    ["\x7b127.0.0.1:4000region\x7d", "--listen=127.0.0.1:8086:SE", "\x7bUpstream\x7d"] := by decide +kernel

end EdgeTunnel
