/-
Addresses that are written and read back.

- `ofFields_fields`: a number is that of its octets or groups.
- `longestZeroRun_spec`: the groups that two colons stand for are zeros.
- `readDotted_dotted`, `readGroups_groupText`, `readV6_v6Text`: an address is read back from the front of a text.
- `SocketAddress.parse_text`: so is a socket address, with its scope and without its flow information.
-/
import EdgeTunnel.Net.SocketAddress
import EdgeTunnel.Proofs.Text.Digits

namespace EdgeTunnel

open Text

namespace Ip

/-! ## Octets and groups -/

theorem ofFields_append (bits : Nat) (fs : List Nat) (f : Nat) :
    ofFields bits (fs ++ [f]) = ofFields bits fs * 2 ^ bits + f := by
  rw [ofFields, List.foldl_append]
  rfl

theorem fields_succ (bits count n : Nat) :
    fields bits (count + 1) n = fields bits count (n / 2 ^ bits) ++ [n % 2 ^ bits] := by
  have hlast : n / 2 ^ (bits * (count + 1 - 1 - count)) = n := by
    rw [Nat.add_sub_cancel, Nat.sub_self, Nat.mul_zero, Nat.pow_zero, Nat.div_one]
  rw [fields, List.range_succ, List.map_append, List.map_singleton, hlast]
  congr 1
  refine List.map_congr_left fun i hi => ?_
  have hi := List.mem_range.1 hi
  have hsplit : bits * (count + 1 - 1 - i) = bits + bits * (count - 1 - i) := by
    rw [show count + 1 - 1 - i = 1 + (count - 1 - i) by omega, Nat.mul_add, Nat.mul_one]
  rw [hsplit, Nat.pow_add, Nat.div_div_eq_div_mul]

theorem length_fields (bits count n : Nat) : (fields bits count n).length = count := by
  rw [fields, List.length_map, List.length_range]

theorem lt_of_mem_fields {bits count n f : Nat} (h : f ∈ fields bits count n) : f < 2 ^ bits := by
  obtain ⟨i, -, rfl⟩ := List.mem_map.1 h
  exact Nat.mod_lt _ (Nat.two_pow_pos _)

/-- **A number is that of its octets or groups**, as far as they reach. -/
theorem ofFields_fields (bits count n : Nat) : ofFields bits (fields bits count n) = n % 2 ^ (bits * count) := by
  induction count generalizing n with
  | zero => simp [fields, ofFields, Nat.mod_one]
  | succ count ih =>
    rw [fields_succ, ofFields_append, ih, Nat.mul_succ, Nat.add_comm (bits * count), Nat.pow_add, Nat.mod_mul]
    rw [Nat.add_comm, Nat.mul_comm]

/-! ## Dotted octets -/

/-- octets before and after a dot -/
theorem dotted_eq (n : Nat) : ∃ a b c d, fields 8 4 n = [a, b, c, d] ∧ a < 256 ∧ b < 256 ∧ c < 256 ∧ d < 256 ∧
    dotted n = decimal a ++ '.' :: (decimal b ++ '.' :: (decimal c ++ '.' :: decimal d)) := by
  have hlt : ∀ f ∈ fields 8 4 n, f < 256 := fun f hf => lt_of_mem_fields hf
  obtain ⟨a, b, c, d, heq⟩ : ∃ a b c d, fields 8 4 n = [a, b, c, d] := ⟨_, _, _, _, rfl⟩
  rw [heq] at hlt
  refine ⟨a, b, c, d, heq, hlt _ (by simp), hlt _ (by simp), hlt _ (by simp), hlt _ (by simp), ?_⟩
  rw [dotted, heq]
  simp [List.intercalate]

theorem readDigits_octet {n : Nat} (h : n < 256) {rest : List Char} (hrest : EndsDigits 10 rest) :
    readDigits octetRule (decimal n ++ rest) = some (n, rest) := by
  have hwidth : ∀ w ∈ octetRule.width, 0 < w ∧ n < octetRule.base ^ w := by
    rintro w ⟨⟩
    exact ⟨by decide, h.trans (by decide)⟩
  exact readDigits_toDigits octetRule (by decide) (by decide) (Nat.le_of_lt_succ h) hwidth hrest

theorem endsDigits_dot (rest : List Char) : EndsDigits 10 ('.' :: rest) := endsDigits_cons (by decide)

/-- **Dotted octets are read back.** -/
theorem readDotted_dotted {n : Nat} (h : n < 2 ^ 32) {rest : List Char} (hrest : EndsDigits 10 rest) :
    readDotted (dotted n ++ rest) = some (n, rest) := by
  obtain ⟨a, b, c, d, hfields, ha, hb, hc, hd, htext⟩ := dotted_eq n
  have hvalue : ofFields 8 [a, b, c, d] = n := by
    rw [← hfields, ofFields_fields]
    exact Nat.mod_eq_of_lt h
  rw [htext]
  simp only [List.append_assoc, List.cons_append, readDotted, readDigits_octet ha (endsDigits_dot _),
    readDigits_octet hb (endsDigits_dot _), readDigits_octet hc (endsDigits_dot _), readDigits_octet hd hrest, bind,
    Option.bind, pure, hvalue]

/-- a text without a dot after its first digits does not start with dotted octets -/
theorem readDotted_eq_none {s : List Char} (h : (s.dropWhile (isDigitOf 10)).head? ≠ some '.') : readDotted s = none := by
  cases hread : readDigits octetRule s with
  | none => simp [readDotted, hread]
  | some p =>
    obtain ⟨n, rest⟩ := p
    have hrest := readDigits_rest hread
    rw [show octetRule.base = 10 from rfl] at hrest
    rw [← hrest] at h
    simp only [readDotted, hread, bind, Option.bind]
    split
    · rename_i heq
      rw [(Prod.mk.inj heq).2] at h
      exact absurd rfl h
    · rfl

/-! ## Groups -/

/-- does no group follow in a text? Two colons end a run of groups. -/
def EndsGroups (rest : List Char) : Prop :=
  (∃ r, rest = ':' :: ':' :: r) ∨ ∀ c ∈ rest.head?, isDigitOf 16 c = false ∧ c ≠ '.' ∧ c ≠ ':'

/-- does a text not go on with a digit or a dot? -/
def EndsGroup (rest : List Char) : Prop := EndsDigits 16 rest ∧ rest.head? ≠ some '.'

theorem EndsGroups.endsGroup {rest : List Char} (h : EndsGroups rest) : EndsGroup rest := by
  obtain ⟨r, rfl⟩ | h := h
  · exact ⟨endsDigits_cons (by decide), by simp⟩
  · exact ⟨fun c hc => (h c hc).1, fun hdot => (h '.' hdot).2.1 rfl⟩

theorem endsGroup_colon (rest : List Char) : EndsGroup (':' :: rest) := ⟨endsDigits_cons (by decide), by simp⟩

/-- a group is not the beginning of dotted octets -/
theorem readDotted_group {l rest : List Char} (hl : ∀ c ∈ l, isDigitOf 16 c = true) (hrest : EndsGroup rest) :
    readDotted (l ++ rest) = none := by
  refine readDotted_eq_none ?_
  induction l with
  | nil =>
    have hstays : rest.dropWhile (isDigitOf 10) = rest := by
      cases rest with
      | nil => rfl
      | cons c rest => exact List.dropWhile_cons_of_neg (by simpa using hrest.1.mono (by decide) c rfl)
    rw [List.nil_append, hstays]
    exact hrest.2
  | cons c l ih =>
    have hc := hl c List.mem_cons_self
    rw [List.cons_append, List.dropWhile_cons]
    split_ifs
    · exact ih fun d hd => hl d (List.mem_cons_of_mem _ hd)
    · rintro ⟨⟩
      exact absurd hc (by decide)

theorem readDigits_group {g : Nat} (h : g < 65536) {rest : List Char} (hrest : EndsDigits 16 rest) :
    readDigits groupRule (hexadecimal g ++ rest) = some (g, rest) := by
  have hwidth : ∀ w ∈ groupRule.width, 0 < w ∧ g < groupRule.base ^ w := by
    rintro w ⟨⟩
    exact ⟨by decide, h.trans_le (by decide)⟩
  exact readDigits_toDigits groupRule (by decide) (by decide) (Nat.le_of_lt_succ h) hwidth hrest

/-- where no group follows, none is read -/
theorem readGroups_stop {limit : Nat} {first : Bool} {rest : List Char} (hrest : EndsGroups rest) :
    readGroups limit first rest = ([], false, rest) := by
  have hnone : ∀ s, afterColon first rest = some s → EndsGroup s := by
    intro s hs
    cases first with
    | true =>
      obtain rfl := Option.some.inj hs
      exact hrest.endsGroup
    | false =>
      obtain ⟨r, rfl⟩ | h := hrest
      · obtain rfl := Option.some.inj hs
        exact endsGroup_colon r
      · cases rest with
        | nil => cases hs
        | cons c rest =>
          have hc := (h c rfl).2.2
          simp [afterColon, hc] at hs
  cases limit with
  | zero => rfl
  | succ limit =>
    cases hafter : afterColon first rest with
    | none => simp [readGroups, hafter]
    | some s =>
      have hs := hnone s hafter
      have hdotted : readDotted s = none := readDotted_group (l := []) (fun _ hc => absurd hc List.not_mem_nil) hs
      have hdigits : readDigits groupRule s = none := readDigits_eq_none hs.1
      simp [readGroups, hafter, hdotted, hdigits]

/-- a group is read when one is there -/
theorem readGroups_step {limit : Nat} {first : Bool} {s rest : List Char} {g : Nat} (hg : g < 65536)
    (hafter : afterColon first s = some (hexadecimal g ++ rest)) (hrest : EndsGroup rest) :
    readGroups (limit + 1) first s =
      (g :: (readGroups limit false rest).1, (readGroups limit false rest).2.1, (readGroups limit false rest).2.2) := by
  have hdotted : readDotted (hexadecimal g ++ rest) = none :=
    readDotted_group (isDigitOf_of_mem_toDigits (by decide) (by decide)) hrest
  simp [readGroups, hafter, hdotted, readDigits_group hg hrest.1]

/-- groups with a colon before each -/
def colonGroups (gs : List Nat) : List Char := gs.flatMap fun g => ':' :: hexadecimal g

theorem groupText_cons (g : Nat) (gs : List Nat) : groupText (g :: gs) = hexadecimal g ++ colonGroups gs := by
  induction gs generalizing g with
  | nil => simp [groupText, colonGroups, List.intercalate]
  | cons h gs ih =>
    have hh := ih h
    simp only [groupText, List.map_cons] at hh ⊢
    rw [List.intercalate_cons_cons, hh]
    simp [colonGroups]

theorem endsGroup_colonGroups (gs : List Nat) {rest : List Char} (hrest : EndsGroups rest) :
    EndsGroup (colonGroups gs ++ rest) := by
  cases gs with
  | nil => exact hrest.endsGroup
  | cons g gs => exact endsGroup_colon _

theorem readGroups_colonGroups {limit : Nat} {gs : List Nat} (hlimit : gs.length ≤ limit) (hgs : ∀ g ∈ gs, g < 65536)
    {rest : List Char} (hrest : EndsGroups rest) : readGroups limit false (colonGroups gs ++ rest) = (gs, false, rest) := by
  induction gs generalizing limit with
  | nil => exact readGroups_stop hrest
  | cons g gs ih =>
    obtain ⟨limit, rfl⟩ : ∃ l, limit = l + 1 := ⟨limit - 1, by simp at hlimit; omega⟩
    have hafter : afterColon false (colonGroups (g :: gs) ++ rest) = some (hexadecimal g ++ (colonGroups gs ++ rest)) := by
      simp [colonGroups, afterColon]
    rw [readGroups_step (hgs g List.mem_cons_self) hafter (endsGroup_colonGroups gs hrest),
      ih (by simpa using hlimit) fun x hx => hgs x (List.mem_cons_of_mem _ hx)]

/-- **Groups are read back.** -/
theorem readGroups_groupText {limit : Nat} {gs : List Nat} (hlimit : gs.length ≤ limit) (hgs : ∀ g ∈ gs, g < 65536)
    {rest : List Char} (hrest : EndsGroups rest) : readGroups limit true (groupText gs ++ rest) = (gs, false, rest) := by
  cases gs with
  | nil => exact readGroups_stop hrest
  | cons g gs =>
    obtain ⟨limit, rfl⟩ : ∃ l, limit = l + 1 := ⟨limit - 1, by simp at hlimit; omega⟩
    have hafter : afterColon true (groupText (g :: gs) ++ rest) = some (hexadecimal g ++ (colonGroups gs ++ rest)) := by
      simp [groupText_cons, afterColon]
    rw [readGroups_step (hgs g List.mem_cons_self) hafter (endsGroup_colonGroups gs hrest),
      readGroups_colonGroups (by simpa using hlimit) (fun x hx => hgs x (List.mem_cons_of_mem _ hx)) hrest]

/-! ## IPv6 -/

theorem zeroRun_spec (gs : List Nat) : gs = List.replicate (zeroRun gs) 0 ++ gs.drop (zeroRun gs) := by
  induction gs with
  | nil => rfl
  | cons g gs ih =>
    cases g with
    | zero => rw [zeroRun, List.replicate_succ, List.cons_append, List.drop_succ_cons, ← ih]
    | succ g => rfl

/-- **The groups that two colons stand for are zeros.** -/
theorem longestZeroRun_spec (gs : List Nat) :
    gs = gs.take (longestZeroRun gs).1 ++ List.replicate (longestZeroRun gs).2 0 ++
      gs.drop ((longestZeroRun gs).1 + (longestZeroRun gs).2) := by
  induction gs with
  | nil => rfl
  | cons g gs ih =>
    simp only [longestZeroRun]
    split_ifs
    · rw [List.take_zero, List.nil_append, Nat.zero_add]
      exact zeroRun_spec (g :: gs)
    · rw [List.take_succ_cons, Nat.add_right_comm, List.drop_succ_cons, List.cons_append, List.cons_append, ← ih]

theorem length_run_le (gs : List Nat) :
    (longestZeroRun gs).1 + (longestZeroRun gs).2 ≤ gs.length ∨ (longestZeroRun gs).2 = 0 := by
  have hlength := congrArg List.length (longestZeroRun_spec gs)
  simp only [List.length_append, List.length_take, List.length_replicate, List.length_drop] at hlength
  omega

/-- two colons and what is after them -/
theorem readV6_colons {head tail : List Nat} (hhead : ∀ g ∈ head, g < 65536) (htail : ∀ g ∈ tail, g < 65536)
    (hlength : head.length + tail.length < 7) {rest : List Char} (hrest : EndsGroups rest) :
    readV6 (groupText head ++ [':', ':'] ++ groupText tail ++ rest) =
      some (ofFields 16 (head ++ List.replicate (8 - head.length - tail.length) 0 ++ tail), rest) := by
  have hfirst : readGroups 8 true (groupText head ++ [':', ':'] ++ groupText tail ++ rest) =
      (head, false, ':' :: ':' :: (groupText tail ++ rest)) := by
    rw [List.append_assoc, List.append_assoc]
    exact readGroups_groupText (by omega) hhead (.inl ⟨_, rfl⟩)
  have hsecond : readGroups (7 - head.length) true (groupText tail ++ rest) = (tail, false, rest) :=
    readGroups_groupText (by omega) htail hrest
  have hshort : head.length ≠ 8 := by omega
  rw [readV6, hfirst]
  simp only [if_neg hshort, Bool.false_eq_true, if_false, hsecond]

/-- two colons for the longest run of zeros -/
theorem readV6_longestZeroRun {gs : List Nat} (hlength : gs.length = 8) (hgs : ∀ g ∈ gs, g < 65536)
    (hlong : 1 < (longestZeroRun gs).2) {rest : List Char} (hrest : EndsGroups rest) :
    readV6 (groupText (gs.take (longestZeroRun gs).1) ++ [':', ':'] ++
      groupText (gs.drop ((longestZeroRun gs).1 + (longestZeroRun gs).2)) ++ rest) = some (ofFields 16 gs, rest) := by
  have hrun := longestZeroRun_spec gs
  have hfits : (longestZeroRun gs).1 + (longestZeroRun gs).2 ≤ 8 := by
    have hle := length_run_le gs
    omega
  have hshort : (gs.take (longestZeroRun gs).1).length +
      (gs.drop ((longestZeroRun gs).1 + (longestZeroRun gs).2)).length < 7 := by
    simp only [List.length_take, List.length_drop, hlength]
    omega
  have hzeros : 8 - (gs.take (longestZeroRun gs).1).length -
      (gs.drop ((longestZeroRun gs).1 + (longestZeroRun gs).2)).length = (longestZeroRun gs).2 := by
    simp only [List.length_take, List.length_drop, hlength]
    omega
  rw [readV6_colons (fun g hg => hgs g (List.mem_of_mem_take hg)) (fun g hg => hgs g (List.mem_of_mem_drop hg)) hshort hrest,
    hzeros, ← hrun]

/-- an address that maps an IPv4 address -/
theorem readV6_mapped {n : Nat} (h : n < 2 ^ 32) {rest : List Char} (hrest : EndsGroups rest) :
    readV6 ("::ffff:".toList ++ dotted n ++ rest) = some (0xffff * 2 ^ 32 + n, rest) := by
  have hdotted : readDotted (dotted n ++ rest) = some (n, rest) :=
    readDotted_dotted h (hrest.endsGroup.1.mono (by decide))
  have hfirst : readGroups 8 true ("::ffff:".toList ++ dotted n ++ rest) =
      ([], false, ':' :: ':' :: (hexadecimal 0xffff ++ ':' :: (dotted n ++ rest))) :=
    readGroups_stop (.inl ⟨_, rfl⟩)
  have hlast : readGroups 6 false (':' :: (dotted n ++ rest)) = ([n / 65536, n % 65536], true, rest) := by
    simp [readGroups, afterColon, hdotted]
  have hsecond : readGroups 7 true (hexadecimal 0xffff ++ ':' :: (dotted n ++ rest)) =
      ([0xffff, n / 65536, n % 65536], true, rest) := by
    rw [readGroups_step (by decide) rfl (endsGroup_colon _), hlast]
  have hvalue : ofFields 16 (List.replicate 5 0 ++ [0xffff, n / 65536, n % 65536]) = 0xffff * 2 ^ 32 + n := by
    simp only [ofFields, List.replicate, List.cons_append, List.nil_append, List.foldl_cons, List.foldl_nil]
    omega
  simp only [readV6, hfirst, hsecond, List.length_nil, List.nil_append, List.length_cons]
  simp only [Nat.reduceAdd, Nat.reduceSub, hvalue]
  simp

/-- **An IPv6 address is read back.** -/
theorem readV6_v6Text {n : Nat} (h : n < 2 ^ 128) {rest : List Char} (hrest : EndsGroups rest) :
    readV6 (v6Text n ++ rest) = some (n, rest) := by
  have hgs : ∀ g ∈ fields 16 8 n, g < 65536 := fun g hg => lt_of_mem_fields hg
  have hvalue : ofFields 16 (fields 16 8 n) = n := by
    rw [ofFields_fields]
    exact Nat.mod_eq_of_lt h
  have hlength : (fields 16 8 n).length = 8 := length_fields ..
  unfold v6Text
  split_ifs with hmapped
  · have hsplit : 0xffff * 2 ^ 32 + n % 2 ^ 32 = n := by omega
    have hread := readV6_mapped (Nat.mod_lt n (Nat.two_pow_pos 32)) hrest
    rwa [hsplit] at hread
  · dsimp only
    split_ifs with hlong
    · rw [readV6_longestZeroRun hlength hgs hlong hrest, hvalue]
    · simp only [readV6, readGroups_groupText (le_of_eq hlength) hgs hrest, hlength, if_true, hvalue]

end Ip

/-! ## Socket addresses -/

namespace SocketAddress

theorem readPort_decimal (port : UInt16) : readPort (':' :: decimal port.toNat) = some port := by
  have hends : EndsDigits portRule.base [] := fun c hc => by cases hc
  have hread := readDigits_toDigits portRule (by decide) (by decide) (Nat.le_of_lt_succ port.toNat_lt)
    (fun w hw => by cases hw) hends
  rw [List.append_nil] at hread
  have hdecimal : decimal port.toNat = Nat.toDigits portRule.base port.toNat := rfl
  simp [readPort, hdecimal, hread]

theorem readScope_text (scope : UInt32) (rest : List Char) :
    readScope ((if scope = 0 then [] else '%' :: decimal scope.toNat) ++ ']' :: rest) = some (scope.toNat, ']' :: rest) := by
  split_ifs with hzero
  · rw [hzero]
    rfl
  · exact readDigits_toDigits scopeRule (by decide) (by decide) (Nat.le_of_lt_succ scope.toNat_lt)
      (fun w hw => by cases hw) (endsDigits_cons (by decide))

theorem withoutFlow_eq_self_iff {a : SocketAddress} : a.withoutFlow = a ↔ a.flow = 0 := by
  rcases a with ⟨ip, port, scope, flow, hscope, hflow⟩
  simp only [withoutFlow, mk.injEq, true_and]
  exact eq_comm

/-- **A socket address is read back**, save its flow information, which its text does not have. -/
theorem parse_text (a : SocketAddress) : parse a.text = some a.withoutFlow := by
  rcases a with ⟨⟨family, n, hn⟩, port, scope, flow, hscope, hflow⟩
  cases family with
  | v4 =>
    obtain rfl : scope = 0 := hscope rfl
    have hread : Ip.readDotted (Ip.dotted n ++ ':' :: decimal port.toNat) = some (n, ':' :: decimal port.toNat) :=
      Ip.readDotted_dotted hn (endsDigits_cons (by decide))
    have hip : Ip.ofNat .v4 n = ⟨.v4, n, hn⟩ := by simp [Ip.ofNat, Nat.mod_eq_of_lt hn]
    simp only [text, Ip.text, parse, hread, readPort_decimal, Option.map_some, of, hip, withoutFlow]
  | v6 =>
    have hends :
        Ip.EndsGroups ((if scope = 0 then [] else '%' :: decimal scope.toNat) ++ ']' :: ':' :: decimal port.toNat) := by
      refine .inr ?_
      split_ifs
      · rintro c ⟨⟩
        decide
      · rintro c ⟨⟩
        decide
    have hnone : ∀ s, Ip.readDotted ('[' :: s) = none := fun s => Ip.readDotted_eq_none (by simp [isDigitOf, digitValue?])
    have hip : Ip.ofNat .v6 n = ⟨.v6, n, hn⟩ := by simp [Ip.ofNat, Nat.mod_eq_of_lt hn]
    simp only [text, Ip.text, parse, hnone, List.append_assoc, List.cons_append, List.nil_append, Ip.readV6_v6Text hn hends,
      readScope_text, readPort_decimal, bind, Option.bind, pure, hip, UInt32.ofNat_toNat, withoutFlow]

end SocketAddress

end EdgeTunnel
