/-
Text that is replaced wherever it stands, from left to right.

The scan has as many steps as there are characters, which is always enough (`go_eq`). So it obeys the equations of a single
pass: a match at the front gives way and the pass goes on after it (`replaceAll_append`), and where there is no match the
first character stays (`replaceAll_cons`).
-/
import EdgeTunnel.Proofs.Text.Blank

namespace EdgeTunnel.Text

theorem eq_append_of_stripStart? {p s rest : List Char} (h : stripStart? p s = some rest) : s = p ++ rest := by
  induction p generalizing s with
  | nil => exact Option.some.inj h
  | cons a p ih =>
    cases s with
    | nil => cases h
    | cons b s =>
      rw [stripStart?] at h
      split_ifs at h with hab
      rw [hab, ih h, List.cons_append]

theorem stripStart?_eq_none {p s : List Char} (h : ¬ p <+: s) : stripStart? p s = none := by
  cases hstrip : stripStart? p s with
  | none => rfl
  | some rest => exact absurd ⟨rest, (eq_append_of_stripStart? hstrip).symm⟩ h

variable {p : List Char} (q : List Char)

/-- **Enough steps** are as good as any greater number of them. -/
theorem go_eq (hp : p ≠ []) {m n : Nat} {s : List Char} (hm : s.length ≤ m) (hn : s.length ≤ n) :
    replaceAll.go p q m s = replaceAll.go p q n s := by
  induction m generalizing n s with
  | zero =>
    have hnil : s = [] := List.length_eq_zero_iff.1 (Nat.le_zero.1 hm)
    rw [hnil]
    cases n <;> rfl
  | succ m ih =>
    cases s with
    | nil => cases n <;> rfl
    | cons c r =>
      obtain ⟨n, rfl⟩ : ∃ k, n = k + 1 := Nat.exists_eq_add_one.2 (Nat.lt_of_lt_of_le (Nat.succ_pos _) hn)
      have hmr : r.length ≤ m := Nat.le_of_succ_le_succ hm
      have hnr : r.length ≤ n := Nat.le_of_succ_le_succ hn
      have hempty : p.isEmpty = false := List.isEmpty_eq_false_iff.2 hp
      simp only [replaceAll.go, hempty, Bool.false_eq_true, if_false]
      cases hstrip : stripStart? p (c :: r) with
      | none => exact congrArg (c :: ·) (ih hmr hnr)
      | some rest =>
        -- what follows a match is shorter than what the match began
        have hlength := congrArg List.length (eq_append_of_stripStart? hstrip)
        have hpos : 0 < p.length := List.length_pos_iff.2 hp
        rw [List.length_cons, List.length_append] at hlength
        exact congrArg (q ++ ·) (ih (by omega) (by omega))

theorem replaceAll_cons {c : Char} {s : List Char} (h : ¬ p <+: c :: s) :
    replaceAll p q (c :: s) = c :: replaceAll p q s := by
  have hempty : p.isEmpty = false := by
    cases p with
    | nil => exact absurd List.nil_prefix h
    | cons a p => rfl
  rw [replaceAll, List.length_cons, replaceAll.go, hempty, stripStart?_eq_none h]
  rfl

theorem replaceAll_append (hp : p ≠ []) (s : List Char) : replaceAll p q (p ++ s) = q ++ replaceAll p q s := by
  obtain ⟨c, r, hcons⟩ := List.exists_cons_of_ne_nil hp
  have hempty : p.isEmpty = false := List.isEmpty_eq_false_iff.2 hp
  have hstrip : stripStart? p (c :: (r ++ s)) = some s := by
    rw [← List.cons_append, ← hcons, stripStart?_append]
  have hwhole : p ++ s = c :: (r ++ s) := by rw [hcons, List.cons_append]
  rw [replaceAll, hwhole, List.length_cons, replaceAll.go, hempty, hstrip]
  exact congrArg (q ++ ·) (go_eq q hp (by rw [List.length_append]; omega) (Nat.le_refl _))

end EdgeTunnel.Text
