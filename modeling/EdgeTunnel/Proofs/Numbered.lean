/-
Lists of things with numbers of their own.

Such a thing is found by its number, and replaced or taken out alone: up to the order, it stands first and the others are as
they were. Whatever the numbers are, a replacement is found in its place.
-/
import Mathlib.Tactic

namespace EdgeTunnel.Numbered

variable {α : Type} (number : α → Nat) {l : List α} {a : α} {n : Nat}

theorem find?_of_mem (hnodup : (l.map number).Nodup) (ha : a ∈ l) : l.find? (number · = number a) = some a := by
  obtain ⟨b, hb⟩ := Option.isSome_iff_exists.1 (List.find?_isSome (p := (number · = number a)).2 ⟨a, ha, by simp⟩)
  have hnumber : number b = number a := by simpa using List.find?_some hb
  rw [hb, List.inj_on_of_nodup_map hnodup (List.mem_of_find?_eq_some hb) ha hnumber]

/-- no two have the same number, so one of them is taken out or replaced alone -/
theorem exists_others (hnodup : (l.map number).Nodup) (hf : l.find? (number · = n) = some a) :
    ∃ others, l.Perm (a :: others) ∧ (l.filter (number · ≠ number a)).Perm others ∧
      ∀ b, number b = number a → (l.map fun x => if number x = number b then b else x).Perm (b :: others) := by
  obtain ⟨-, before, after, rfl, -⟩ := List.find?_eq_some_iff_append.1 hf
  rw [List.map_append, List.map_cons] at hnodup
  have hne : ∀ x ∈ before ++ after, number x ≠ number a := by
    intro x hx heq
    have hmem : number a ∈ (before ++ after).map number := List.mem_map.2 ⟨x, hx, heq⟩
    rw [List.map_append] at hmem
    exact (List.nodup_cons.1 (List.perm_middle.nodup_iff.1 hnodup)).1 hmem
  have hbefore : ∀ x ∈ before, number x ≠ number a := fun x hx => hne x (List.mem_append_left _ hx)
  have hafter : ∀ x ∈ after, number x ≠ number a := fun x hx => hne x (List.mem_append_right _ hx)
  refine ⟨before ++ after, List.perm_middle, ?_, fun b hb => ?_⟩
  · rw [List.filter_append, List.filter_cons_of_neg (by simp), List.filter_eq_self.2 (by simpa using hbefore),
      List.filter_eq_self.2 (by simpa using hafter)]
  · have hmap : ∀ xs : List α, (∀ x ∈ xs, number x ≠ number a) →
        (xs.map fun x => if number x = number b then b else x) = xs := by
      intro xs hxs
      have hsame : ∀ x ∈ xs, (if number x = number b then b else x) = id x := fun x hx => if_neg (hb ▸ hxs x hx)
      rw [List.map_congr_left hsame, List.map_id]
    rw [List.map_append, List.map_cons, hmap before hbefore, hmap after hafter, if_pos hb.symm]
    exact List.perm_middle

section Replacement

variable {b : α} (hb : number b = number a)

include hb in
theorem find?_replace (hf : l.find? (number · = n) = some a) :
    (l.map fun x => if number x = number b then b else x).find? (number · = n) = some b := by
  obtain rfl : number a = n := by simpa using List.find?_some hf
  have hsame : ∀ x, number (if number x = number b then b else x) = number x := by
    intro x
    split_ifs with hx
    · exact hx.symm
    · rfl
  simp only [List.find?_map, Function.comp_def, hsame, hf, Option.map_some, if_pos hb.symm]

include hb in
theorem filter_replace :
    (l.map fun x => if number x = number b then b else x).filter (number · ≠ number a) =
      l.filter (number · ≠ number a) := by
  induction l with
  | nil => rfl
  | cons x l ih =>
    rw [List.map_cons, List.filter_cons, List.filter_cons, ih]
    by_cases hx : number x = number b
    · simp [hx, hb]
    · simp [hx]

end Replacement

end EdgeTunnel.Numbered
