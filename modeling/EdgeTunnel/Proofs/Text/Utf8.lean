/-
Bytes that are text, and paths that are.

- `fromUTF8?_eq_some_iff`: bytes are a text when they are its UTF-8, so no other text has them.
- `FilePath.text?_ofString`: a path that was made of a text has it.
- `FilePath.isText_of_components`: a path is text when its components are, since slashes and dots are text.
-/
import EdgeTunnel.FilePath
import EdgeTunnel.Proofs.Text.Blank

namespace EdgeTunnel

theorem Text.fromUTF8?_eq_some_iff (s : String) (bs : List UInt8) :
    String.fromUTF8? ⟨bs.toArray⟩ = some s ↔ s.toUTF8.data.toList = bs := by
  constructor
  · intro h
    unfold String.fromUTF8? at h
    split at h <;> cases h
    rfl
  · rintro rfl
    simp [String.fromUTF8?, String.fromUTF8, s.isValidUTF8]

/-- pieces with their separators between them are what they were cut from -/
theorem Text.intercalate_pieces {α : Type} [DecidableEq α] (c : α) (s : List α) : [c].intercalate (pieces c s) = s := by
  induction s with
  | nil => rfl
  | cons d s ih =>
    rw [pieces]
    split_ifs with hd
    · obtain ⟨p, ps, hps⟩ := List.exists_cons_of_ne_nil (pieces_ne_nil c s)
      rw [hps] at ih ⊢
      rw [List.intercalate_cons_cons, ih, hd]
      rfl
    · cases hps : pieces c s with
      | nil => exact absurd hps (pieces_ne_nil c s)
      | cons p ps =>
        rw [hps] at ih
        cases ps with
        | nil => simpa using ih
        | cons q qs =>
          rw [List.intercalate_cons_cons] at ih ⊢
          rw [← ih]
          rfl

namespace FilePath

theorem text?_eq_some_iff {p : FilePath} {s : String} : p.text? = some s ↔ ofString s = p := by
  cases p
  rw [text?, Text.fromUTF8?_eq_some_iff, ofString, FilePath.mk.injEq]

@[simp]
theorem text?_ofString (s : String) : (ofString s).text? = some s := text?_eq_some_iff.mpr rfl

theorem isText_iff {p : FilePath} : p.isText = true ↔ ∃ s, ofString s = p := by
  rw [isText, Option.isSome_iff_exists]
  exact exists_congr fun s => text?_eq_some_iff

theorem isText_ofString (s : String) : (ofString s).isText = true := isText_iff.mpr ⟨s, rfl⟩

/-! ## Pieces of a path -/

theorem isText_append {xs ys : List UInt8} (hx : isText ⟨xs⟩ = true) (hy : isText ⟨ys⟩ = true) :
    isText ⟨xs ++ ys⟩ = true := by
  obtain ⟨s, hs⟩ := isText_iff.mp hx
  obtain ⟨t, ht⟩ := isText_iff.mp hy
  refine isText_iff.mpr ⟨s ++ t, ?_⟩
  cases hs
  cases ht
  simp [ofString]

theorem isText_intercalate {ps : List (List UInt8)} (h : ∀ p ∈ ps, isText ⟨p⟩ = true) :
    isText ⟨[slash].intercalate ps⟩ = true := by
  have hslash : isText ⟨[slash]⟩ = true := isText_ofString "/"
  induction ps with
  | nil => exact isText_ofString ""
  | cons p ps ih =>
    rw [List.forall_mem_cons] at h
    cases ps with
    | nil => simpa using h.1
    | cons q qs =>
      rw [List.intercalate_cons_cons]
      exact isText_append (isText_append h.1 hslash) (ih h.2)

/-- **A path is text when its components are.** -/
theorem isText_of_components {p : FilePath} (h : ∀ c ∈ p.components, isText ⟨c⟩ = true) : p.isText = true := by
  have hpieces : ∀ piece ∈ Text.pieces slash p.bytes, isText ⟨piece⟩ = true := by
    intro piece hpiece
    by_cases hskipped : piece = [] ∨ piece = [dot]
    · rcases hskipped with rfl | rfl
      · exact isText_ofString ""
      · exact isText_ofString "."
    · rw [not_or] at hskipped
      refine h piece ?_
      rw [components]
      cases hcut : Text.pieces slash p.bytes with
      | nil =>
        rw [hcut] at hpiece
        exact absurd hpiece List.not_mem_nil
      | cons first rest =>
        rw [hcut] at hpiece
        rcases List.mem_cons.mp hpiece with rfl | hpiece
        · simp [hskipped.1]
        · exact List.mem_append_right _ (List.mem_filter.mpr ⟨hpiece, by simp [counts, hskipped]⟩)
  have hall := isText_intercalate hpieces
  rwa [Text.intercalate_pieces] at hall

end FilePath

end EdgeTunnel
