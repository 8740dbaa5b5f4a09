/-
Profile lines and lists that are written and read back.

- `of_entry`: a line with a key and a value is read as that key and that value, whatever the value holds: only the first
  equals sign counts.
- `items_joined`: a list is read back item by item.
- `Takes`: what some lines make of a profile, whatever lines come after them.
-/
import EdgeTunnel.Profile.Reader
import EdgeTunnel.Profile.Writer
import EdgeTunnel.Proofs.Profile.LineForms

namespace EdgeTunnel.Profile

open Identity Text

/-! ## A key and its value -/

/-- can a text be the key of a line? -/
def IsKey (key : List Char) : Prop :=
  key ≠ [] ∧ Trimmed key ∧ '=' ∉ key ∧ '\n' ∉ key ∧ ∀ c ∈ key.head?, c ≠ '#' ∧ c ≠ ';' ∧ c ≠ '['

/-- a word of letters is a key -/
theorem isKey_of_letters {key : List Char} (hne : key ≠ []) (h : ∀ c ∈ key, c.isAlpha = true) : IsKey key := by
  have hother : ∀ c, c.isAlpha = false → c ∉ key := fun c hc hmem => by
    rw [h c hmem] at hc
    cases hc
  refine ⟨hne, trimmed_of_noBlank fun c hc => isBlank_eq_false_of_alpha (h c hc), hother _ (by decide),
    hother _ (by decide), fun c hc => ?_⟩
  have hmem := List.mem_of_mem_head? hc
  refine ⟨?_, ?_, ?_⟩
  · rintro rfl
    exact hother _ (by decide) hmem
  · rintro rfl
    exact hother _ (by decide) hmem
  · rintro rfl
    exact hother _ (by decide) hmem

/-- **A line is read as its key and its value**, whatever the value holds. -/
theorem of_entry {key : String} {value : List Char} (hkey : IsKey key.toList) (hvalue : Trimmed value) :
    Line.of (entry key value) = .pair key.toList value := by
  obtain ⟨-, htrimmed, hequals, -, hhead⟩ := hkey
  have hentry : entry key value = (key.toList ++ [' ']) ++ '=' :: ' ' :: value := by simp [entry]
  have hname : trim (key.toList ++ [' ']) = key.toList := by rw [trim_append_singleton (by decide), trim_eq htrimmed]
  have hmark : ¬ (key.toList.head? = some '#' ∨ key.toList.head? = some ';') := by
    rw [not_or]
    exact ⟨fun h => (hhead _ h).1 rfl, fun h => (hhead _ h).2.1 rfl⟩
  have hbracket : ¬ (key.toList.head? = some '[' ∧ value.getLast? = some ']') := fun h => (hhead _ h.1).2.2 rfl
  rw [hentry, of_equals (by simp [hequals]), hname, trim_cons (by decide), trim_eq hvalue, if_neg hmark, if_neg hbracket]

/-- a line does not end within its value, nor in a carriage return -/
theorem entry_oneLine {key : String} {value : List Char} (hkey : IsKey key.toList) (hvalue : Trimmed value)
    (hline : '\n' ∉ value) : '\n' ∉ entry key value ∧ (entry key value).getLast? ≠ some '\r' := by
  obtain ⟨-, -, -, hname, -⟩ := hkey
  refine ⟨by simp [entry, hname, hline], fun hlast => ?_⟩
  cases value with
  | nil => simp [entry] at hlast
  | cons c r =>
    have hreturn : (c :: r).getLast? = some '\r' := by simpa [entry, List.getLast?_append] using hlast
    exact absurd (hvalue.2 _ hreturn) (by decide)

/-! ## Lists -/

/-- can a text be an item of a list? -/
def IsItem (t : List Char) : Prop := t ≠ [] ∧ ∀ c ∈ t, isBlank c = false ∧ c ≠ ','

theorem joined_cons_cons (t u : List Char) (ts : List (List Char)) :
    joined (t :: u :: ts) = t ++ ',' :: ' ' :: joined (u :: ts) := by simp [joined]

theorem joined_singleton (t : List Char) : joined [t] = t := by simp [joined]

theorem items_append {t : List Char} (h : ',' ∉ t) (rest : List Char) : items (t ++ ',' :: rest) = items t ++ items rest := by
  rw [items, items, items, pieces_append h, pieces_eq_singleton h, List.map_cons, List.map_singleton,
    ← List.singleton_append, List.filter_append]

theorem items_blank {b : Char} (hb : isBlank b = true) (hcomma : b ≠ ',') (s : List Char) : items (b :: s) = items s := by
  obtain ⟨p, ps, hpieces⟩ := List.exists_cons_of_ne_nil (pieces_ne_nil ',' s)
  rw [items, items, pieces, if_neg hcomma, hpieces, List.map_cons, List.map_cons, trim_cons hb]

theorem items_item {t : List Char} (h : IsItem t) : items t = [t] := by
  obtain ⟨hne, hchars⟩ := h
  have hcomma : ',' ∉ t := fun hmem => (hchars _ hmem).2 rfl
  rw [items, pieces_eq_singleton hcomma, List.map_singleton, trim_eq (trimmed_of_noBlank fun c hc => (hchars c hc).1)]
  simp [hne]

/-- **A list is read back item by item.** -/
theorem items_joined {ts : List (List Char)} (h : ∀ t ∈ ts, IsItem t) : items (joined ts) = ts := by
  induction ts with
  | nil => rfl
  | cons t ts ih =>
    rw [List.forall_mem_cons] at h
    cases ts with
    | nil => rw [joined_singleton, items_item h.1]
    | cons u ts =>
      have hcomma : ',' ∉ t := fun hmem => (h.1.2 _ hmem).2 rfl
      rw [joined_cons_cons, items_append hcomma, items_blank (by decide) (by decide), items_item h.1, ih h.2,
        List.singleton_append]

theorem joined_ne_nil {t : List Char} {ts : List (List Char)} (h : IsItem t) : joined (t :: ts) ≠ [] := by
  obtain ⟨c, r, rfl⟩ := List.exists_cons_of_ne_nil h.1
  cases ts with
  | nil => simp [joined_singleton]
  | cons u ts => simp [joined_cons_cons]

/-- a list is a value of one line -/
theorem joined_value {ts : List (List Char)} (h : ∀ t ∈ ts, IsItem t) : Trimmed (joined ts) ∧ '\n' ∉ joined ts := by
  induction ts with
  | nil => exact ⟨⟨fun _ hc => absurd hc (by simp [joined]), fun _ hc => absurd hc (by simp [joined])⟩, List.not_mem_nil⟩
  | cons t ts ih =>
    rw [List.forall_mem_cons] at h
    have hline : '\n' ∉ t := fun hmem => absurd (h.1.2 _ hmem).1 (by decide)
    have htrimmed : Trimmed t := trimmed_of_noBlank fun c hc => (h.1.2 c hc).1
    cases ts with
    | nil =>
      rw [joined_singleton]
      exact ⟨htrimmed, hline⟩
    | cons u ts =>
      obtain ⟨hmore, hmoreLine⟩ := ih h.2
      obtain ⟨c, r, hcons⟩ := List.exists_cons_of_ne_nil h.1.1
      have hfilled : joined (u :: ts) ≠ [] := joined_ne_nil (List.forall_mem_cons.mp h.2).1
      obtain ⟨d, s, hjoined⟩ := List.exists_cons_of_ne_nil hfilled
      rw [joined_cons_cons]
      refine ⟨⟨fun e he => ?_, fun e he => ?_⟩, by simp [hline, hmoreLine]⟩
      · refine htrimmed.1 e ?_
        rw [hcons] at he ⊢
        exact he
      · refine hmore.2 e ?_
        rw [hjoined] at he ⊢
        rwa [List.getLast?_append_of_ne_nil _ (List.cons_ne_nil _ _), List.getLast?_cons_cons,
          List.getLast?_cons_cons] at he

/-! ## Lines that follow each other -/

/-- lines make a place and a profile of a place and a profile, whatever follows them and wherever they stand -/
def Takes (place : Place) (p : Profile) (ls : List (List Char)) (next : Place) (q : Profile) : Prop :=
  ∀ line rest, readLines place p line (ls ++ rest) = readLines next q (line + ls.length) rest

theorem takes_nil (place : Place) (p : Profile) : Takes place p [] place p := fun _ _ => rfl

theorem Takes.append {a b c : Place} {p q r : Profile} {xs ys : List (List Char)} (h : Takes a p xs b q)
    (h' : Takes b q ys c r) : Takes a p (xs ++ ys) c r := by
  intro line rest
  rw [List.append_assoc, h, h', List.length_append, Nat.add_assoc]

theorem takes_line {place next : Place} {p q : Profile} {l : List Char}
    (h : ∀ line, step place p line (Line.of l) = .ok (next, q)) : Takes place p [l] next q := by
  intro line rest
  rw [List.singleton_append, readLines, h]
  rfl

theorem Takes.cons {a b c : Place} {p q r : Profile} {l : List Char} {ls : List (List Char)} (h : Takes a p [l] b q)
    (h' : Takes b q ls c r) : Takes a p (l :: ls) c r := h.append h'

theorem takes_interface {p : Profile} {s : InterfaceSection} {key : String} {value : List Char} (hkey : IsKey key.toList)
    (hvalue : Trimmed value) (h : ∀ line, setInterface p.interface line key.toList value = .ok s) :
    Takes .interface p [entry key value] .interface { p with interface := s } := by
  refine takes_line fun line => ?_
  rw [of_entry hkey hvalue, step, h]
  rfl

theorem takes_peer {p : Profile} {s : PeerSection} {key : String} {value : List Char} (hkey : IsKey key.toList)
    (hvalue : Trimmed value) (h : ∀ line, setPeer p.peer line key.toList value = .ok s) :
    Takes .peer p [entry key value] .peer { p with peer := s } := by
  refine takes_line fun line => ?_
  rw [of_entry hkey hvalue, step, h]
  rfl

/-- a line that may be missing -/
theorem takes_optionalEntry {place : Place} {p q : Profile} {key : String} {value : Option (List Char)}
    (hsome : ∀ v, value = some v → Takes place p [entry key v] place q) (hnone : value = none → q = p) :
    Takes place p (optionalEntry key value) place q := by
  cases value with
  | none =>
    rw [hnone rfl]
    exact takes_nil place p
  | some v => exact hsome v rfl

/-- a list that may be left out when it is empty -/
theorem takes_entries {omitEmpty : Bool} {place : Place} {p q : Profile} {key : String} {ts : List (List Char)}
    (hline : Takes place p [entry key (joined ts)] place q) (hnone : ts = [] → q = p) :
    Takes place p (entries omitEmpty key ts) place q := by
  unfold entries
  split_ifs with hempty
  · obtain ⟨-, hempty⟩ := Bool.and_eq_true_iff.mp hempty
    rw [hnone (List.isEmpty_iff.mp hempty)]
    exact takes_nil place p
  · exact hline

end EdgeTunnel.Profile
