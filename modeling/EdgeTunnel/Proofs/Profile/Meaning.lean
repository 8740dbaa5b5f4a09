/-
A profile is read line by line to what its lines mean together.

What the lines read so far mean is a profile, and one more line takes it to what they mean with that line (`step_eq`): the
last value of a key takes the place of the one before it, and the items of a list join those before them. Reading stops at
the first bad line, so by induction on the lines a whole file is read to its meaning (`readLines_eq`).

- `parse_eq_meaning`: the reader gives the meaning of every text.
-/
import EdgeTunnel.Proofs.Profile.Items
import EdgeTunnel.Proofs.Profile.LineForms

namespace EdgeTunnel.Profile

open Text

/-! ## Sections and numbers of lines -/

theorem after_cons (start : Place) (l : Line) (ls : List Line) : start.after (l :: ls) = (start.after [l]).after ls := by
  cases l with
  | header place => exact List.getLastD_cons
  | skipped => rfl
  | pair key value => rfl
  | malformed => rfl

theorem placed_cons (start : Place) (first : Nat) (l : Line) (ls : List Line) :
    placed start first (l :: ls) = ⟨first, start, l⟩ :: placed (start.after [l]) (first + 1) ls := by
  rw [placed, List.mapIdx_cons, placed]
  congr 1
  refine congrArg (List.mapIdx · ls) (funext fun i => funext fun l' => ?_)
  rw [List.take_succ_cons, after_cons, Nat.add_right_comm, Nat.add_assoc]

/-! ## Values so far -/

theorem values_cons (l : Placed) (ls : List Placed) (place : Place) (key : String) :
    values (l :: ls) place key = values [l] place key ++ values ls place key := by
  rw [values, ← List.singleton_append, List.filterMap_append, ← values, ← values]

theorem listed_cons (l : Placed) (ls : List Placed) (place : Place) (key : String) :
    listed (l :: ls) place key = listed [l] place key ++ listed ls place key := by
  rw [listed, values_cons, List.flatMap_append, ← listed, ← listed]

theorem latest_cons {α : Type} (l : Placed) (ls : List Placed) (place : Place) (key : String) (read : List Char → α)
    (old : α) :
    latest (l :: ls) place key read old = latest ls place key read (latest [l] place key read old) := by
  simp only [latest, values_cons l ls, List.map_append, List.getLastD_eq_getLast?, List.getLast?_append, Option.getD_or]

theorem interfaceWith_cons (s : InterfaceSection) (l : Placed) (ls : List Placed) :
    interfaceWith s (l :: ls) = interfaceWith (interfaceWith s [l]) ls := by
  simp only [interfaceWith, latest_cons l ls, listed_cons l ls, List.filterMap_append, List.append_assoc]

theorem peerWith_cons (s : PeerSection) (l : Placed) (ls : List Placed) :
    peerWith s (l :: ls) = peerWith (peerWith s [l]) ls := by
  simp only [peerWith, latest_cons l ls, listed_cons l ls, List.filterMap_append, List.append_assoc]

/-! ## One line -/

theorem values_pair (n : Nat) (stands place : Place) (name value : List Char) (key : String) :
    values [⟨n, stands, .pair name value⟩] place key =
      if stands = place ∧ String.ofList (lower name) = key then [value] else [] := by
  simp only [values, List.filterMap_cons, List.filterMap_nil, Placed.value?]
  split_ifs <;> rfl

theorem listed_pair (n : Nat) (stands place : Place) (name value : List Char) (key : String) :
    listed [⟨n, stands, .pair name value⟩] place key =
      if stands = place ∧ String.ofList (lower name) = key then items value else [] := by
  rw [listed, values_pair]
  split_ifs
  · exact List.flatMap_singleton ..
  · rfl

theorem latest_pair {α : Type} (n : Nat) (stands place : Place) (name value : List Char) (key : String)
    (read : List Char → α) (old : α) :
    latest [⟨n, stands, .pair name value⟩] place key read old =
      if stands = place ∧ String.ofList (lower name) = key then read value else old := by
  rw [latest, values_pair]
  split_ifs <;> rfl

theorem setInterface_eq (s : InterfaceSection) (n : Nat) (key value : List Char) :
    setInterface s n key value = match offending? .interface (String.ofList (lower key)) value with
      | some t => .error (.value n (String.ofList t))
      | none => .ok (interfaceWith s [⟨n, .interface, .pair key value⟩]) := by
  unfold setInterface
  split
  · rename_i hkey
    simp [hkey, offending?, interfaceWith, latest_pair, listed_pair]
  · rename_i hkey
    simp only [hkey, offending?, deviceAddresses_eq, interfaceWith, latest_pair, listed_pair]
    cases (items value).find? _ with
    | none => simp [bind, Except.bind, pure, Except.pure]
    | some item => rfl
  · rename_i hkey
    simp [hkey, offending?, interfaceWith, latest_pair, listed_pair]
  · rename_i hkey
    simp only [hkey, offending?, unreadNumber?, number, interfaceWith, latest_pair, listed_pair]
    cases readUnsigned (2 ^ 64 - 1) value with
    | none => simp [bind, Except.bind]
    | some m => simp [bind, Except.bind, pure, Except.pure]
  · rename_i hprivate haddress hdns hmtu
    simp [offending?, interfaceWith, latest_pair, listed_pair, if_neg hprivate, if_neg haddress, if_neg hdns, if_neg hmtu]

theorem setPeer_eq (s : PeerSection) (n : Nat) (key value : List Char) :
    setPeer s n key value = match offending? .peer (String.ofList (lower key)) value with
      | some t => .error (.value n (String.ofList t))
      | none => .ok (peerWith s [⟨n, .peer, .pair key value⟩]) := by
  unfold setPeer
  split
  · rename_i hkey
    simp [hkey, offending?, peerWith, latest_pair, listed_pair]
  · rename_i hkey
    simp [hkey, offending?, peerWith, latest_pair, listed_pair]
  · rename_i hkey
    simp only [hkey, offending?, cidrs_eq, peerWith, latest_pair, listed_pair]
    cases (items value).find? _ with
    | none => simp [bind, Except.bind, pure, Except.pure]
    | some item => rfl
  · rename_i hkey
    simp [hkey, offending?, peerWith, latest_pair, listed_pair]
  · rename_i hkey
    simp only [hkey, offending?, unreadNumber?, number, peerWith, latest_pair, listed_pair]
    cases readUnsigned 65535 value with
    | none => simp [bind, Except.bind]
    | some m => simp [bind, Except.bind, pure, Except.pure]
  · rename_i hpublic hpreshared hallowed hendpoint hkeepalive
    simp [offending?, peerWith, latest_pair, listed_pair, if_neg hpublic, if_neg hpreshared, if_neg hallowed, if_neg hendpoint,
      if_neg hkeepalive]

/-! ## Whole profiles -/

theorem profileWith_cons (p : Profile) (l : Placed) (ls : List Placed) :
    profileWith p (l :: ls) = profileWith (profileWith p [l]) ls := by
  simp only [profileWith, interfaceWith_cons p.interface l ls, peerWith_cons p.peer l ls]

theorem profileWith_nil (p : Profile) : profileWith p [] = p := by
  simp [profileWith, interfaceWith, peerWith, latest, listed, values]

/-- a line that has no value in a section leaves it as it is -/
theorem interfaceWith_silent (s : InterfaceSection) {l : Placed} (h : ∀ key, l.value? .interface key = none) :
    interfaceWith s [l] = s := by
  simp [interfaceWith, latest, listed, values, h]

theorem peerWith_silent (s : PeerSection) {l : Placed} (h : ∀ key, l.value? .peer key = none) : peerWith s [l] = s := by
  simp [peerWith, latest, listed, values, h]

theorem value?_of_ne {n : Nat} {stands place : Place} (h : stands ≠ place) (l : Line) (key : String) :
    Placed.value? place key ⟨n, stands, l⟩ = none := by
  cases l with
  | pair name value => exact if_neg fun hand => h hand.1
  | _ => rfl

/-- **One line** adds what it says when it is not bad, and is the error when it is. -/
theorem step_eq (place : Place) (p : Profile) (n : Nat) (l : Line) :
    step place p n l = match Placed.fault? ⟨n, place, l⟩ with
      | some e => .error e
      | none => .ok (place.after [l], profileWith p [⟨n, place, l⟩]) := by
  cases l with
  | malformed => rfl
  | skipped =>
    rw [profileWith, interfaceWith_silent _ fun _ => rfl, peerWith_silent _ fun _ => rfl]
    rfl
  | header next =>
    rw [profileWith, interfaceWith_silent _ fun _ => rfl, peerWith_silent _ fun _ => rfl]
    rfl
  | pair key value =>
    cases place with
    | outside => rfl
    | other =>
      rw [profileWith, interfaceWith_silent _ (value?_of_ne (by decide) _), peerWith_silent _ (value?_of_ne (by decide) _)]
      rfl
    | interface =>
      rw [profileWith, peerWith_silent _ (value?_of_ne (by decide) _), step, setInterface_eq]
      simp only [Placed.fault?]
      cases offending? .interface (String.ofList (lower key)) value <;> rfl
    | peer =>
      rw [profileWith, interfaceWith_silent _ (value?_of_ne (by decide) _), step, setPeer_eq]
      simp only [Placed.fault?]
      cases offending? .peer (String.ofList (lower key)) value <;> rfl

/-! ## All lines -/

/-- **Lines are read to what they mean together**, or to the error of the first bad one. -/
theorem readLines_eq (place : Place) (p : Profile) (n : Nat) (ls : List (List Char)) :
    readLines place p n ls = match (placed place n (ls.map Line.of)).findSome? Placed.fault? with
      | some e => .error e
      | none => .ok (profileWith p (placed place n (ls.map Line.of))) := by
  induction ls generalizing place p n with
  | nil => exact congrArg Except.ok (profileWith_nil p).symm
  | cons raw ls ih =>
    rw [readLines, step_eq, List.map_cons, placed_cons, List.findSome?_cons, profileWith_cons p _ (placed _ _ _)]
    cases Placed.fault? ⟨n, place, Line.of raw⟩ with
    | some e => rfl
    | none => exact ih ..

/-- **A profile file is read to its meaning.** What a line is, is told from its trimmed text, and the text of a profile is read
as what its lines mean together. -/
theorem parse_eq_meaning :
    (∀ raw l, Line.of raw = l ↔ Line.Form (trim raw) l) ∧ ∀ text, parse text = meaning text := by
  refine ⟨fun _ _ => of_eq_iff, fun text => ?_⟩
  rw [parse, readLines_eq, meaning]
  cases (placed .outside 1 ((lines text.toList).map Line.of)).findSome? Placed.fault? with
  | some e => rfl
  | none =>
    simp only [bind, Except.bind, complete, String.isEmpty_iff]

end EdgeTunnel.Profile
