import TapeMachine.Host.Files

/-!
# Looking up paths

How far a path can be followed depends only on which paths lead to directories. Writing a file and
deleting one neither make a directory nor take one away, so they change nothing else that can be
looked up.
-/

namespace TapeMachine

namespace Path

theorem text_child (p : Path) (name : String) :
    (p.child name).text = String.join (p.anchor :: p.parts.map ("/" ++ ·)) ++ ("/" ++ name) := by
  simp [text, child, String.append_assoc]

theorem size_text_le_child (p : Path) (name : String) :
    p.text.utf8ByteSize ≤ (p.child name).text.utf8ByteSize := by
  rw [text_child, text]
  split
  · simp only [String.utf8ByteSize_append]
    have hslash : "/".utf8ByteSize = 1 := rfl
    omega
  · simp only [String.utf8ByteSize_append]
    omega

theorem size_text_child_le (p : Path) {name other : String}
    (h : name.utf8ByteSize ≤ other.utf8ByteSize) :
    (p.child name).text.utf8ByteSize ≤ (p.child other).text.utf8ByteSize := by
  simp only [text_child, String.utf8ByteSize_append]
  omega

@[simp] theorem parent_child (p : Path) (name : String) : (p.child name).parent = p := by
  simp [parent, child]

theorem child_parts_ne_nil (p : Path) (name : String) : (p.child name).parts ≠ [] := by
  simp [child]

theorem resolve_of_plain (workingDirectory : String) {written : List Char}
    (hslash : '/' ∉ written) (hplain : written ≠ [] ∧ written ≠ ['.'] ∧ written ≠ ['.', '.']) :
    resolve workingDirectory (String.ofList written) =
      (ofDirectory workingDirectory).child (String.ofList written) := by
  obtain ⟨hempty, hdot, hdots⟩ := hplain
  have hrelative : (String.ofList written).startsWith "/" = false := by
    rw [String.startsWith_string_eq_false_iff]
    rintro ⟨rest, heq⟩
    have hwritten : '/' :: rest = written := heq.trans String.toList_ofList
    exact hslash (by simp [← hwritten])
  have henter : (ofDirectory workingDirectory).enter (String.ofList written) =
      (ofDirectory workingDirectory).child (String.ofList written) := by
    simp [enter, ← String.toList_inj, hempty, hdot, hdots]
  rw [resolve, origin, hrelative, components, String.toList_ofList,
    pieces_of_slash_notMem hslash]
  exact henter

theorem child_inj (p : Path) {name other : String} :
    p.child name = p.child other ↔ name = other := by
  simp [child]

end Path

namespace Files

variable {f g k : Files} {p q : Path} {name other : String} {names : List String}

/-! ## What can be followed -/

theorem walk_cons_of_directory (h : f.find? p = some .directory) :
    f.walk p (name :: names) =
      if maxNameSize < name.utf8ByteSize then .error .nameTooLong
      else f.walk (p.enter name) names := by
  simp [walk, checkDirectory, h]

/-- A path that leads through anything but a directory ends there. -/
theorem walk_cons_of_not_directory (h : f.find? p ≠ some .directory) (name : String)
    (names : List String) :
    ∃ e, e ≠ FileError.nameTooLong ∧ f.walk p (name :: names) = .error e := by
  rcases hfind : f.find? p with _ | _ | data
  · exact ⟨.missing, by decide, by simp [walk, checkDirectory, hfind]⟩
  · exact absurd hfind h
  · exact ⟨.notDirectory, by decide, by simp [walk, checkDirectory, hfind]⟩

theorem walk_append (p : Path) (names rest : List String) :
    f.walk p (names ++ rest) = (f.walk p names).bind fun q => f.walk q rest := by
  induction names generalizing p with
  | nil => rfl
  | cons name names ih =>
      by_cases hp : f.find? p = some .directory
      · rw [List.cons_append, walk_cons_of_directory hp, walk_cons_of_directory hp]
        split
        · rfl
        · exact ih (p.enter name)
      · rw [List.cons_append]
        unfold walk checkDirectory
        rcases hfind : f.find? p with _ | _ | data
        · rfl
        · exact absurd hfind hp
        · rfl

theorem walk_singleton_eq_ok_iff :
    f.walk p [name] = .ok q ↔
      f.find? p = some .directory ∧ name.utf8ByteSize ≤ maxNameSize ∧ p.enter name = q := by
  by_cases hp : f.find? p = some .directory
  · rw [walk_cons_of_directory hp]
    split
    · next hname => simp [Nat.not_le.mpr hname]
    · next hname => simp [hp, Nat.le_of_not_lt hname, walk]
  · obtain ⟨e, _, he⟩ := walk_cons_of_not_directory hp name []
    simp [he, hp]

theorem reach_eq_ok_iff :
    f.reach p = .ok q ↔
      p.text.utf8ByteSize ≤ maxPathSize ∧ f.walk ⟨p.anchor, []⟩ p.parts = .ok q := by
  unfold reach
  split
  · next hsize => simp [Nat.not_le.mpr hsize]
  · next hsize => simp [Nat.le_of_not_lt hsize]

theorem isDirectory_eq_ok_true_iff :
    f.isDirectory p = .ok true ↔ ∃ q, f.reach p = .ok q ∧ f.find? q = some .directory := by
  unfold isDirectory
  rcases f.reach p with (_ | _ | _ | _) | q <;> simp

theorem isDirectory_eq_error_iff {e : FileError} :
    f.isDirectory p = .error e ↔ e = .nameTooLong ∧ f.reach p = .error .nameTooLong := by
  unfold isDirectory
  rcases f.reach p with (_ | _ | _ | _) | q <;> simp [eq_comm]

theorem isDirectory_of_lost {e : FileError} (he : e ≠ .nameTooLong) (h : f.reach p = .error e) :
    f.isDirectory p = .ok false := by
  unfold isDirectory
  rw [h]
  cases e <;> first | rfl | exact absurd rfl he

/-! ## What stands in a directory -/

theorem reach_child_eq_ok_iff :
    f.reach (p.child name) = .ok q ↔
      (p.child name).text.utf8ByteSize ≤ maxPathSize ∧ name.utf8ByteSize ≤ maxNameSize ∧
        ∃ r, f.reach p = .ok r ∧ f.find? r = some .directory ∧ r.enter name = q := by
  have hwalk : f.walk ⟨p.anchor, []⟩ (p.parts ++ [name]) = .ok q ↔
      ∃ r, f.walk ⟨p.anchor, []⟩ p.parts = .ok r ∧ f.walk r [name] = .ok q := by
    rw [walk_append]
    rcases f.walk ⟨p.anchor, []⟩ p.parts with e | r <;> simp [Except.bind]
  have hsize := p.size_text_le_child name
  rw [reach_eq_ok_iff]
  constructor
  · rintro ⟨hchild, hlast⟩
    obtain ⟨r, hr, hsingle⟩ := hwalk.mp hlast
    obtain ⟨hfind, hname, hq⟩ := walk_singleton_eq_ok_iff.mp hsingle
    exact ⟨hchild, hname, r, reach_eq_ok_iff.mpr ⟨Nat.le_trans hsize hchild, hr⟩, hfind, hq⟩
  · rintro ⟨hchild, hname, r, hreach, hfind, hq⟩
    have hsingle := walk_singleton_eq_ok_iff.mpr ⟨hfind, hname, hq⟩
    exact ⟨hchild, hwalk.mpr ⟨r, (reach_eq_ok_iff.mp hreach).2, hsingle⟩⟩

theorem isDirectory_of_reach_child (h : f.reach (p.child name) = .ok q) :
    f.isDirectory p = .ok true := by
  obtain ⟨_, _, r, hreach, hfind, _⟩ := reach_child_eq_ok_iff.mp h
  exact isDirectory_eq_ok_true_iff.mpr ⟨r, hreach, hfind⟩

theorem reach_child_of_size_le (hsize : name.utf8ByteSize ≤ other.utf8ByteSize)
    (h : f.reach (p.child other) = .ok q) : ∃ r, f.reach (p.child name) = .ok r := by
  obtain ⟨hother, hname, r, hreach, hfind, _⟩ := reach_child_eq_ok_iff.mp h
  have hchild := Nat.le_trans (p.size_text_child_le hsize) hother
  exact ⟨r.enter name, reach_child_eq_ok_iff.mpr
    ⟨hchild, Nat.le_trans hsize hname, r, hreach, hfind, rfl⟩⟩

/-- In a directory only the length of a name can keep one from looking it up. -/
theorem reach_child_of_isDirectory (h : f.isDirectory p = .ok true) (name : String) :
    f.reach (p.child name) = .error .nameTooLong ∨ ∃ q, f.reach (p.child name) = .ok q := by
  obtain ⟨r, hreach, hfind⟩ := isDirectory_eq_ok_true_iff.mp h
  by_cases hchild : maxPathSize < (p.child name).text.utf8ByteSize
  · exact .inl (if_pos hchild)
  · by_cases hname : maxNameSize < name.utf8ByteSize
    · refine .inl ?_
      have hwalk : f.walk ⟨p.anchor, []⟩ (p.parts ++ [name]) = .error .nameTooLong := by
        rw [walk_append, (reach_eq_ok_iff.mp hreach).2]
        exact (walk_cons_of_directory hfind).trans (if_pos hname)
      exact (if_neg hchild).trans hwalk
    · exact .inr ⟨r.enter name, reach_child_eq_ok_iff.mpr
        ⟨Nat.le_of_not_lt hchild, Nat.le_of_not_lt hname, r, hreach, hfind, rfl⟩⟩

/-- A name that is too long cannot be looked up, not even to learn that nothing is there. -/
theorem isDirectory_child_of_long (h : f.isDirectory p = .ok true)
    (hname : maxNameSize < name.utf8ByteSize) :
    f.isDirectory (p.child name) = .error .nameTooLong := by
  refine isDirectory_eq_error_iff.mpr ⟨rfl, ?_⟩
  rcases reach_child_of_isDirectory h name with hreach | ⟨q, hreach⟩
  · exact hreach
  · exact absurd (reach_child_eq_ok_iff.mp hreach).2.1 (Nat.not_le.mpr hname)

theorem parts_ne_nil_of_find? (h : f.find? p ≠ some .directory) : p.parts ≠ [] := by
  intro hnil
  exact h (by simp [find?, hnil])

/-! ## The same directories -/

/-- The same paths lead to directories. -/
def SameDirectories (f g : Files) : Prop :=
  ∀ p, f.find? p = some .directory ↔ g.find? p = some .directory

namespace SameDirectories

theorem refl (f : Files) : SameDirectories f f := fun _ => Iff.rfl

theorem symm (h : SameDirectories f g) : SameDirectories g f := fun p => (h p).symm

theorem trans (h : SameDirectories f g) (h' : SameDirectories g k) : SameDirectories f k :=
  fun p => (h p).trans (h' p)

/-- A walk that gets lost may do so for different reasons. -/
theorem walk_eq_or_lost (h : SameDirectories f g) (p : Path) (names : List String) :
    f.walk p names = g.walk p names ∨
      ∃ d ≠ FileError.nameTooLong, ∃ e ≠ FileError.nameTooLong,
        f.walk p names = .error d ∧ g.walk p names = .error e := by
  -- Both walks stand at one path all the time, so they leave the directories at the same name.
  induction names generalizing p with
  | nil => exact .inl rfl
  | cons name names ih =>
      by_cases hp : f.find? p = some .directory
      · rw [walk_cons_of_directory hp, walk_cons_of_directory ((h p).mp hp)]
        split
        · exact .inl rfl
        · exact ih (p.enter name)
      · obtain ⟨d, hd, hf⟩ := walk_cons_of_not_directory hp name names
        have hp' := fun hq => hp ((h p).mpr hq)
        obtain ⟨e, he, hg⟩ := walk_cons_of_not_directory hp' name names
        exact .inr ⟨d, hd, e, he, hf, hg⟩

theorem reach_eq_or_lost (h : SameDirectories f g) (p : Path) :
    f.reach p = g.reach p ∨
      ∃ d ≠ FileError.nameTooLong, ∃ e ≠ FileError.nameTooLong,
        f.reach p = .error d ∧ g.reach p = .error e := by
  unfold reach
  split
  · exact .inl rfl
  · exact h.walk_eq_or_lost _ _

theorem reach_eq_ok_iff (h : SameDirectories f g) : f.reach p = .ok q ↔ g.reach p = .ok q := by
  rcases h.reach_eq_or_lost p with heq | ⟨d, _, e, _, hf, hg⟩
  · rw [heq]
  · simp [hf, hg]

theorem reach_eq_nameTooLong_iff (h : SameDirectories f g) :
    f.reach p = .error .nameTooLong ↔ g.reach p = .error .nameTooLong := by
  rcases h.reach_eq_or_lost p with heq | ⟨d, hd, e, he, hf, hg⟩
  · rw [heq]
  · simp [hf, hg, hd, he]

theorem isDirectory_eq (h : SameDirectories f g) (p : Path) :
    f.isDirectory p = g.isDirectory p := by
  rcases h.reach_eq_or_lost p with heq | ⟨d, hd, e, he, hf, hg⟩
  · unfold isDirectory
    rw [heq]
    cases g.reach p with
    | error e => cases e <;> rfl
    | ok q => simp [h q]
  · rw [isDirectory_of_lost hd hf, isDirectory_of_lost he hg]

theorem insert (hp : f.find? p ≠ some .directory) (data : List UInt8) :
    SameDirectories f (f.insert p (.file data)) := by
  intro q
  by_cases hq : q = p
  · subst hq
    rw [find?_insert_self f _ (parts_ne_nil_of_find? hp)]
    simp [hp]
  · rw [find?_insert_ne f _ hq]

theorem erase (hp : f.find? p ≠ some .directory) : SameDirectories f (f.erase p) := by
  intro q
  by_cases hq : q = p
  · subst hq
    rw [find?_erase_self f (parts_ne_nil_of_find? hp)]
    simp [hp]
  · rw [find?_erase_ne f hq]

end SameDirectories

/-! ## Trees -/

/-- Every entry stands in a directory, under a name that can be looked up. -/
def IsTree (f : Files) : Prop := ∀ entry ∈ f, ∃ q, f.reach entry.1 = .ok q

theorem isTree_iff_isOk : f.IsTree ↔ ∀ entry ∈ f, (f.reach entry.1).isOk = true := by
  have hok : ∀ x : Except FileError Path, x.isOk = true ↔ ∃ q, x = .ok q := by
    rintro (e | q) <;> simp [Except.isOk, Except.toBool]
  simp only [IsTree, hok]

instance (f : Files) : Decidable f.IsTree := decidable_of_iff' _ isTree_iff_isOk

namespace IsTree

theorem reach_of_find? (h : f.IsTree) (hp : p.parts ≠ []) {entry : Entry}
    (hfind : f.find? p = some entry) : ∃ q, f.reach p = .ok q := by
  have hlookup : (f.lookup p).isSome := by
    rw [find?, List.isEmpty_eq_false_iff.mpr hp] at hfind
    exact Option.isSome_of_eq_some hfind
  obtain ⟨listed, hmem, heq⟩ := List.lookup_isSome_iff.mp hlookup
  rw [eq_of_beq heq]
  exact h listed hmem

theorem find?_child_of_not_isDirectory (h : f.IsTree) (hp : f.isDirectory p ≠ .ok true) :
    f.find? (p.child name) = none := by
  rcases hfind : f.find? (p.child name) with _ | entry
  · rfl
  · obtain ⟨q, hq⟩ := h.reach_of_find? (p.child_parts_ne_nil name) hfind
    exact absurd (isDirectory_of_reach_child hq) hp

theorem insert (h : f.IsTree) (hp : f.find? p ≠ some .directory) (hreach : f.reach p = .ok q)
    (data : List UInt8) : (f.insert p (.file data)).IsTree := by
  have hsame := SameDirectories.insert hp data
  intro entry hmem
  rcases List.mem_append.mp hmem with hold | hnew
  · obtain ⟨r, hr⟩ := h entry (List.mem_filter.mp hold).1
    exact ⟨r, hsame.reach_eq_ok_iff.mp hr⟩
  · obtain rfl : entry = (p, .file data) := List.mem_singleton.mp hnew
    exact ⟨q, hsame.reach_eq_ok_iff.mp hreach⟩

theorem erase (h : f.IsTree) (hp : f.find? p ≠ some .directory) : (f.erase p).IsTree := by
  intro entry hmem
  obtain ⟨r, hr⟩ := h entry (List.mem_filter.mp hmem).1
  exact ⟨r, (SameDirectories.erase hp).reach_eq_ok_iff.mp hr⟩

end IsTree

/-! ## Changes -/

theorem write_eq_ok_iff {data : List UInt8} :
    f.write p data = .ok g ↔
      (∃ q, f.reach p = .ok q) ∧ f.find? p ≠ some .directory ∧ f.insert p (.file data) = g := by
  unfold write
  rcases f.reach p with e | q
  · simp
  · rcases f.find? p with _ | _ | old <;> simp

/-- Where a path can be looked up, something stands there after a file was to be written. -/
theorem find?_of_write (h : f.reach p = .ok q) (data : List UInt8) :
    ((f.write p data).toOption.getD f).find? p ≠ none := by
  by_cases hp : f.find? p = some .directory
  · simp [write, h, hp, Except.toOption]
  · have hwrite : f.write p data = .ok (f.insert p (.file data)) :=
      write_eq_ok_iff.mpr ⟨⟨q, h⟩, hp, rfl⟩
    have hfind : (f.insert p (.file data)).find? p = some (.file data) :=
      find?_insert_self f _ (parts_ne_nil_of_find? hp)
    simp [hwrite, hfind, Except.toOption]

/-- A file is only deleted where it can be looked up. -/
theorem eq_or_eq_erase_of_remove (h : f.remove p = .ok g) :
    g = f ∧ (f.reach p = .error .missing ∨ f.find? p = none) ∨
      f.find? p ≠ some .directory ∧ g = f.erase p := by
  unfold remove at h
  split at h
  case h_1 hreach =>
    cases h
    exact .inl ⟨rfl, .inl hreach⟩
  case h_2 => cases h
  case h_3 =>
    split at h
    case h_1 => cases h
    case h_2 hfind =>
      obtain rfl : f.erase p = g := Except.ok.inj h
      exact .inr ⟨by simp [hfind], rfl⟩
    case h_3 hfind =>
      cases h
      exact .inl ⟨rfl, .inr hfind⟩

/-- In a directory two things can prevent a deletion: a long name, or a directory of that name. -/
theorem remove_child_eq_error_iff (h : f.isDirectory p = .ok true) {e : FileError} :
    f.remove (p.child name) = .error e ↔
      f.reach (p.child name) = .error .nameTooLong ∧ e = .nameTooLong ∨
        (∃ q, f.reach (p.child name) = .ok q) ∧ f.find? (p.child name) = some .directory ∧
          e = .isDirectory := by
  unfold remove
  rcases reach_child_of_isDirectory h name with hreach | ⟨q, hreach⟩
  · simp only [hreach]
    simp [eq_comm]
  · rcases hfind : f.find? (p.child name) with _ | _ | data <;> simp [hreach, eq_comm]

theorem SameDirectories.remove_child_eq_error_iff (hsame : SameDirectories f g)
    (h : f.isDirectory p = .ok true) {e : FileError} :
    f.remove (p.child name) = .error e ↔ g.remove (p.child name) = .error e := by
  have hg : g.isDirectory p = .ok true := (hsame.isDirectory_eq p).symm.trans h
  rw [Files.remove_child_eq_error_iff h, Files.remove_child_eq_error_iff hg,
    hsame.reach_eq_nameTooLong_iff, hsame (p.child name)]
  simp only [hsame.reach_eq_ok_iff]

/-- What has become of files that were changed at some paths only, where no directory is made or
taken away. -/
structure ChangedOnlyAt (paths : List Path) (f g : Files) : Prop where
  elsewhere : ∀ p ∉ paths, g.find? p = f.find? p
  directories : SameDirectories f g
  tree : f.IsTree → g.IsTree

namespace ChangedOnlyAt

variable {paths : List Path}

theorem refl (paths : List Path) (f : Files) : ChangedOnlyAt paths f f where
  elsewhere := fun _ _ => rfl
  directories := .refl f
  tree := id

theorem trans (h : ChangedOnlyAt paths f g) (h' : ChangedOnlyAt paths g k) :
    ChangedOnlyAt paths f k where
  elsewhere := fun p hp => (h'.elsewhere p hp).trans (h.elsewhere p hp)
  directories := h.directories.trans h'.directories
  tree := fun ht => h'.tree (h.tree ht)

theorem mono {more : List Path} (h : ChangedOnlyAt paths f g) (hsub : paths ⊆ more) :
    ChangedOnlyAt more f g where
  elsewhere := fun p hp => h.elsewhere p fun hmem => hp (hsub hmem)
  directories := h.directories
  tree := h.tree

theorem write {data : List UInt8} (h : f.write p data = .ok g) : ChangedOnlyAt [p] f g := by
  obtain ⟨⟨q, hreach⟩, hp, rfl⟩ := write_eq_ok_iff.mp h
  refine ⟨?_, .insert hp data, fun ht => ht.insert hp hreach data⟩
  intro r hr
  exact find?_insert_ne f _ (List.ne_of_not_mem_cons hr)

theorem remove (h : f.remove p = .ok g) : ChangedOnlyAt [p] f g := by
  rcases eq_or_eq_erase_of_remove h with ⟨rfl, _⟩ | ⟨hp, rfl⟩
  · exact .refl [p] g
  · refine ⟨?_, .erase hp, fun ht => ht.erase hp⟩
    intro r hr
    exact find?_erase_ne f (List.ne_of_not_mem_cons hr)

end ChangedOnlyAt

theorem find?_of_remove_child (ht : f.IsTree) (h : f.remove (p.child name) = .ok g) :
    g.find? (p.child name) = none := by
  rcases eq_or_eq_erase_of_remove h with ⟨rfl, hreach | hfind⟩ | ⟨_, rfl⟩
  · rcases hfind : g.find? (p.child name) with _ | entry
    · rfl
    · obtain ⟨q, hq⟩ := ht.reach_of_find? (p.child_parts_ne_nil name) hfind
      simp [hq] at hreach
  · exact hfind
  · exact find?_erase_self f (p.child_parts_ne_nil name)

end Files

end TapeMachine
