import NodeSchema.FileTree
import NodeSchema.Proofs.Success

namespace NodeSchema.FileTree

variable {tree later before after : FileTree} {path : Path} {place target parts : List String}

theorem follow_cons_eq_ok_iff {part : String} :
    tree.follow place (part :: parts) = .ok target ↔ tree.get? place = some .directory ∧
      (part = ".." ∧ tree.follow place.dropLast parts = .ok target ∨
        part ≠ ".." ∧ part.utf8ByteSize ≤ 255 ∧ tree.follow (place ++ [part]) parts = .ok target) := by
  rw [follow]
  split
  next h => simp [h]
  next text h => simp [h]
  next h =>
    rw [and_iff_right h]
    by_cases hup : part = ".."
    · simp [hup]
    · by_cases hlong : 255 < part.utf8ByteSize
      · simp [hup, hlong, Nat.not_le.2 hlong]
      · simp [hup, hlong, Nat.not_lt.1 hlong]

theorem follow_append (tree : FileTree) (place parts rest : List String) :
    tree.follow place (parts ++ rest) =
      tree.follow place parts >>= fun place => tree.follow place rest := by
  induction parts generalizing place with
  | nil => rfl
  | cons part parts ih =>
    rw [List.cons_append, follow, follow]
    split
    next => rfl
    next => rfl
    next =>
      split
      next => exact ih _
      next =>
        split
        next => rfl
        next => exact ih _

theorem exists_of_follow_concat {name : String} (hup : name ≠ "..")
    (h : tree.follow place (parts ++ [name]) = .ok target) :
    ∃ directory, tree.follow place parts = .ok directory ∧ target = directory ++ [name] := by
  rw [follow_append, bind_eq_ok_iff] at h
  obtain ⟨directory, hd, h⟩ := h
  obtain ⟨-, h⟩ := follow_cons_eq_ok_iff.1 h
  rcases h with ⟨rfl, -⟩ | ⟨-, -, h⟩
  · exact absurd rfl hup
  · exact ⟨directory, hd, (Except.ok.inj h).symm⟩

theorem enter_eq_ok_iff : tree.enter place parts = .ok target ↔
    tree.follow place parts = .ok target ∧ tree.get? target = some .directory := by
  rw [enter, bind_eq_ok_iff]
  constructor
  · intro h
    obtain ⟨target', hf, h⟩ := h
    split at h
    next => cases h
    next => cases h
    next hd =>
      obtain rfl := Except.ok.inj h
      exact ⟨hf, hd⟩
  · intro h
    obtain ⟨hf, hd⟩ := h
    use target, hf
    rw [hd]

theorem locate_eq_ok_iff : tree.locate path = .ok place ↔
    tree.follow (tree.start path) path.parts = .ok place ∧
      (path.ending = .dot → tree.get? place = some .directory) := by
  rw [locate]
  split
  next hdot => rw [enter_eq_ok_iff, imp_iff_right hdot]
  next hdot => rw [and_iff_left fun h => absurd h hdot]

/-- The directories of a tree are still there later, and paths start where they started. -/
structure Keeps (tree later : FileTree) : Prop where
  home : later.home = tree.home
  directory : ∀ place, tree.get? place = some .directory → later.get? place = some .directory

theorem Keeps.refl (tree : FileTree) : tree.Keeps tree := ⟨rfl, fun _ h => h⟩

theorem Keeps.trans {last : FileTree} (h : tree.Keeps later) (h' : later.Keeps last) :
    tree.Keeps last :=
  ⟨h'.home.trans h.home, fun place hd => h'.directory place (h.directory place hd)⟩

theorem keeps_put (h : tree.get? place ≠ some .directory) (entry : Entry) :
    tree.Keeps (tree.put place entry) := by
  constructor
  case home => rfl
  case directory =>
    intro other hd
    have hne : other ≠ place := fun he => h (he ▸ hd)
    rw [get?_put_of_ne _ _ hne, hd]

theorem Keeps.start (h : tree.Keeps later) (path : Path) : later.start path = tree.start path := by
  rw [FileTree.start, FileTree.start, h.home]

/-- Following names only asks for directories, so that it leads to the same place later. -/
theorem Keeps.follow (h : tree.Keeps later) (hf : tree.follow place parts = .ok target) :
    later.follow place parts = .ok target := by
  induction parts generalizing place with
  | nil => exact hf
  | cons part parts ih =>
    obtain ⟨hd, hf⟩ := follow_cons_eq_ok_iff.1 hf
    apply follow_cons_eq_ok_iff.2
    use h.directory place hd
    rcases hf with ⟨hup, hf⟩ | ⟨hup, hsize, hf⟩
    · exact .inl ⟨hup, ih hf⟩
    · exact .inr ⟨hup, hsize, ih hf⟩

theorem Keeps.locate (h : tree.Keeps later) (hl : tree.locate path = .ok place) :
    later.locate path = .ok place := by
  obtain ⟨hf, hd⟩ := locate_eq_ok_iff.1 hl
  rw [locate_eq_ok_iff, h.start]
  exact ⟨h.follow hf, fun hdot => h.directory place (hd hdot)⟩

section Texts

variable {file text : String}

theorem pathFault?_eq_none_iff : pathFault? file = none ↔
    '\x00' ∉ file.toList ∧ file ≠ "" ∧ file.utf8ByteSize < 4096 := by
  simp only [pathFault?, List.contains_iff_mem]
  split
  next hnul => exact iff_of_false nofun fun h => h.1 hnul
  next hnul =>
    split
    next hempty => exact iff_of_false nofun fun h => h.2.1 hempty
    next hempty =>
      split
      next hlong => exact iff_of_false nofun fun h => Nat.not_lt.2 hlong h.2.2
      next hshort => exact iff_of_true rfl ⟨hnul, hempty, Nat.not_le.1 hshort⟩

theorem read_eq_ok_iff : tree.read file = .ok text ↔
    pathFault? file = none ∧ (Path.ofText file).ending = .name ∧
      ∃ place, tree.locate (.ofText file) = .ok place ∧ tree.get? place = some (.file text) := by
  rw [read]
  cases hfault : pathFault? file with
  | some fault => exact iff_of_false nofun nofun
  | none =>
    rw [and_iff_right rfl]
    simp only [bind_eq_ok_iff]
    constructor
    · intro h
      obtain ⟨place, hl, h⟩ := h
      split at h
      next => cases h
      next => cases h
      next text' hfile =>
        split at h
        next hend =>
          obtain rfl := Except.ok.inj h
          exact ⟨hend, place, hl, hfile⟩
        next => cases h
    · intro h
      obtain ⟨hend, place, hl, hfile⟩ := h
      use place, hl
      rw [hfile]
      exact if_pos hend

theorem write_eq_ok_iff : tree.write file text = .ok after ↔
    pathFault? file = none ∧ (Path.ofText file).ending = .name ∧
      ∃ place, tree.locate (.ofText file) = .ok place ∧ tree.get? place ≠ some .directory ∧
        after = tree.put place (.file text) := by
  rw [write]
  cases hfault : pathFault? file with
  | some fault => exact iff_of_false nofun nofun
  | none =>
    rw [and_iff_right rfl]
    simp only
    split
    next hend =>
      rw [hend]
      apply iff_of_false
      · intro h
        obtain ⟨-, -, h⟩ := bind_eq_ok_iff.1 h
        cases h
      · intro h
        cases h.1
    next hend =>
      rw [bind_eq_ok_iff]
      constructor
      · intro h
        obtain ⟨place, hl, h⟩ := h
        split at h
        next => cases h
        next hd =>
          -- A dot at the end would have led to a directory.
          have hdot : (Path.ofText file).ending ≠ .dot :=
            fun hdot => hd ((locate_eq_ok_iff.1 hl).2 hdot)
          have hname : (Path.ofText file).ending = .name := by
            cases he : (Path.ofText file).ending with
            | name => rfl
            | slash => exact absurd he hend
            | dot => exact absurd he hdot
          exact ⟨hname, place, hl, hd, (Except.ok.inj h).symm⟩
      · intro h
        obtain ⟨-, place, hl, hd, rfl⟩ := h
        exact ⟨place, hl, if_neg hd⟩

/-- The file that a path leads to holds a text, and all else is as it was before. -/
structure Stored (before : FileTree) (file text : String) (after : FileTree) : Prop where
  read : after.read file = .ok text
  home : after.home = before.home
  only : ∃ place, before.locate (.ofText file) = .ok place ∧
    before.get? place ≠ some .directory ∧ after.get? place = some (.file text) ∧
    ∀ other, other ≠ place → after.get? other = before.get? other

theorem get?_put_file (h : tree.get? place ≠ some .directory) (entry : Entry) :
    (tree.put place entry).get? place = some entry := by
  apply get?_put_self
  intro hroot
  exact h (if_pos hroot)

theorem stored_of_write (h : tree.write file text = .ok after) : tree.Stored file text after := by
  obtain ⟨hfault, hend, place, hl, hd, rfl⟩ := write_eq_ok_iff.1 h
  have hfile := get?_put_file hd (.file text)
  constructor
  case read => exact read_eq_ok_iff.2 ⟨hfault, hend, place, (keeps_put hd _).locate hl, hfile⟩
  case home => rfl
  case only => exact ⟨place, hl, hd, hfile, fun other hne => get?_put_of_ne tree _ hne⟩

end Texts

end NodeSchema.FileTree
