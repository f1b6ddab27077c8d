import NodeSchema.Proofs.Files.Places

namespace NodeSchema.FileTree

variable {tree later before after : FileTree} {path whole : Path}
  {place parts : List String} {written : List (List String)}

/-- A place that a path leads to, or a beginning of it. -/
def OnWay (tree : FileTree) (path : Path) (place : List String) : Prop :=
  ∃ parts, parts ≠ [] ∧ parts <+: path.parts ∧ tree.follow (tree.start path) parts = .ok place

theorem Keeps.onWay (h : tree.Keeps later) (ho : tree.OnWay path place) :
    later.OnWay path place := by
  obtain ⟨parts, hne, hp, hf⟩ := ho
  rw [OnWay, h.start]
  exact ⟨parts, hne, hp, h.follow hf⟩

/-- Outside of the places that are written to, a tree has grown by nothing but directories on the
way along a path. -/
structure Grown (before : FileTree) (path : Path) (written : List (List String))
    (after : FileTree) : Prop where
  keeps : before.Keeps after
  entry : ∀ place, place ∉ written → after.get? place = before.get? place ∨
    before.get? place = none ∧ after.get? place = some .directory ∧ after.OnWay path place

theorem Grown.refl (tree : FileTree) (path : Path) : tree.Grown path [] tree :=
  ⟨.refl tree, fun _ _ => .inl rfl⟩

theorem Grown.trans (h : before.Grown path [] tree) (h' : tree.Grown path written after) :
    before.Grown path written after := by
  use h.keeps.trans h'.keeps
  intro place hw
  rcases h.entry place List.not_mem_nil with hsame | ⟨hnone, hd, ho⟩
  · rw [← hsame]
    exact h'.entry place hw
  · exact .inr ⟨hnone, h'.keeps.directory place hd, h'.keeps.onWay ho⟩

theorem Grown.putDirectory (hnone : tree.get? place = none) (ho : tree.OnWay path place) :
    tree.Grown path [] (tree.put place .directory) := by
  have hd : tree.get? place ≠ some .directory := by simp [hnone]
  have hk := keeps_put hd .directory
  use hk
  intro other _
  by_cases he : other = place
  · subst he
    exact .inr ⟨hnone, get?_put_file hd _, hk.onWay ho⟩
  · exact .inl (get?_put_of_ne tree _ he)

theorem Grown.putFile (h : before.Grown path written tree)
    (hd : tree.get? place ≠ some .directory) (text : String) :
    before.Grown path (place :: written) (tree.put place (.file text)) := by
  have hk := keeps_put hd (.file text)
  use h.keeps.trans hk
  intro other hw
  rw [List.mem_cons, not_or] at hw
  rw [get?_put_of_ne tree _ hw.1]
  rcases h.entry other hw.2 with hsame | ⟨hnone, hd', ho⟩
  · exact .inl hsame
  · exact .inr ⟨hnone, hd', hk.onWay ho⟩

/-- The files outside of the places that are written to are the same as before. -/
theorem Grown.file_iff (h : before.Grown path written after) (hw : place ∉ written)
    {text : String} : after.get? place = some (.file text) ↔
      before.get? place = some (.file text) := by
  rcases h.entry place hw with hsame | ⟨hnone, hd, -⟩
  · rw [hsame]
  · apply iff_of_false
    · simp [hd]
    · simp [hnone]

theorem makeDirectory_eq_ok_iff : tree.makeDirectory path = .ok after ↔
    ∃ place, tree.locate path = .ok place ∧ tree.get? place = none ∧
      after = tree.put place .directory := by
  rw [makeDirectory, bind_eq_ok_iff]
  apply exists_congr
  intro place
  apply and_congr_right
  intro _
  cases h : tree.get? place with
  | none =>
    constructor
    · intro h
      exact ⟨rfl, (Except.ok.inj h).symm⟩
    · intro h
      obtain ⟨-, rfl⟩ := h
      rfl
  | some entry => exact iff_of_false nofun nofun

theorem grown_ensureDirectory (ha : path.absolute = whole.absolute) (hne : path.parts ≠ [])
    (hp : path.parts <+: whole.parts) (h : tree.ensureDirectory path = .ok after) :
    tree.Grown whole [] after := by
  rw [ensureDirectory] at h
  split at h
  next made hm =>
    obtain rfl := Except.ok.inj h
    obtain ⟨place, hl, hnone, rfl⟩ := makeDirectory_eq_ok_iff.1 hm
    have hstart : tree.start path = tree.start whole := by rw [start, start, ha]
    have hf := (locate_eq_ok_iff.1 hl).1
    rw [hstart] at hf
    exact .putDirectory hnone ⟨path.parts, hne, hp, hf⟩
  next =>
    split at h
    next =>
      obtain rfl := Except.ok.inj h
      exact .refl tree whole
    next => cases h

theorem ensureDirectory_of_directory (hl : tree.locate path = .ok place)
    (hd : tree.get? place = some .directory) : tree.ensureDirectory path = .ok tree := by
  have hmake : tree.makeDirectory path = .error .present := by
    rw [makeDirectory, hl]
    exact if_pos (Option.isSome_of_eq_some hd)
  have hthere : tree.isDirectory path = true := by simp [isDirectory, hl, hd]
  rw [ensureDirectory, hmake]
  exact if_pos hthere

theorem makeDirectoriesFrom_of_directory (hl : tree.locate path = .ok place)
    (hd : tree.get? place = some .directory) :
    tree.makeDirectoriesFrom path.absolute path.ending path.parts.reverse = (tree, .ok ()) := by
  cases hp : path.parts.reverse with
  | nil => rfl
  | cons part parents =>
    have hpath : (⟨path.absolute, (part :: parents).reverse, path.ending⟩ : Path) = path := by
      rw [← hp, List.reverse_reverse]
    rw [makeDirectoriesFrom]
    simp only [hpath, ensureDirectory_of_directory hl hd]

/-- Each call works on a beginning of the path, whose parts are given from the last to the first. -/
theorem grown_makeDirectoriesFrom (tree : FileTree) (ending : PathEnd)
    (hp : parts.reverse <+: whole.parts) :
    tree.Grown whole [] (tree.makeDirectoriesFrom whole.absolute ending parts).1 := by
  induction parts generalizing tree ending with
  | nil => exact .refl tree whole
  | cons part parents ih =>
    have hne : (part :: parents).reverse ≠ [] := by simp
    have hparents : parents.reverse <+: whole.parts := by
      rw [List.reverse_cons] at hp
      exact (List.prefix_append _ _).trans hp
    let path : Path := ⟨whole.absolute, (part :: parents).reverse, ending⟩
    have habsolute : path.absolute = whole.absolute := rfl
    have hensure {tree later : FileTree} (h : tree.ensureDirectory path = .ok later) :
        tree.Grown whole [] later := grown_ensureDirectory habsolute hne hp h
    rw [makeDirectoriesFrom]
    split
    next later h => exact hensure h
    next hmissing =>
      have hway := ih tree .name hparents
      split
      next later fault h =>
        rw [h] at hway
        exact hway
      next later h =>
        rw [h] at hway
        split
        next last hlast => exact hway.trans (hensure hlast)
        next => exact hway
    next => exact .refl tree whole

theorem grown_makeDirectories (tree : FileTree) (directory : String) :
    tree.Grown (.ofText directory) [] (tree.makeDirectories directory).1 := by
  rw [makeDirectories]
  split
  next => exact .refl tree _
  next =>
    split
    next => exact .refl tree _
    next =>
      apply grown_makeDirectoriesFrom
      simp only [List.reverse_reverse, List.prefix_rfl]

end NodeSchema.FileTree
