import NodeSchema.Build
import NodeSchema.Proofs.Files.Directories
import NodeSchema.Proofs.Verification.Acceptance

namespace NodeSchema

namespace Path

theorem splitOn_append_cons (front rest : List Char) :
    (front ++ '/' :: rest).splitOn '/' = front.splitOn '/' ++ rest.splitOn '/' := by
  simp only [List.splitOn_eq_splitOnP]
  exact List.splitOnP_append_cons _ _ (beq_self_eq_true _)

theorem splitOn_of_not_mem {chars : List Char} (h : '/' ∉ chars) :
    chars.splitOn '/' = [chars] := by
  rw [List.splitOn_eq_splitOnP]
  apply List.splitOnP_eq_singleton
  intro c hc
  exact beq_eq_false_iff_ne.2 fun he => h (he ▸ hc)

/-- A name that stands for one step down. -/
structure IsName (name : String) : Prop where
  short : name.utf8ByteSize ≤ 255
  no_slash : '/' ∉ name.toList
  ne_empty : name ≠ ""
  ne_dot : name ≠ "."
  ne_up : name ≠ ".."

theorem parts_append (front rest : String) :
    (ofText (front ++ "/" ++ rest)).parts = (ofText front).parts ++ (ofText rest).parts := by
  have hchars : (front ++ "/" ++ rest).toList = front.toList ++ '/' :: rest.toList := by simp
  simp only [ofText, hchars, splitOn_append_cons, List.map_append, List.filter_append]

theorem absolute_append {front : String} (h : front ≠ "") (rest : String) :
    (ofText (front ++ rest)).absolute = (ofText front).absolute := by
  have hne : front.toList ≠ [] := by simpa using h
  obtain ⟨c, chars, hc⟩ := List.exists_cons_of_ne_nil hne
  simp [ofText, hc]

theorem exists_of_getLast? {directory : String} (h : directory.toList.getLast? = some '/') :
    ∃ front, directory = front ++ "/" := by
  obtain ⟨chars, hc⟩ := List.getLast?_eq_some_iff.1 h
  use String.ofList chars
  rw [← String.toList_inj, hc]
  simp

variable {name : String}

theorem IsName.ofPieces (h : IsName name) (pieces : List String) :
    PathEnd.ofPieces (pieces ++ [name]) = .name := by
  simp [PathEnd.ofPieces, List.filter_append, h.ne_empty, h.ne_dot]

theorem IsName.ofText_self (h : IsName name) : ofText name = ⟨false, [name], .name⟩ := by
  have habsolute : name.toList.head? ≠ some '/' :=
    fun hs => h.no_slash (List.mem_of_mem_head? hs)
  have hending := h.ofPieces []
  rw [List.nil_append] at hending
  simp [ofText, splitOn_of_not_mem h.no_slash, h.ne_empty, h.ne_dot, habsolute, hending]

theorem IsName.ending_append (h : IsName name) (front : String) :
    (ofText (front ++ "/" ++ name)).ending = .name := by
  have hchars : (front ++ "/" ++ name).toList = front.toList ++ '/' :: name.toList := by simp
  simp only [ofText, hchars, splitOn_append_cons, splitOn_of_not_mem h.no_slash, List.map_append,
    List.map_singleton, String.ofList_toList]
  exact h.ofPieces _

/-- A name that is joined to a path is one more step, with which the path ends. -/
theorem IsName.ofText_joinPath (h : IsName name) (directory : String) :
    ofText (joinPath directory name) =
      ⟨(ofText directory).absolute, (ofText directory).parts ++ [name], .name⟩ := by
  by_cases hd : directory = ""
  · subst hd
    exact h.ofText_self
  -- Whether or not there is a slash already, one stands between the directory and the name.
  obtain ⟨front, hjoin, hparts⟩ : ∃ front, joinPath directory name = front ++ "/" ++ name ∧
      (ofText front).parts = (ofText directory).parts := by
    by_cases hs : directory.toList.getLast? = some '/'
    · obtain ⟨front, rfl⟩ := exists_of_getLast? hs
      have hempty : (ofText "").parts = [] := rfl
      have hparts := parts_append front ""
      rw [hempty, List.append_nil, String.append_empty] at hparts
      exact ⟨front, by rw [joinPath, if_neg hd, if_pos hs], hparts.symm⟩
    · exact ⟨directory, by rw [joinPath, if_neg hd, if_neg hs], rfl⟩
  have habsolute : (ofText (joinPath directory name)).absolute = (ofText directory).absolute := by
    rw [joinPath, if_neg hd]
    split
    next => exact absolute_append hd name
    next =>
      rw [String.append_assoc]
      exact absolute_append hd _
  have hnames : (ofText (front ++ "/" ++ name)).parts = (ofText directory).parts ++ [name] := by
    rw [parts_append, h.ofText_self, hparts]
  rw [← habsolute, ← hnames, ← h.ending_append front, hjoin]

end Path

theorem isName_definitionsFileName : Path.IsName definitionsFileName := by
  constructor <;> decide

theorem isName_visitorFileName : Path.IsName visitorFileName := by
  constructor <;> decide

namespace FileTree

variable {tree before after : FileTree} {directory name : String} {place : List String}

theorem exists_of_locate_joinPath (hn : Path.IsName name)
    (h : tree.locate (.ofText (joinPath directory name)) = .ok place) :
    ∃ front, place = front ++ [name] := by
  rw [locate_eq_ok_iff, hn.ofText_joinPath] at h
  obtain ⟨front, -, hplace⟩ := exists_of_follow_concat hn.ne_up h.1
  exact ⟨front, hplace⟩

theorem places_apart {other : String} {place' : List String} (hn : Path.IsName name)
    (ho : Path.IsName other) (hne : name ≠ other)
    (h : tree.locate (.ofText (joinPath directory name)) = .ok place)
    (h' : tree.locate (.ofText (joinPath directory other)) = .ok place') : place ≠ place' := by
  obtain ⟨front, rfl⟩ := exists_of_locate_joinPath hn h
  obtain ⟨front', rfl⟩ := exists_of_locate_joinPath ho h'
  intro he
  exact hne (List.singleton_inj.1 (List.append_inj_right' he rfl))

theorem pathFault?_of_joinPath (hd : directory ≠ "")
    (h : pathFault? (joinPath directory name) = none) : pathFault? directory = none := by
  obtain ⟨rest, hrest⟩ : ∃ rest, joinPath directory name = directory ++ rest := by
    rw [joinPath, if_neg hd]
    split
    next => exact ⟨name, rfl⟩
    next => exact ⟨"/" ++ name, String.append_assoc⟩
  rw [hrest, pathFault?_eq_none_iff] at h
  rw [pathFault?_eq_none_iff]
  obtain ⟨hnul, -, hlong⟩ := h
  rw [String.toList_append, List.mem_append, not_or] at hnul
  rw [String.utf8ByteSize_append] at hlong
  exact ⟨hnul.1, hd, by omega⟩

theorem makeDirectories_of_directory (hfault : directory ≠ "" → pathFault? directory = none)
    (hl : tree.locate (.ofText directory) = .ok place) (hd : tree.get? place = some .directory) :
    tree.makeDirectories directory = (tree, .ok ()) := by
  rw [makeDirectories]
  split
  next => rfl
  next hne =>
    rw [hfault hne]
    exact makeDirectoriesFrom_of_directory hl hd

theorem write_joinPath (hn : Path.IsName name)
    (hl : tree.locate (.ofText directory) = .ok place) (hd : tree.get? place = some .directory)
    (hfault : pathFault? (joinPath directory name) = none)
    (hfree : tree.get? (place ++ [name]) ≠ some .directory) (text : String) :
    tree.write (joinPath directory name) text = .ok (tree.put (place ++ [name]) (.file text)) := by
  obtain ⟨hf, -⟩ := locate_eq_ok_iff.1 hl
  have hstep : tree.follow place [name] = .ok (place ++ [name]) :=
    follow_cons_eq_ok_iff.2 ⟨hd, .inr ⟨hn.ne_up, hn.short, rfl⟩⟩
  have hpath := hn.ofText_joinPath directory
  have hplace : tree.locate (.ofText (joinPath directory name)) = .ok (place ++ [name]) := by
    rw [hpath, locate_eq_ok_iff]
    constructor
    · rw [follow_append, bind_eq_ok_iff]
      exact ⟨place, hf, hstep⟩
    · nofun
  exact write_eq_ok_iff.2 ⟨hfault, by rw [hpath], _, hplace, hfree, rfl⟩

end FileTree

namespace GeneratedCode

/-- Both files stand in the directory, and nothing else is new but directories on the way. -/
structure Written (code : GeneratedCode) (directory : String) (before after : FileTree) :
    Prop where
  definitions : after.read (joinPath directory definitionsFileName) = .ok code.definitions
  visitor : after.read (joinPath directory visitorFileName) = .ok code.visitor
  others : ∃ place place',
    after.locate (.ofText (joinPath directory definitionsFileName)) = .ok place ∧
    after.locate (.ofText (joinPath directory visitorFileName)) = .ok place' ∧
    before.Grown (.ofText directory) [place', place] after

/-- Nothing is new but directories on the way, and at most the definitions, whole. The file of the
visitor is not touched. -/
structure Interrupted (code : GeneratedCode) (directory : String) (before after : FileTree) :
    Prop where
  others : ∃ written, before.Grown (.ofText directory) written after ∧ ∀ place ∈ written,
    after.locate (.ofText (joinPath directory definitionsFileName)) = .ok place ∧
    after.get? place = some (.file code.definitions)
  visitor : ∀ place, after.locate (.ofText (joinPath directory visitorFileName)) = .ok place →
    ∀ text, after.get? place = some (.file text) ↔ before.get? place = some (.file text)

variable {code : GeneratedCode} {directory : String} {tree before after : FileTree}

theorem interrupted_of_grown (h : before.Grown (.ofText directory) [] after) :
    code.Interrupted directory before after where
  others := ⟨[], h, List.forall_mem_nil _⟩
  visitor := fun _ _ _ => h.file_iff List.not_mem_nil

theorem interrupted_of_write (h : before.Grown (.ofText directory) [] tree)
    (hw : tree.write (joinPath directory definitionsFileName) code.definitions = .ok after) :
    code.Interrupted directory before after := by
  obtain ⟨-, -, place, hl, hd, rfl⟩ := FileTree.write_eq_ok_iff.1 hw
  have hgrown := h.putFile hd code.definitions
  have hl' := (FileTree.keeps_put hd (.file code.definitions)).locate hl
  constructor
  case others =>
    use [place], hgrown
    simp only [List.forall_mem_singleton]
    exact ⟨hl', FileTree.get?_put_file hd _⟩
  case visitor =>
    intro place' hv text
    have hne := FileTree.places_apart isName_visitorFileName isName_definitionsFileName
      (by decide) hv hl'
    exact hgrown.file_iff fun hm => hne (List.mem_singleton.1 hm)

theorem written_of_writes {later : FileTree} (h : before.Grown (.ofText directory) [] tree)
    (hd : tree.write (joinPath directory definitionsFileName) code.definitions = .ok later)
    (hv : later.write (joinPath directory visitorFileName) code.visitor = .ok after) :
    code.Written directory before after := by
  have hreadVisitor := (FileTree.stored_of_write hv).read
  obtain ⟨hfault, hend, place, hl, hplace, rfl⟩ := FileTree.write_eq_ok_iff.1 hd
  obtain ⟨-, -, place', hl', hplace', rfl⟩ := FileTree.write_eq_ok_iff.1 hv
  have hk := FileTree.keeps_put hplace (.file code.definitions)
  have hk' := FileTree.keeps_put hplace' (.file code.visitor)
  have hdefinitions := hk'.locate (hk.locate hl)
  have hvisitor := hk'.locate hl'
  have hne := FileTree.places_apart isName_definitionsFileName isName_visitorFileName
    (by decide) hdefinitions hvisitor
  constructor
  case definitions =>
    apply FileTree.read_eq_ok_iff.2
    use hfault, hend, place, hdefinitions
    rw [FileTree.get?_put_of_ne _ _ hne, FileTree.get?_put_file hplace]
  case visitor => exact hreadVisitor
  case others =>
    exact ⟨place, place', hdefinitions, hvisitor,
      (h.putFile hplace code.definitions).putFile hplace' code.visitor⟩

/-- Writing both files ends with both of them, or it is interrupted. -/
theorem write_spec (code : GeneratedCode) (tree : FileTree) (directory : String) :
    (∀ after, code.write tree directory = (after, .ok ()) → code.Written directory tree after) ∧
    ∀ after fault, code.write tree directory = (after, .error fault) →
      code.Interrupted directory tree after := by
  have hgrown := tree.grown_makeDirectories directory
  rw [write]
  split
  next way fault hway =>
    rw [hway] at hgrown
    use nofun
    intro after fault h
    cases h
    exact interrupted_of_grown hgrown
  next way hway =>
    rw [hway] at hgrown
    split
    next fault hd =>
      use nofun
      intro after fault h
      cases h
      exact interrupted_of_grown hgrown
    next later hd =>
      split
      next fault hv =>
        use nofun
        intro after fault h
        cases h
        exact interrupted_of_write hgrown hd
      next last hv =>
        constructor
        · intro after h
          cases h
          exact written_of_writes hgrown hd hv
        · nofun

theorem exists_write (code : GeneratedCode) {place : List String}
    (hl : tree.locate (.ofText directory) = .ok place)
    (hd : tree.get? place = some .directory)
    (h : ∀ name ∈ [definitionsFileName, visitorFileName],
      FileTree.pathFault? (joinPath directory name) = none ∧
        tree.get? (place ++ [name]) ≠ some .directory) :
    ∃ after, code.write tree directory = (after, .ok ()) := by
  simp only [List.forall_mem_cons] at h
  obtain ⟨⟨hfault, hfree⟩, ⟨hfault', hfree'⟩, -⟩ := h
  have hway := FileTree.makeDirectories_of_directory
    (fun hne => FileTree.pathFault?_of_joinPath hne hfault) hl hd
  have hdefinitions := FileTree.write_joinPath isName_definitionsFileName hl hd hfault hfree
    code.definitions
  have hk := FileTree.keeps_put hfree (.file code.definitions)
  have hne : place ++ [visitorFileName] ≠ place ++ [definitionsFileName] := by
    simp only [ne_eq, List.append_cancel_left_eq]
    decide
  have hvisitor := FileTree.write_joinPath isName_visitorFileName (hk.locate hl)
    (hk.directory place hd) hfault' (by rwa [FileTree.get?_put_of_ne _ _ hne]) code.visitor
  rw [write, hway]
  simp only [hdefinitions, hvisitor]
  exact ⟨_, rfl⟩

end GeneratedCode

namespace Schema

/-- A build that fails to generate code touches nothing. One that succeeds leaves both files, and
one that cannot write them leaves the visitor alone and the definitions alone or whole.

Where there is code, it is enough for success that the directory is there and has no directories of
these names. That holds of the trees here, which know neither permissions nor links and have room
for every text, and not of file systems at large; the other three parts do not depend on why a step
fails. -/
theorem build_all_or_nothing (schema : Schema) (options : Options) (tree : FileTree)
    (directory : String) :
    (∀ fault, schema.generate options = .error fault →
      schema.build options tree directory = (tree, .error (.schema fault))) ∧
    (∀ after code, schema.build options tree directory = (after, .ok code) →
      schema.generate options = .ok code ∧ code.Written directory tree after) ∧
    (∀ after problem, schema.build options tree directory = (after, .error problem) →
      (∃ fault, problem = .schema fault ∧ schema.generate options = .error fault) ∨
      ∃ fault code, problem = .file fault ∧ schema.generate options = .ok code ∧
        code.Interrupted directory tree after) ∧
    ∀ code place, schema.generate options = .ok code →
      tree.locate (.ofText directory) = .ok place → tree.get? place = some .directory →
      (∀ name ∈ [definitionsFileName, visitorFileName],
        FileTree.pathFault? (joinPath directory name) = none ∧
          tree.get? (place ++ [name]) ≠ some .directory) →
      ∃ after, schema.build options tree directory = (after, .ok code) := by
  cases hg : schema.generate options with
  | error fault =>
    have hbuild : schema.build options tree directory = (tree, .error (.schema fault)) := by
      rw [build, hg]
    rw [hbuild]
    constructor
    · intro fault' h
      cases h
      rfl
    use nofun
    constructor
    · intro after problem h
      cases h
      exact .inl ⟨fault, rfl, rfl⟩
    · nofun
  | ok code =>
    obtain ⟨hwritten, hinterrupted⟩ := code.write_spec tree directory
    rw [build, hg]
    use nofun
    simp only
    refine ⟨?_, ?_, ?_⟩
    · intro after code' h
      split at h
      next => cases h
      next last hw =>
        cases h
        exact ⟨rfl, hwritten after hw⟩
    · intro after problem h
      split at h
      next last fault hw =>
        cases h
        exact .inr ⟨fault, code, rfl, rfl, hinterrupted after fault hw⟩
      next => cases h
    · intro code' place hcode hl hd hfree
      cases hcode
      obtain ⟨after, hw⟩ := code.exists_write hl hd hfree
      exact ⟨after, by rw [hw]⟩

/-- A directory stands where the visitor would have to be written. -/
theorem build_beside_and_into_directory :
    let schema : Schema := ⟨[.record "Token" [⟨"text", .atomic "Ident"⟩]]⟩
    let unknown : Schema := ⟨[.record "Token" [⟨"text", .atomic "Text"⟩]]⟩
    let tree : FileTree := ⟨[(["home"], .directory), (["home", "old"], .directory),
      (["home", "old", "ast.rs"], .file "// stale"),
      (["home", "old", "visitor.rs"], .directory)], ["home"]⟩
    ∃ code, schema.generate .default = .ok code ∧
      code.Written "new/deep" tree (schema.build .default tree "new/deep").1 ∧
      code.Interrupted "old" tree (schema.build .default tree "old").1 ∧
      (schema.build .default tree "old").1.read "old/ast.rs" = .ok code.definitions ∧
      (∃ after, schema.build .default tree "./" = (after, .ok code)) ∧
      (unknown.build .default tree "old").1 = tree := by
  intro schema unknown tree
  have hverify : schema.verify .default = .ok (.ofSchema schema .default) :=
    verify_of_passes 1 (by decide) (by decide) (by decide)
  obtain ⟨code, hcode⟩ : ∃ code, schema.generate .default = .ok code := by
    rw [generate, hverify]
    exact ⟨_, rfl⟩
  obtain ⟨after, hbuilt⟩ : ∃ after, schema.build .default tree "new/deep" = (after, .ok code) := by
    rw [build, hcode]
    exact ⟨_, rfl⟩
  obtain ⟨half, hhalf, hread⟩ : ∃ half,
      schema.build .default tree "old" = (half, .error (.file .isDirectory)) ∧
        half.read "old/ast.rs" = .ok code.definitions := by
    rw [build, hcode]
    exact ⟨_, rfl, rfl⟩
  have hunknown : unknown.generate .default =
      .error (.type (.undeclared "Text" (.field "text" "Token"))) := by
    rw [generate, verify_eq_error_iff.2 rfl]
    rfl
  obtain ⟨-, hwritten, -⟩ := build_all_or_nothing schema .default tree "new/deep"
  obtain ⟨-, -, hinterrupted, -⟩ := build_all_or_nothing schema .default tree "old"
  obtain ⟨-, -, -, hready⟩ := build_all_or_nothing schema .default tree "./"
  have hfree : ∀ name ∈ [definitionsFileName, visitorFileName],
      FileTree.pathFault? (joinPath "./" name) = none ∧
        tree.get? (["home"] ++ [name]) ≠ some .directory := by decide
  have hhome := hready code ["home"] hcode rfl rfl hfree
  obtain ⟨hnothing, -, -⟩ := build_all_or_nothing unknown .default tree "old"
  rw [hbuilt, hhalf, hnothing _ hunknown]
  rcases hinterrupted half _ hhalf with ⟨fault, h, -⟩ | ⟨fault, code', -, hcode', hkept⟩
  · cases h
  · obtain rfl := Except.ok.inj (hcode.symm.trans hcode')
    exact ⟨code, hcode, (hwritten after code hbuilt).2, hkept, hread, hhome, rfl⟩

end Schema

end NodeSchema
