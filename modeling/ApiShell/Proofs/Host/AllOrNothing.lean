import ApiShell.Proofs.Host.Replacement
import ApiShell.Proofs.Text.Split

/-!
# All or nothing

However its operations fail, a replacement ends in one of four ways (`Ending`): before the temporary
file is made, with the temporary file taken away again, with the temporary file left behind, or with the
new content at the path.  What stands at the path is followed through each of them.

Two things can go wrong.  An operation on the temporary file fails and closing the file fails as well;
then it is not taken away.  And making the directories above the path changes what the path leads to,
which needs double dots in it; then the replacement may fail and something else stands at the path than
before.  Apart from these a replacement is all or nothing (`isAllOrNothing_replace_iff`).
-/

namespace ApiShell.Host

/-! ### Names -/

/-- No name of the path has a slash in it, as in every path that is read. -/
def Path.IsProper (p : Path) : Prop := ∀ name ∈ p.names, '/' ∉ name.toList

theorem Path.isProper_ofText (s : String) : (Path.ofText s).IsProper := by
  intro name hname
  have hpiece : name ∈ Text.split '/' s := (List.mem_filter.1 hname).1
  obtain ⟨piece, hcut, rfl⟩ := List.mem_map.1 hpiece
  rw [String.toList_ofList]
  exact Text.notMem_of_mem_splitAt hcut

theorem Path.IsProper.name {p : Path} (h : p.IsProper) : '/' ∉ p.name.toList := by
  unfold Path.name
  cases hlast : p.names.getLast? with
  | none => exact List.not_mem_nil
  | some name => exact h name (List.mem_of_getLast? hlast)

variable {name token : String}

theorem temporaryName_eq : temporaryName name token = "." ++ name ++ "." ++ token ++ ".tmp" := rfl

theorem toList_temporaryName : (temporaryName name token).toList =
    '.' :: (name.toList ++ '.' :: (token.toList ++ ".tmp".toList)) := by
  rw [temporaryName_eq]
  simp [String.toList_append]

theorem slash_notMem_temporaryName (hname : '/' ∉ name.toList) (htoken : '/' ∉ token.toList) :
    '/' ∉ (temporaryName name token).toList := by
  rw [toList_temporaryName]
  simp [hname, htoken]

/-- The temporary name is longer than the name that it is made of. -/
theorem length_temporaryName (name token : String) :
    name.toList.length + 5 ≤ (temporaryName name token).toList.length := by
  rw [toList_temporaryName]
  simp

/-- The temporary name is none of the names that mean something by themselves. -/
theorem temporaryName_ne {other : String} (h : other.toList.length ≤ 2) :
    temporaryName name token ≠ other := by
  rintro rfl
  have hlength := length_temporaryName name token
  omega

theorem isTooLong_temporaryName (h : FileTree.isTooLong (temporaryName name token) = false) :
    FileTree.isTooLong name = false := by
  have hbytes : name.utf8ByteSize ≤ (temporaryName name token).utf8ByteSize := by
    rw [temporaryName_eq]
    simp only [String.utf8ByteSize_append]
    omega
  simp only [FileTree.isTooLong, gt_iff_lt, decide_eq_false_iff_not, Nat.not_lt] at h ⊢
  omega

variable {path : Path}

/-- The temporary file stands beside the file that it stands in for. -/
theorem beside_eq (hpath : path.IsProper) (htoken : '/' ∉ token.toList) :
    beside path token = ⟨path.root, path.names.dropLast ++ [temporaryName path.name token]⟩ := by
  have hslash := slash_notMem_temporaryName hpath.name htoken
  have hempty : temporaryName path.name token ≠ "" := temporaryName_ne (by decide)
  have hdot : temporaryName path.name token ≠ "." := temporaryName_ne (by decide)
  have hcut : Text.splitAt '/' (temporaryName path.name token).toList =
      [(temporaryName path.name token).toList] :=
    Text.splitAt_joinWith (List.cons_ne_nil (temporaryName path.name token).toList [])
      (by simpa using hslash)
  have hnames : Path.namesOf (temporaryName path.name token) =
      [temporaryName path.name token] := by
    rw [Path.namesOf, Text.split, hcut]
    simp [hempty, hdot]
  have hof : Path.ofText (temporaryName path.name token) =
      ⟨"", [temporaryName path.name token]⟩ := by
    unfold Path.ofText
    rw [hnames, toList_temporaryName]
    rfl
  rw [beside, Path.child, hof]
  rfl

/-! ### One place is set -/

namespace FileTree

variable {t t' t'' : FileTree} {place other start dir : Place} {node node' : Option Node}

/-- The second tree has this at the place, and everywhere else what the first one has. -/
def Sets (t : FileTree) (place : Place) (node : Option Node) (t' : FileTree) : Prop :=
  ∀ other, t'.node? other = if other = place then node else t.node? other

theorem Sets.at_place (h : Sets t place node t') : t'.node? place = node := by
  rw [h, if_pos rfl]

theorem Sets.elsewhere (h : Sets t place node t') (hother : other ≠ place) :
    t'.node? other = t.node? other := by
  rw [h, if_neg hother]

theorem Sets.refl (hplace : t.node? place = none) : Sets t place none t := by
  intro other
  split
  · next hother => rw [hother, hplace]
  · rfl

/-- What was set is set anew. -/
theorem Sets.again (h : Sets t place node t') (h' : Sets t' place node' t'') :
    Sets t place node' t'' := by
  intro other
  rw [h', h]
  split <;> rfl

theorem Sets.keepsDirectories (h : Sets t place node t')
    (hplace : t.node? place ≠ some .directory) : KeepsDirectories t t' := by
  intro other hother
  rw [h.elsewhere (by rintro rfl; exact hplace hother), hother]

/-- Where nothing stood and nothing is set, nothing has changed. -/
theorem Sets.same (h : Sets t place none t') (hplace : t.node? place = none) (other : Place) :
    t'.node? other = t.node? other := by
  rw [h]
  split
  · next hother => rw [hother, hplace]
  · rfl

/-! ### The place of the temporary file -/

/-- There is a directory for the temporary file, and the name of the file is short enough and not in
use. -/
structure IsSpare (t : FileTree) (start : Place) (path : Path) (token : String) (dir : Place) :
    Prop where
  parent : t.follow start path.names.dropLast = .ok dir
  directory : t.node? dir = some .directory
  short : isTooLong (temporaryName path.name token) = false
  free : t.node? (dir ++ [temporaryName path.name token]) = none

/-- The place of the temporary file. -/
abbrev spareOf (path : Path) (token : String) (dir : Place) : Place :=
  dir ++ [temporaryName path.name token]

/-- No directory is in the way of the temporary file. -/
theorem IsSpare.free_ne (h : IsSpare t start path token dir) :
    t.node? (spareOf path token dir) ≠ some .directory := by
  rw [h.free]
  exact (Option.some_ne_none _).symm

theorem follow_name {name : String} (hdir : t.node? dir = some .directory) (hname : name ≠ "..")
    (hshort : isTooLong name = false) : t.follow dir [name] = .ok (dir ++ [name]) := by
  rw [follow, hdir]
  dsimp only
  rw [if_neg hname, if_neg (by simp [hshort])]
  rfl

theorem IsSpare.follow_spare (h : IsSpare t start path token dir) (hkeeps : KeepsDirectories t t') :
    t'.follow start (path.names.dropLast ++ [temporaryName path.name token]) =
      .ok (spareOf path token dir) := by
  rw [follow_append, follow_of_keepsDirectories hkeeps h.parent]
  exact follow_name (hkeeps _ h.directory) (temporaryName_ne (by decide)) h.short

/-- The path leads to the same place, which is not that of the temporary file, in every tree that keeps
the directories. -/
theorem IsSpare.exists_target (h : IsSpare t start path token dir) :
    ∃ target, target ≠ spareOf path token dir ∧
      ∀ t', KeepsDirectories t t' → t'.follow start path.names = .ok target := by
  have hparent : ∀ t', KeepsDirectories t t' → t'.follow start path.names.dropLast = .ok dir :=
    fun t' hkeeps => follow_of_keepsDirectories hkeeps h.parent
  by_cases hnames : path.names = []
  · refine ⟨dir, by simp [spareOf], fun t' hkeeps => ?_⟩
    have hdir := hparent t' hkeeps
    rwa [hnames] at hdir ⊢
  have hlast : path.names = path.names.dropLast ++ [path.name] := by
    rw [Path.name, List.getLast?_eq_some_getLast hnames, Option.getD_some,
      List.dropLast_concat_getLast]
  by_cases hdots : path.name = ".."
  · refine ⟨dir.dropLast, fun heq => ?_, fun t' hkeeps => ?_⟩
    · have hlength := congrArg List.length heq
      simp at hlength
    · rw [hlast, follow_append, hparent t' hkeeps, hdots]
      show t'.follow dir [".."] = _
      rw [follow, hkeeps _ h.directory]
      rfl
  · refine ⟨dir ++ [path.name], fun heq => ?_, fun t' hkeeps => ?_⟩
    · have hname := (List.cons.inj (List.append_cancel_left heq)).1
      have hlength := length_temporaryName path.name token
      rw [← hname] at hlength
      omega
    · rw [hlast, follow_append, hparent t' hkeeps]
      exact follow_name (hkeeps _ h.directory) hdots (isTooLong_temporaryName h.short)

/-- What stands at the path does not depend on the temporary file. -/
theorem IsSpare.find_of_sets (h : IsSpare t start path token dir)
    (hsets : Sets t (spareOf path token dir) node t') :
    t'.find start path.names = t.find start path.names := by
  obtain ⟨target, htarget, hfollow⟩ := h.exists_target
  have hkeeps : KeepsDirectories t t' := hsets.keepsDirectories h.free_ne
  exact find_of_follow (hfollow t fun _ hplace => hplace) (hfollow t' hkeeps)
    (hsets.elsewhere htarget)

end FileTree

/-! ### The parts of a replacement -/

section Parts

variable {h : Host} {hazards : Hazards} {content : List UInt8} {t' : FileTree} {dir : Place}
  {node : Option Node}

open FileTree (IsSpare Sets KeepsDirectories spareOf)

/-- The host with other files. -/
def withFiles (h : Host) (files : FileTree) : Host := { h with files }

theorem start_beside (hpath : path.IsProper) (htoken : '/' ∉ token.toList) :
    h.start (beside path token) = h.start path := by
  rw [beside_eq hpath htoken]
  rfl

/-- The path of the temporary file leads to its place, whatever stands there. -/
theorem follow_beside (hpath : path.IsProper) (htoken : '/' ∉ token.toList)
    (hspare : IsSpare h.files (h.start path) path token dir)
    (hsets : Sets h.files (spareOf path token dir) node t') :
    (h.withFiles t').files.follow ((h.withFiles t').start (beside path token))
      (beside path token).names = .ok (spareOf path token dir) := by
  rw [beside_eq hpath htoken]
  exact hspare.follow_spare (hsets.keepsDirectories hspare.free_ne)

/-- The temporary file can be written, whether it is there or not. -/
theorem write_beside (hpath : path.IsProper) (htoken : '/' ∉ token.toList)
    (hspare : IsSpare h.files (h.start path) path token dir)
    (hsets : Sets h.files (spareOf path token dir) node t') (hnode : node ≠ some .directory)
    (content : List UInt8) :
    ∃ t'', (h.withFiles t').write (beside path token) content = .ok (h.withFiles t'') ∧
      Sets h.files (spareOf path token dir) (some (.file content)) t'' := by
  refine ⟨t'.put (spareOf path token dir) (.file content), ?_,
    hsets.again fun other => FileTree.node?_put _ _ _ _⟩
  exact write_of_follow (follow_beside hpath htoken hspare hsets)
    (by rw [withFiles, hsets.at_place]; exact hnode) content

/-- A name that is too long cannot be written. -/
theorem write_beside_of_isTooLong (hpath : path.IsProper) (htoken : '/' ∉ token.toList)
    (hdir : t'.follow (h.start path) path.names.dropLast = .ok dir)
    (hdirectory : t'.node? dir = some .directory)
    (hlong : FileTree.isTooLong (temporaryName path.name token) = true) (content : List UInt8) :
    (h.withFiles t').write (beside path token) content = .error .tooLong := by
  have hfollow : t'.follow (h.start path) (beside path token).names = .error .tooLong := by
    rw [beside_eq hpath htoken, FileTree.follow_append, hdir]
    show t'.follow dir [temporaryName path.name token] = _
    rw [FileTree.follow, hdirectory]
    dsimp only
    rw [if_neg (temporaryName_ne (by decide)), if_pos hlong]
  rw [write, start_beside hpath htoken]
  show Except.map _ (t'.follow (h.start path) (beside path token).names >>= _) = _
  rw [hfollow]
  rfl

/-- In a directory where nothing has the name of the temporary file, there is a place for it. -/
theorem isSpare_of_find_ne (hpath : path.IsProper) (htoken : '/' ∉ token.toList)
    (hdir : t'.follow (h.start path) path.names.dropLast = .ok dir)
    (hdirectory : t'.node? dir = some .directory)
    (hshort : FileTree.isTooLong (temporaryName path.name token) = false)
    (hunused : ∀ node, (h.withFiles t').find (beside path token) ≠ .ok node) :
    IsSpare t' (h.start path) path token dir := by
  refine ⟨hdir, hdirectory, hshort, ?_⟩
  have hfollow : t'.follow (h.start path) (beside path token).names =
      .ok (spareOf path token dir) := by
    rw [beside_eq hpath htoken, FileTree.follow_append, hdir]
    exact FileTree.follow_name hdirectory (temporaryName_ne (by decide)) hshort
  cases hnode : t'.node? (spareOf path token dir) with
  | none => rfl
  | some node =>
    have hfound : (h.withFiles t').find (beside path token) = .ok node := by
      rw [find, start_beside hpath htoken]
      exact FileTree.find_eq_ok_iff.2 ⟨_, hfollow, hnode⟩
    exact absurd hfound (hunused node)

/-- The temporary file can be taken away. -/
theorem remove_beside (hpath : path.IsProper) (htoken : '/' ∉ token.toList)
    (hspare : IsSpare h.files (h.start path) path token dir)
    (hsets : Sets h.files (spareOf path token dir) (some (.file content)) t') :
    ∃ t'', (h.withFiles t').remove (beside path token) = .ok (h.withFiles t'') ∧
      Sets h.files (spareOf path token dir) none t'' := by
  refine ⟨t'.erase (spareOf path token dir), ?_, hsets.again fun other => FileTree.node?_erase _ _ _⟩
  exact remove_of_follow (follow_beside hpath htoken hspare hsets) hsets.at_place

/-- An operation on the open temporary file fails. -/
def FillFails (hazards : Hazards) : Prop :=
  hazards.put ≠ none ∨ hazards.flush ≠ none ∨ hazards.sync ≠ none ∨ hazards.close ≠ none

/-- Filling the temporary file changes nothing but that file, and it ends early only where one of its
operations fails. -/
theorem on_fill (hazards : Hazards) (content : List UInt8) (hpath : path.IsProper)
    (htoken : '/' ∉ token.toList)
    (hspare : IsSpare h.files (h.start path) path token dir)
    (hsets : Sets h.files (spareOf path token dir) (some (.file [])) t') :
    ∃ t'', (FillFails hazards ∧ ∃ defect bytes,
        Sets h.files (spareOf path token dir) (some (.file bytes)) t'' ∧
        (fill hazards (beside path token) content).on (h.withFiles t') =
          (.error defect, h.withFiles t'')) ∨
      (¬ FillFails hazards ∧ Sets h.files (spareOf path token dir) (some (.file content)) t'' ∧
        (fill hazards (beside path token) content).on (h.withFiles t') =
          (.ok (), h.withFiles t'')) := by
  obtain ⟨t'', hwrite, hfilled⟩ := write_beside hpath htoken hspare hsets nofun content
  have hchange := Task.on_change (·.write (beside path token) content) hwrite
  unfold fill FillFails
  -- The operations one after the other, each of them failing or not.
  cases hazards.put with
  | some fault =>
    exact ⟨t', .inl ⟨.inl nofun, .file fault, [], hsets, Task.on_bind_error rfl⟩⟩
  | none =>
  cases hazards.flush with
  | some fault =>
    exact ⟨t', .inl ⟨.inr (.inl nofun), .file fault, [], hsets,
      Task.on_bind rfl (Task.on_bind_error rfl)⟩⟩
  | none =>
  cases hazards.sync with
  | some fault =>
    exact ⟨t'', .inl ⟨.inr (.inr (.inl nofun)), .file fault, content, hfilled,
      Task.on_bind rfl (Task.on_bind rfl (Task.on_bind hchange (Task.on_bind_error rfl)))⟩⟩
  | none =>
  have hsynced : ∀ r : Except Defect Unit × Host, (Task.risk hazards.close).on (h.withFiles t'') = r →
      (do Task.risk none; Task.risk none; Task.change (·.write (beside path token) content)
          Task.risk none; Task.risk hazards.close : Task Unit).on (h.withFiles t') = r := by
    rintro ⟨r, h'⟩ hr
    exact Task.on_bind rfl (Task.on_bind rfl (Task.on_bind hchange (Task.on_bind rfl hr)))
  cases hclose : hazards.close with
  | some fault =>
    rw [hclose] at hsynced
    exact ⟨t'', .inl ⟨.inr (.inr (.inr nofun)), .file fault, content, hfilled, hsynced _ rfl⟩⟩
  | none =>
    rw [hclose] at hsynced
    exact ⟨t'', .inr ⟨by simp, hfilled, hsynced _ rfl⟩⟩

/-- The temporary file is taken away, if files can be. -/
theorem on_discard (hazards : Hazards) (hpath : path.IsProper) (htoken : '/' ∉ token.toList)
    (hspare : IsSpare h.files (h.start path) path token dir)
    (hsets : Sets h.files (spareOf path token dir) (some (.file content)) t') :
    ∃ t'', (discard hazards (beside path token)).on (h.withFiles t') = (.ok (), h.withFiles t'') ∧
      Sets h.files (spareOf path token dir)
        (if hazards.remove = none then none else some (.file content)) t'' := by
  obtain ⟨t'', hremove, hgone⟩ := remove_beside hpath htoken hspare hsets
  unfold discard
  cases hazards.remove with
  | some fault => exact ⟨t', rfl, by simpa using hsets⟩
  | none =>
    refine ⟨t'', ?_, by simpa using hgone⟩
    rw [if_pos Option.isNone_none, Task.on_modify, hremove]

/-- The temporary file cannot be given the name of the path: that fails by itself, the name leads back
up, or a directory stands there. -/
def SettleFails (hazards : Hazards) (h : Host) (path : Path) : Prop :=
  hazards.rename ≠ none ∨ path.name = ".." ∨ h.find path = .ok .directory

theorem node?_ne_of_not_settleFails {target : Place} (hsettles : ¬ SettleFails hazards h path)
    (htarget : h.files.follow (h.start path) path.names = .ok target) :
    h.files.node? target ≠ some .directory := by
  intro hnode
  exact hsettles (.inr (.inr (FileTree.find_eq_ok_iff.2 ⟨target, htarget, hnode⟩)))

/-- The temporary file is read as it was filled. -/
theorem read_beside (hpath : path.IsProper) (htoken : '/' ∉ token.toList)
    (hspare : IsSpare h.files (h.start path) path token dir)
    (hsets : Sets h.files (spareOf path token dir) (some (.file content)) t') :
    (h.withFiles t').read (beside path token) = .ok content := by
  have hfound : (h.withFiles t').find (beside path token) = .ok (.file content) :=
    find_eq_file_iff.2 ⟨_, follow_beside hpath htoken hspare hsets, hsets.at_place⟩
  rw [read, hfound]
  rfl

/-- The temporary file cannot be given the name of a directory. -/
theorem rename_beside_of_stuck (hpath : path.IsProper) (htoken : '/' ∉ token.toList)
    (hspare : IsSpare h.files (h.start path) path token dir)
    (hsets : Sets h.files (spareOf path token dir) (some (.file content)) t')
    (hstuck : path.name = ".." ∨ h.find path = .ok .directory) :
    ∃ fault, (h.withFiles t').rename (beside path token) path = .error fault := by
  rw [rename_of_read (read_beside hpath htoken hspare hsets)]
  by_cases hbusy : path.names.isEmpty || path.name == ".."
  · exact ⟨.busy, if_pos hbusy⟩
  have hdirectory : h.find path = .ok .directory := by
    refine hstuck.resolve_left fun hdots => hbusy ?_
    simp [hdots]
  obtain ⟨target, htarget, hfollow⟩ := hspare.exists_target
  obtain ⟨target', hfollow', hnode⟩ := FileTree.find_eq_ok_iff.1 hdirectory
  obtain rfl := Except.ok.inj ((hfollow h.files fun _ hplace => hplace).symm.trans hfollow')
  have hwrite : (h.withFiles t').write path content = .error .directory :=
    write_of_directory (h := h.withFiles t') (hfollow t' (hsets.keepsDirectories hspare.free_ne))
      ((hsets.elsewhere htarget).trans hnode) content
  refine ⟨.directory, ?_⟩
  rw [if_neg hbusy]
  exact bind_eq_error_iff.2 (.inl hwrite)

/-- The temporary file can be given any other name: its content goes to the path, and nothing else has
changed. -/
theorem rename_beside (hpath : path.IsProper) (htoken : '/' ∉ token.toList)
    (hspare : IsSpare h.files (h.start path) path token dir)
    (hsets : Sets h.files (spareOf path token dir) (some (.file content)) t')
    (hdots : path.name ≠ "..") (hdirectory : h.find path ≠ .ok .directory) :
    ∃ target t'', h.files.follow (h.start path) path.names = .ok target ∧
      Sets h.files target (some (.file content)) t'' ∧
      (h.withFiles t').rename (beside path token) path = .ok (h.withFiles t'') := by
  obtain ⟨target, htarget, hfollow⟩ := hspare.exists_target
  have hthere := hfollow h.files fun _ hplace => hplace
  have hfile : t'.node? target ≠ some .directory := by
    rw [hsets.elsewhere htarget]
    exact fun hnode => hdirectory (FileTree.find_eq_ok_iff.2 ⟨target, hthere, hnode⟩)
  have hnames : path.names ≠ [] := by
    intro hnames
    have hparent := hspare.parent
    rw [hnames] at hparent
    refine hdirectory (FileTree.find_eq_ok_iff.2 ⟨dir, ?_, hspare.directory⟩)
    rw [hnames]
    exact hparent
  refine ⟨target, _, hthere, fun other => ?_,
    rename_of_follow (follow_beside hpath htoken hspare hsets)
      (hfollow t' (hsets.keepsDirectories hspare.free_ne)) hsets.at_place hfile ⟨hnames, hdots⟩⟩
  rw [FileTree.node?_erase, FileTree.node?_put]
  by_cases hother : other = spareOf path token dir
  · rw [if_pos hother, hother, if_neg (Ne.symm htarget), hspare.free]
  · rw [if_neg hother]
    show (if other = target then _ else t'.node? other) = _
    rw [hsets.elsewhere hother]

/-- Giving the temporary file its name changes nothing but what stands at the path, and nothing at all
where it fails. -/
theorem on_settle (hazards : Hazards) (hpath : path.IsProper) (htoken : '/' ∉ token.toList)
    (hspare : IsSpare h.files (h.start path) path token dir)
    (hsets : Sets h.files (spareOf path token dir) (some (.file content)) t') :
    (SettleFails hazards h path ∧ ∃ defect,
      (settle hazards (beside path token) path).on (h.withFiles t') =
        (.error defect, h.withFiles t')) ∨
    (¬ SettleFails hazards h path ∧ ∃ target t'',
      h.files.follow (h.start path) path.names = .ok target ∧
      Sets h.files target (some (.file content)) t'' ∧
      (settle hazards (beside path token) path).on (h.withFiles t') =
        (.ok (), h.withFiles t'')) := by
  unfold settle SettleFails
  cases hazards.rename with
  | some fault =>
    exact .inl ⟨.inl (Option.some_ne_none fault), .file fault, Task.on_bind_error rfl⟩
  | none =>
  by_cases hstuck : path.name = ".." ∨ h.find path = .ok .directory
  · obtain ⟨fault, hfault⟩ := rename_beside_of_stuck hpath htoken hspare hsets hstuck
    exact .inl ⟨.inr hstuck, .file fault, Task.on_bind rfl
      (Task.on_change_error (·.rename (beside path token) path) hfault)⟩
  · obtain ⟨hdots, hdirectory⟩ := not_or.1 hstuck
    obtain ⟨target, t'', hthere, hsettled, hrename⟩ :=
      rename_beside hpath htoken hspare hsets hdots hdirectory
    exact .inr ⟨not_or.2 ⟨fun hnone => hnone rfl, hstuck⟩, target, t'', hthere, hsettled,
      Task.on_bind rfl (Task.on_change (·.rename (beside path token) path) hrename)⟩

end Parts

/-! ### Endings -/

variable {h : Host} {hazards : Hazards} {content : List UInt8}

open FileTree (IsSpare Sets KeepsDirectories spareOf)

/-- The host once the directories above the path are made, as far as that goes. -/
def made (hazards : Hazards) (path : Path) (h : Host) : Host :=
  h.withFiles <|
    if hasZero path.parent ∨ hazards.makeParent ≠ none then h.files
    else (h.files.makeUpwards (h.start path) path.names.dropLast.reverse).2

/-- The replacement comes as far as making a temporary file. -/
structure Creates (hazards : Hazards) (token : String) (path : Path) (h : Host) : Prop where
  named : ¬ hasZero path
  makeParent : hazards.makeParent = none
  parent : (h.files.makeUpwards (h.start path) path.names.dropLast.reverse).1 = .ok ()
  create : hazards.create = none
  short : FileTree.isTooLong (temporaryName path.name token) = false

/-- Nothing has the name of the temporary file before it is made. -/
def IsUnused (hazards : Hazards) (token : String) (path : Path) (h : Host) : Prop :=
  ∀ node, (made hazards path h).find (beside path token) ≠ .ok node

/-- How a replacement can end, and what it leaves. -/
inductive Ending (hazards : Hazards) (token : String) (path : Path) (content : List UInt8)
    (h : Host) : Except Defect Unit × Host → Prop
  /-- No temporary file is made. -/
  | early (defect : Defect) : ¬ Creates hazards token path h →
      Ending hazards token path content h (.error defect, made hazards path h)
  /-- The temporary file is taken away again. -/
  | undone (defect : Defect) (files : FileTree) (dir : Place) : Creates hazards token path h →
      IsSpare (made hazards path h).files (h.start path) path token dir →
      (FillFails hazards ∧ hazards.closeAgain = none ∨
        ¬ FillFails hazards ∧ SettleFails hazards (made hazards path h) path) →
      hazards.remove = none → Sets (made hazards path h).files (spareOf path token dir) none files →
      Ending hazards token path content h (.error defect, (made hazards path h).withFiles files)
  /-- The temporary file is left behind. -/
  | left (defect : Defect) (files : FileTree) (dir : Place) (bytes : List UInt8) :
      Creates hazards token path h →
      IsSpare (made hazards path h).files (h.start path) path token dir →
      (FillFails hazards ∧ (hazards.closeAgain ≠ none ∨ hazards.remove ≠ none) ∨
        ¬ FillFails hazards ∧ SettleFails hazards (made hazards path h) path ∧
          hazards.remove ≠ none) →
      Sets (made hazards path h).files (spareOf path token dir) (some (.file bytes)) files →
      Ending hazards token path content h (.error defect, (made hazards path h).withFiles files)
  /-- The path has the new content. -/
  | done (files : FileTree) (dir target : Place) : Creates hazards token path h →
      IsSpare (made hazards path h).files (h.start path) path token dir → ¬ FillFails hazards →
      ¬ SettleFails hazards (made hazards path h) path →
      (made hazards path h).files.follow (h.start path) path.names = .ok target →
      Sets (made hazards path h).files target (some (.file content)) files →
      Ending hazards token path content h (.ok (), (made hazards path h).withFiles files)

/-- A path without the zero character lies in a directory without it. -/
theorem not_hasZero_parent (hzero : ¬ hasZero path) : ¬ hasZero path.parent := by
  intro hparent
  obtain ⟨name, hname, hchar⟩ := List.any_eq_true.1 hparent
  exact hzero (List.any_eq_true.2 ⟨name, List.dropLast_subset _ hname, hchar⟩)

/-- The part of a replacement that comes after the temporary file was made. -/
def finish (hazards : Hazards) (temporary path : Path) (content : List UInt8) : Task Unit := do
  tryCatch (fill hazards temporary content) fun defect => do
    Task.risk hazards.closeAgain
    discard hazards temporary
    throw defect
  tryCatch (settle hazards temporary path) fun defect => do
    discard hazards temporary
    throw defect

/-- The part of a replacement that comes after the directories are made. -/
def proceed (hazards : Hazards) (token : String) (path : Path) (content : List UInt8) :
    Task Unit := do
  if hasZero path then throw zeroDefect
  Task.risk hazards.create
  Task.change (·.write (beside path token) [])
  finish hazards (beside path token) path content

/-- Where the directories cannot even be tried, the host is as it was. -/
theorem made_of_stuck (hstuck : hasZero path.parent ∨ hazards.makeParent ≠ none) :
    made hazards path h = h := by
  rw [made, if_pos hstuck]
  rfl

/-- A replacement ends before all directories are made, or goes on when they are there. -/
theorem on_replace_directories (hazards : Hazards) (token : String) (path : Path)
    (content : List UInt8) (h : Host) :
    (¬ Creates hazards token path h ∧ ∃ defect,
      (replace hazards token path content).on h = (.error defect, made hazards path h)) ∨
    (hazards.makeParent = none ∧ ∃ files,
      h.files.makeUpwards (h.start path) path.names.dropLast.reverse = (.ok (), files) ∧
      made hazards path h = h.withFiles files ∧
      (replace hazards token path content).on h =
        (proceed hazards token path content).on (h.withFiles files)) := by
  unfold replace
  dsimp only
  by_cases hzero : hasZero path.parent
  · rw [if_pos hzero, made_of_stuck (.inl hzero)]
    exact .inl ⟨fun hcreates => not_hasZero_parent hcreates.named hzero, zeroDefect, rfl⟩
  rw [if_neg hzero]
  cases hrisk : hazards.makeParent with
  | some fault =>
    rw [made_of_stuck (.inr (by rw [hrisk]; exact nofun))]
    refine .inl ⟨fun hcreates => ?_, .file fault, Task.on_bind_error rfl⟩
    cases hrisk.symm.trans hcreates.makeParent
  | none =>
  rcases hups : h.files.makeUpwards (h.start path) path.names.dropLast.reverse with
    ⟨result, files⟩
  have hmade : made hazards path h = h.withFiles files := by
    rw [made, if_neg (by simp [hzero, hrisk]), hups]
  have hdirectories := on_makeDirectories h path.parent
  rw [show h.files.makeUpwards (h.start path.parent) path.parent.names.reverse = (result, files)
    from hups] at hdirectories
  cases result with
  | error fault =>
    rw [hmade]
    refine .inl ⟨fun hcreates => ?_, .file fault,
      Task.on_bind rfl (Task.on_bind_error hdirectories)⟩
    have hok := hcreates.parent
    rw [hups] at hok
    cases hok
  | ok => exact .inr ⟨rfl, files, rfl, hmade, Task.on_bind rfl (Task.on_bind hdirectories rfl)⟩

/-- Once the directories are there, a replacement ends before the temporary file is made, or goes on
with it. -/
theorem on_proceed_cases (hpath : path.IsProper) (htoken : '/' ∉ token.toList)
    (hunused : IsUnused hazards token path h) (hrisk : hazards.makeParent = none)
    {files : FileTree}
    (hups : h.files.makeUpwards (h.start path) path.names.dropLast.reverse = (.ok (), files))
    (hmade : made hazards path h = h.withFiles files) (content : List UInt8) :
    (¬ Creates hazards token path h ∧ ∃ defect,
      (proceed hazards token path content).on (h.withFiles files) =
        (.error defect, h.withFiles files)) ∨
    (Creates hazards token path h ∧ ∃ dir reserved,
      IsSpare files (h.start path) path token dir ∧
      Sets files (spareOf path token dir) (some (.file [])) reserved ∧
      (proceed hazards token path content).on (h.withFiles files) =
        (finish hazards (beside path token) path content).on (h.withFiles reserved)) := by
  unfold proceed
  by_cases hnamed : hasZero path
  · rw [if_pos hnamed]
    exact .inl ⟨fun hcreates => hcreates.named hnamed, zeroDefect, rfl⟩
  rw [if_neg hnamed]
  cases hcreate : hazards.create with
  | some fault =>
    refine .inl ⟨fun hcreates => ?_, .file fault, Task.on_bind_error rfl⟩
    cases hcreate.symm.trans hcreates.create
  | none =>
  obtain ⟨dir, hdir, hdirectory⟩ := FileTree.find_eq_ok_iff.1 (FileTree.find_makeUpwards hups)
  rw [List.reverse_reverse] at hdir
  cases hshort : FileTree.isTooLong (temporaryName path.name token) with
  | true =>
    have hwrite := write_beside_of_isTooLong (h := h) hpath htoken hdir hdirectory hshort []
    refine .inl ⟨fun hcreates => ?_, .file .tooLong, Task.on_bind rfl
      (Task.on_bind_error (Task.on_change_error (·.write (beside path token) []) hwrite))⟩
    cases hshort.symm.trans hcreates.short
  | false =>
    have hspare : IsSpare files (h.start path) path token dir :=
      isSpare_of_find_ne (h := h) hpath htoken hdir hdirectory hshort (hmade ▸ hunused)
    have hbefore : Sets files (spareOf path token dir) none files := .refl hspare.free
    obtain ⟨reserved, hwrite, hsets⟩ :=
      write_beside (h := h.withFiles files) hpath htoken hspare hbefore nofun []
    refine .inr ⟨⟨hnamed, hrisk, by rw [hups], hcreate, hshort⟩, dir, reserved, hspare, hsets, ?_⟩
    exact Task.on_bind rfl
      (Task.on_bind (Task.on_change (·.write (beside path token) []) hwrite) rfl)

/-- A replacement ends before the temporary file is made, or goes on with it. -/
theorem on_replace_cases (hpath : path.IsProper) (htoken : '/' ∉ token.toList)
    (hunused : IsUnused hazards token path h) (content : List UInt8) :
    (¬ Creates hazards token path h ∧ ∃ defect,
      (replace hazards token path content).on h = (.error defect, made hazards path h)) ∨
    (Creates hazards token path h ∧ ∃ dir files,
      IsSpare (made hazards path h).files (h.start path) path token dir ∧
      Sets (made hazards path h).files (spareOf path token dir) (some (.file [])) files ∧
      (replace hazards token path content).on h =
        (finish hazards (beside path token) path content).on
          ((made hazards path h).withFiles files)) := by
  rcases on_replace_directories hazards token path content h with
    hearly | ⟨hrisk, files, hups, hmade, hgoes⟩
  · exact .inl hearly
  · rw [hgoes, hmade]
    exact on_proceed_cases hpath htoken hunused hrisk hups hmade content

/-- After something has failed, the temporary file is taken away if files can be. -/
theorem ending_of_discard {dir : Place} {files : FileTree} {bytes : List UInt8}
    (hcreates : Creates hazards token path h)
    (hspare : IsSpare (made hazards path h).files (h.start path) path token dir)
    (hfails : FillFails hazards ∧ hazards.closeAgain = none ∨
      ¬ FillFails hazards ∧ SettleFails hazards (made hazards path h) path)
    (hsets : Sets (made hazards path h).files (spareOf path token dir)
      (if hazards.remove = none then none else some (.file bytes)) files) (defect : Defect) :
    Ending hazards token path content h (.error defect, (made hazards path h).withFiles files) := by
  by_cases hremove : hazards.remove = none
  · rw [if_pos hremove] at hsets
    exact .undone defect files dir hcreates hspare hfails hremove hsets
  · rw [if_neg hremove] at hsets
    refine .left defect files dir bytes hcreates hspare ?_ hsets
    exact hfails.imp (fun h => ⟨h.1, .inr hremove⟩) fun h => ⟨h.1, h.2, hremove⟩

/-- Once there is a temporary file, a replacement ends with it taken away, left behind or renamed. -/
theorem ending_on_finish (hpath : path.IsProper) (htoken : '/' ∉ token.toList) {dir : Place}
    {files : FileTree} (hcreates : Creates hazards token path h)
    (hspare : IsSpare (made hazards path h).files (h.start path) path token dir)
    (hsets : Sets (made hazards path h).files (spareOf path token dir) (some (.file [])) files) :
    Ending hazards token path content h ((finish hazards (beside path token) path content).on
      ((made hazards path h).withFiles files)) := by
  unfold finish
  obtain ⟨filled, ⟨hfills, defect, bytes, hfilled, hrun⟩ | ⟨hfills, hfilled, hrun⟩⟩ :=
    on_fill (h := made hazards path h) hazards content hpath htoken hspare hsets
  · cases hagain : hazards.closeAgain with
    | some fault =>
      rw [Task.on_bind_error (Task.on_tryCatch_error hrun (Task.on_bind_error rfl))]
      exact .left (.file fault) filled dir bytes hcreates hspare
        (.inl ⟨hfills, .inl (by rw [hagain]; exact nofun)⟩) hfilled
    | none =>
      obtain ⟨rest, hdiscard, hrest⟩ :=
        on_discard (h := made hazards path h) hazards hpath htoken hspare hfilled
      rw [Task.on_bind_error (Task.on_tryCatch_error hrun
        (Task.on_bind rfl (Task.on_bind hdiscard rfl)))]
      exact ending_of_discard hcreates hspare (.inl ⟨hfills, hagain⟩) hrest defect
  · rcases on_settle (h := made hazards path h) hazards hpath htoken hspare hfilled with
      ⟨hsettles, defect, hrun'⟩ | ⟨hsettles, target, settled, htarget, hsettled, hrun'⟩
    · obtain ⟨rest, hdiscard, hrest⟩ :=
        on_discard (h := made hazards path h) hazards hpath htoken hspare hfilled
      rw [Task.on_bind (Task.on_tryCatch hrun)
        (Task.on_tryCatch_error hrun' (Task.on_bind hdiscard rfl))]
      exact ending_of_discard hcreates hspare (.inr ⟨hfills, hsettles⟩) hrest defect
    · rw [Task.on_bind (Task.on_tryCatch hrun) (Task.on_tryCatch hrun')]
      exact .done settled dir target hcreates hspare hfills hsettles htarget hsettled

/-- **How a replacement ends.**  Whatever operations fail by themselves, it ends in one of these
ways. -/
theorem ending_on_replace (hpath : path.IsProper) (htoken : '/' ∉ token.toList)
    (hunused : IsUnused hazards token path h) (content : List UInt8) :
    Ending hazards token path content h ((replace hazards token path content).on h) := by
  rcases on_replace_cases hpath htoken hunused content with
    ⟨hcreates, defect, hearly⟩ | ⟨hcreates, dir, files, hspare, hsets, hgoes⟩
  · rw [hearly]
    exact .early defect hcreates
  · rw [hgoes]
    exact ending_on_finish hpath htoken hcreates hspare hsets

/-! ### All or nothing -/

/-- A replacement that returns has put the content at the path; one that fails has not changed what
stands there; and if files can be taken away, no temporary file is left. -/
structure IsAllOrNothing (hazards : Hazards) (token : String) (path : Path) (content : List UInt8)
    (h : Host) (ending : Except Defect Unit × Host) : Prop where
  returned : ending.1 = .ok () → ending.2.find path = .ok (.file content)
  failed : ∀ defect, ending.1 = .error defect →
    (ending.2.find path).toOption = (h.find path).toOption
  tidy : hazards.remove = none → ∀ node, ending.2.find (beside path token) ≠ .ok node

/-- Files can be taken away, but the temporary file cannot be closed after an operation on it has
failed. -/
def StrandsTemporary (hazards : Hazards) (token : String) (path : Path) (h : Host) : Prop :=
  Creates hazards token path h ∧ hazards.remove = none ∧ FillFails hazards ∧
    hazards.closeAgain ≠ none

/-- Every step of the replacement succeeds. -/
def Replaces (hazards : Hazards) (token : String) (path : Path) (h : Host) : Prop :=
  Creates hazards token path h ∧ ¬ FillFails hazards ∧
    ¬ SettleFails hazards (made hazards path h) path

/-- A step fails, and the path leads to something else once the directories above it are made. -/
def ShiftsTarget (hazards : Hazards) (token : String) (path : Path) (h : Host) : Prop :=
  ¬ Replaces hazards token path h ∧
    ((made hazards path h).find path).toOption ≠ (h.find path).toOption

namespace Ending

variable {ending : Except Defect Unit × Host}

/-- A replacement returns when every step of it succeeds. -/
theorem returns_iff (hend : Ending hazards token path content h ending) :
    ending.1 = .ok () ↔ Replaces hazards token path h := by
  cases hend with
  | early defect hcreates => exact iff_of_false nofun fun hall => hcreates hall.1
  | undone defect files dir hcreates hspare hfails _ _ =>
    refine iff_of_false nofun fun ⟨_, hfills, hsettles⟩ => ?_
    rcases hfails with ⟨hfills', -⟩ | ⟨-, hsettles'⟩
    · exact hfills hfills'
    · exact hsettles hsettles'
  | left defect files dir bytes hcreates hspare hfails _ =>
    refine iff_of_false nofun fun ⟨_, hfills, hsettles⟩ => ?_
    rcases hfails with ⟨hfills', -⟩ | ⟨-, hsettles', -⟩
    · exact hfills hfills'
    · exact hsettles hsettles'
  | done files dir target hcreates hspare hfills hsettles _ _ =>
    exact iff_of_true rfl ⟨hcreates, hfills, hsettles⟩

/-- A replacement that returns has put the content at the path. -/
theorem find_of_returns (hend : Ending hazards token path content h ending)
    (hreturns : ending.1 = .ok ()) : ending.2.find path = .ok (.file content) := by
  cases hend with
  | early defect _ => cases hreturns
  | undone defect files dir _ _ _ _ _ => cases hreturns
  | left defect files dir bytes _ _ _ _ => cases hreturns
  | done files dir target hcreates hspare hfills hsettles htarget hsets =>
    have hfile := node?_ne_of_not_settleFails (h := made hazards path h) hsettles htarget
    have hkeeps := hsets.keepsDirectories hfile
    exact FileTree.find_eq_ok_iff.2
      ⟨target, FileTree.follow_of_keepsDirectories hkeeps htarget, hsets.at_place⟩

/-- After a replacement that fails, what stands at the path is what stands there once the directories
are made. -/
theorem find_of_fails (hend : Ending hazards token path content h ending) {defect : Defect}
    (hfails : ending.1 = .error defect) : ending.2.find path = (made hazards path h).find path := by
  cases hend with
  | early defect _ => rfl
  | undone defect files dir hcreates hspare _ _ hsets => exact hspare.find_of_sets hsets
  | left defect files dir bytes hcreates hspare _ hsets => exact hspare.find_of_sets hsets
  | done files dir target _ _ _ _ _ _ => cases hfails

/-- If files can be taken away, the temporary file is left only where it cannot be closed. -/
theorem exists_beside_iff (hend : Ending hazards token path content h ending)
    (hpath : path.IsProper) (htoken : '/' ∉ token.toList)
    (hunused : IsUnused hazards token path h) (hremove : hazards.remove = none) :
    (∃ node, ending.2.find (beside path token) = .ok node) ↔
      StrandsTemporary hazards token path h := by
  have hbeside := beside_eq hpath htoken
  cases hend with
  | early defect hcreates =>
    exact iff_of_false (fun ⟨node, hnode⟩ => hunused node hnode) fun hstrands => hcreates hstrands.1
  | undone defect files dir hcreates hspare hfails _ hsets =>
    refine iff_of_false (fun ⟨node, hnode⟩ => ?_) fun ⟨_, _, hfills, hagain⟩ => ?_
    · have hsame := FileTree.find_congr (hsets.same hspare.free)
      exact hunused node ((hsame _ _).symm.trans hnode)
    · rcases hfails with ⟨-, hagain'⟩ | ⟨hfills', -⟩
      · exact hagain hagain'
      · exact hfills' hfills
  | left defect files dir bytes hcreates hspare hfails hsets =>
    have hkeeps : KeepsDirectories (made hazards path h).files files :=
      hsets.keepsDirectories hspare.free_ne
    refine iff_of_true ⟨.file bytes, ?_⟩ ⟨hcreates, hremove, ?_⟩
    · refine FileTree.find_eq_ok_iff.2 ⟨spareOf path token dir, ?_, hsets.at_place⟩
      rw [hbeside]
      exact hspare.follow_spare hkeeps
    · rcases hfails with ⟨hfills, hagain | hremove'⟩ | ⟨-, -, hremove'⟩
      · exact ⟨hfills, hagain⟩
      · exact absurd hremove hremove'
      · exact absurd hremove hremove'
  | done files dir target hcreates hspare hfills hsettles htarget hsets =>
    refine iff_of_false (fun ⟨node, hnode⟩ => ?_) fun hstrands => hfills hstrands.2.2.1
    obtain ⟨target', hother, hfollow⟩ := hspare.exists_target
    obtain rfl := Except.ok.inj (htarget.symm.trans (hfollow _ fun _ hplace => hplace))
    have hfile := node?_ne_of_not_settleFails (h := made hazards path h) hsettles htarget
    obtain ⟨spare, hspare', hthere⟩ := FileTree.find_eq_ok_iff.1 hnode
    rw [hbeside] at hspare'
    obtain rfl := Except.ok.inj
      ((hspare.follow_spare (hsets.keepsDirectories hfile)).symm.trans hspare')
    have hfree := (hsets.elsewhere (Ne.symm hother)).trans hspare.free
    cases hfree.symm.trans hthere

end Ending

/-- A replacement is all or nothing unless it leaves behind a temporary file that cannot be closed, or
fails after the directories that it has made have changed what the path leads to. -/
theorem isAllOrNothing_iff (hpath : path.IsProper) (htoken : '/' ∉ token.toList)
    (hunused : IsUnused hazards token path h) (content : List UInt8) :
    IsAllOrNothing hazards token path content h ((replace hazards token path content).on h) ↔
      ¬ StrandsTemporary hazards token path h ∧ ¬ ShiftsTarget hazards token path h := by
  have hend := ending_on_replace hpath htoken hunused content
  generalize (replace hazards token path content).on h = ending at hend ⊢
  constructor
  · rintro ⟨-, hfailed, htidy⟩
    refine ⟨fun hstrands => ?_, fun ⟨hall, hshifts⟩ => ?_⟩
    · obtain ⟨node, hnode⟩ := (hend.exists_beside_iff hpath htoken hunused hstrands.2.1).2 hstrands
      exact htidy hstrands.2.1 node hnode
    · cases hresult : ending.1 with
      | ok _ => exact hall (hend.returns_iff.1 hresult)
      | error defect =>
        have hsame := hfailed defect hresult
        rw [hend.find_of_fails hresult] at hsame
        exact hshifts hsame
  · rintro ⟨hstrands, hshifts⟩
    refine ⟨hend.find_of_returns, fun defect hresult => ?_, fun hremove node hnode => ?_⟩
    · have hall : ¬ Replaces hazards token path h := by
        rw [← hend.returns_iff, hresult]
        exact nofun
      rw [hend.find_of_fails hresult]
      exact Classical.not_not.1 fun hne => hshifts ⟨hall, hne⟩
    · exact hstrands ((hend.exists_beside_iff hpath htoken hunused hremove).1 ⟨node, hnode⟩)

/-- What the files are once the directories are made. -/
theorem files_made (hazards : Hazards) (path : Path) (h : Host) :
    (made hazards path h).files = h.files ∨
      path.names ≠ [] ∧ (made hazards path h).files =
        (h.files.makeUpwards (h.start path) path.names.dropLast.reverse).2 := by
  show (if _ then _ else _) = h.files ∨ _
  split
  · exact .inl rfl
  · next hfirst =>
    by_cases hnames : path.names = []
    · rw [hnames]
      exact .inl (FileTree.ensureDirectory_nil _ _)
    · exact .inr ⟨hnames, if_neg hfirst⟩

/-- Without double dots in it, a path leads where it led before after the directories above it are
made. -/
theorem toOption_find_made (hrooted : h.files.IsRooted) (hdots : ".." ∉ path.names) :
    ((made hazards path h).find path).toOption = (h.find path).toOption := by
  show ((made hazards path h).files.find (h.start path) path.names).toOption =
    (h.files.find (h.start path) path.names).toOption
  rcases files_made hazards path h with hsame | ⟨hnames, hmade⟩
  · rw [hsame]
  rw [hmade]
  cases hbefore : h.files.find (h.start path) path.names with
  | ok node =>
    -- What stands at the path stands in a directory, so nothing is made.
    rw [FileTree.makeUpwards_dropLast hbefore hnames, hbefore]
  | error fault =>
    cases hafter : (h.files.makeUpwards (h.start path) path.names.dropLast.reverse).2.find
        (h.start path) path.names with
    | error _ => rfl
    | ok node =>
      -- What stands at the path afterwards was not made, so it stood there before.
      cases (hrooted.find_of_makeUpwards hdots hnames hafter).symm.trans hbefore

/-- **All or nothing, but for two things.**  A replacement is all or nothing unless it leaves behind a
temporary file that cannot be closed, or fails after the directories that it has made have changed
what the path leads to; and that takes double dots in the path. -/
theorem isAllOrNothing_replace_iff (hpath : path.IsProper) (htoken : '/' ∉ token.toList)
    (hunused : IsUnused hazards token path h) (content : List UInt8) :
    (IsAllOrNothing hazards token path content h ((replace hazards token path content).on h) ↔
      ¬ StrandsTemporary hazards token path h ∧ ¬ ShiftsTarget hazards token path h) ∧
    (h.files.IsRooted → ".." ∉ path.names → ¬ ShiftsTarget hazards token path h) :=
  ⟨isAllOrNothing_iff hpath htoken hunused content, fun hrooted hdots hshifts =>
    hshifts.2 (toOption_find_made hrooted hdots)⟩

/-- A host without files. -/
def bareHost : Host := ⟨[], [], FileTree.empty, "Linux"⟩

/-- A path through a directory that is made and back to where it was made. -/
def loopPath : Path := .ofText "x/../x"

theorem isUnused_loopPath : IsUnused {} "t" loopPath bareHost := by
  have hmissing : (made {} loopPath bareHost).find (beside loopPath "t") = .error .missing := by
    decide
  intro node
  rw [hmissing]
  exact nofun

/-- A directory is made at the path itself, and the temporary file cannot be given its name. -/
theorem isAllOrNothing_replace_iff_loopPath :
    loopPath.IsProper ∧ '/' ∉ "t".toList ∧ IsUnused {} "t" loopPath bareHost ∧
    (IsAllOrNothing {} "t" loopPath [] bareHost ((replace {} "t" loopPath []).on bareHost) ↔
      ¬ StrandsTemporary {} "t" loopPath bareHost ∧ ¬ ShiftsTarget {} "t" loopPath bareHost) ∧
    (bareHost.files.IsRooted → ".." ∉ loopPath.names →
      ¬ ShiftsTarget {} "t" loopPath bareHost) :=
  ⟨Path.isProper_ofText _, by decide, isUnused_loopPath,
    isAllOrNothing_replace_iff (Path.isProper_ofText _) (by decide) isUnused_loopPath []⟩

/-- A replacement that fails can change what stands at its path, and one of a temporary file that can
be taken away can leave it behind. -/
theorem not_forall_isAllOrNothing_replace :
    (¬ ∀ (h : Host) (path : Path), path.IsProper → IsUnused {} "t" path h →
      IsAllOrNothing {} "t" path [] h ((replace {} "t" path []).on h)) ∧
    ¬ ∀ (hazards : Hazards) (h : Host) (path : Path), path.IsProper → ".." ∉ path.names →
      IsUnused hazards "t" path h →
        IsAllOrNothing hazards "t" path [] h ((replace hazards "t" path []).on h) := by
  constructor
  · intro hall
    have hloop := hall bareHost loopPath (Path.isProper_ofText _) isUnused_loopPath
    have hend : (replace {} "t" loopPath []).on bareHost = (.error (.file .directory),
        bareHost.withFiles ⟨[([], .directory), (["x"], .directory)]⟩) := rfl
    rw [hend] at hloop
    have hsame := hloop.failed _ rfl
    revert hsame
    decide
  · intro hall
    let hazards : Hazards := { flush := some .other, closeAgain := some .other }
    have hmissing : (made hazards (.ofText "c") bareHost).find (beside (.ofText "c") "t") =
        .error .missing := by decide
    have hplain := hall hazards bareHost (.ofText "c") (Path.isProper_ofText _) (by decide)
      (fun node => by rw [hmissing]; exact nofun)
    have hend : (replace hazards "t" (.ofText "c") []).on bareHost = (.error (.file .other),
        bareHost.withFiles ⟨[([], .directory), ([".c.t.tmp"], .file [])]⟩) := rfl
    rw [hend] at hplain
    exact hplain.tidy rfl (.file []) (by decide)

end ApiShell.Host
