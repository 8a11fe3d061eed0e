import ApiShell.Host.Replacement
import ApiShell.Proofs.Host.FileTree

/-!
# Replacing a file that is there

Where a file stands at a path and there is room for a temporary file beside it, replacing the file
succeeds if no operation fails by itself: the file has its new content, and nothing else has changed.
-/

namespace ApiShell.Host

variable {α β : Type} {h h' h'' : Host} {path temporary : Path} {content old : List UInt8}
  {token : String}

/-! ### Tasks -/

namespace Task

variable {x : Task α} {f : α → Task β} {a : α} {r : Except Defect β}

/-- How a task ends on a host, and the host that it leaves. -/
def on (x : Task α) (h : Host) : Except Defect α × Host := (x.run.run h : Id _)

theorem on_bind (hx : x.on h = (.ok a, h')) (hf : (f a).on h' = (r, h'')) :
    (x >>= f).on h = (r, h'') := by
  unfold on at hx hf ⊢
  rw [ExceptT.run_bind, StateT.run_bind, hx]
  exact hf

theorem on_tryCatch {recover : Defect → Task α} (hx : x.on h = (.ok a, h')) :
    (tryCatch x recover).on h = (.ok a, h') := by
  unfold on ExceptT.run at hx
  change ((ExceptT.tryCatch x recover).run.run h : Id _) = _
  rw [ExceptT.tryCatch, ExceptT.run_mk, StateT.run_bind, hx]
  rfl

/-- A sequence ends where its first part ends early. -/
theorem on_bind_error {defect : Defect} (hx : x.on h = (.error defect, h')) :
    (x >>= f).on h = (.error defect, h') := by
  unfold on at hx ⊢
  rw [ExceptT.run_bind, StateT.run_bind, hx]
  rfl

theorem on_tryCatch_error {recover : Defect → Task α} {defect : Defect} {r : Except Defect α}
    (hx : x.on h = (.error defect, h')) (hrecover : (recover defect).on h' = (r, h'')) :
    (tryCatch x recover).on h = (r, h'') := by
  unfold on ExceptT.run at hx hrecover
  change ((ExceptT.tryCatch x recover).run.run h : Id _) = _
  rw [ExceptT.tryCatch, ExceptT.run_mk, StateT.run_bind, hx]
  exact hrecover

theorem on_modify (change : Host → Host) (h : Host) :
    (modify change : Task Unit).on h = (.ok (), change h) :=
  rfl

theorem on_change (step : Host → Except FileFault Host) (hstep : step h = .ok h') :
    (change step).on h = (.ok (), h') := by
  have hget : (get : Task Host).on h = (.ok h, h) := rfl
  refine on_bind hget ?_
  rw [hstep]
  rfl

theorem on_change_error {fault : FileFault} (step : Host → Except FileFault Host)
    (hstep : step h = .error fault) : (change step).on h = (.error (.file fault), h) := by
  have hget : (get : Task Host).on h = (.ok h, h) := rfl
  refine on_bind hget ?_
  rw [hstep]
  rfl

end Task

/-- Making directories leaves those that were made, however it ends. -/
theorem on_makeDirectories (h : Host) (path : Path) : (makeDirectories path).on h =
    match h.files.makeUpwards (h.start path) path.names.reverse with
    | (.ok (), files) => (.ok (), { h with files })
    | (.error fault, files) => (.error (.file fault), { h with files }) := by
  have hget : (get : Task Host).on h = (.ok h, h) := rfl
  refine Task.on_bind hget ?_
  rcases h.files.makeUpwards (h.start path) path.names.reverse with ⟨_ | _, files⟩ <;> rfl

/-! ### Files -/

/-- A file with this content stands at the path. -/
structure Holds (h : Host) (path : Path) (content : List UInt8) : Prop where
  named : ¬ hasZero path
  found : h.find path = .ok (.file content)

/-- A file stands at a path that leads to the place of one. -/
theorem find_eq_file_iff : h.find path = .ok (.file content) ↔
    ∃ place, h.files.follow (h.start path) path.names = .ok place ∧
      h.files.node? place = some (.file content) :=
  FileTree.find_eq_ok_iff

/-- A path leads to a file, to none, or has a name that is too long. -/
theorem isFile_cases (h : Host) (path : Path) :
    (h.isFile path = .ok true ∧ ∃ content, h.Holds path content) ∨ h.isFile path = .ok false ∨
      (h.isFile path = .error (.file .tooLong) ∧ ¬ hasZero path ∧ h.find path = .error .tooLong) := by
  unfold isFile
  by_cases hzero : hasZero path
  · rw [if_pos hzero]
    exact .inr (.inl rfl)
  · rw [if_neg hzero]
    split
    · next content hfound => exact .inl ⟨rfl, content, hzero, hfound⟩
    · next hlong => exact .inr (.inr ⟨rfl, hzero, hlong⟩)
    · exact .inr (.inl rfl)

theorem Holds.isFile (hold : h.Holds path content) : h.isFile path = .ok true := by
  rw [Host.isFile, if_neg hold.named, hold.found]

theorem Holds.readText (hold : h.Holds path content) :
    h.readText path = .ok ((Text.ofUtf8? content).map Text.plainBreaks) := by
  have hread : h.read path = .ok content := by
    rw [read, hold.found]
    rfl
  rw [Host.readText, hread]
  rfl

theorem write_of_follow {place : Place} (hfollow : h.files.follow (h.start path) path.names = .ok place)
    (hnode : h.files.node? place ≠ some .directory) (content : List UInt8) :
    h.write path content = .ok { h with files := h.files.put place (.file content) } := by
  rw [write, FileTree.write_of_follow hfollow hnode]
  rfl

theorem write_of_directory {place : Place}
    (hfollow : h.files.follow (h.start path) path.names = .ok place)
    (hnode : h.files.node? place = some .directory) (content : List UInt8) :
    h.write path content = .error .directory := by
  rw [write, FileTree.write_of_directory hfollow hnode]
  rfl

theorem remove_of_follow {place : Place} (hfollow : h.files.follow (h.start path) path.names = .ok place)
    (hnode : h.files.node? place = some (.file content)) :
    h.remove path = .ok { h with files := h.files.erase place } := by
  unfold remove
  rw [hfollow]
  dsimp only [bind, Except.bind]
  rw [hnode]

/-! ### The files on the way -/

namespace FileTree

variable {t : FileTree} {spare place : Place}

/-- The files with an empty temporary file at a place. -/
def reserved (t : FileTree) (spare : Place) : FileTree := t.put spare (.file [])

/-- The files with a temporary file at a place that has the content. -/
def staged (t : FileTree) (spare : Place) (content : List UInt8) : FileTree :=
  (t.reserved spare).put spare (.file content)

/-- The files once the content of the temporary file has gone to the place of another. -/
def replaced (t : FileTree) (spare place : Place) (content : List UInt8) : FileTree :=
  ((t.staged spare content).put place (.file content)).erase spare

theorem node?_reserved (t : FileTree) (spare : Place) :
    (t.reserved spare).node? spare = some (.file []) := by
  rw [reserved, node?_put, if_pos rfl]

theorem node?_staged (t : FileTree) (spare : Place) (content : List UInt8) (other : Place) :
    (t.staged spare content).node? other =
      if other = spare then some (.file content) else t.node? other := by
  rw [staged, reserved, node?_put, node?_put]
  split <;> rfl

theorem reserved_ne_directory (t : FileTree) (spare : Place) :
    (t.reserved spare).node? spare ≠ some .directory := by
  rw [node?_reserved]
  exact nofun

theorem keepsDirectories_reserved (hfree : t.node? spare = none) :
    KeepsDirectories t (t.reserved spare) :=
  keepsDirectories_put (by rw [hfree]; exact nofun) _

theorem keepsDirectories_staged (hfree : t.node? spare = none) (content : List UInt8) :
    KeepsDirectories t (t.staged spare content) := fun other hother =>
  keepsDirectories_put (t.reserved_ne_directory spare) _ other
    (keepsDirectories_reserved hfree other hother)

/-- Nothing but the place of the other file has changed. -/
theorem node?_replaced (hfree : t.node? spare = none) (hne : spare ≠ place) (content : List UInt8)
    (other : Place) : (t.replaced spare place content).node? other =
      if other = place then some (.file content) else t.node? other := by
  rw [replaced, node?_erase, node?_put, node?_staged]
  by_cases hother : other = spare
  · rw [if_pos hother, if_neg (hother ▸ hne), hother, hfree]
  · rw [if_neg hother, if_neg hother]

end FileTree

/-! ### Replacing -/

/-- The path of the temporary file. -/
def beside (path : Path) (token : String) : Path :=
  path.parent.child (temporaryName path.name token)

/-- The path has a last name, and beside it the name of the temporary file can be given to a file. -/
structure HasRoom (h : Host) (path : Path) (token : String) : Prop where
  name : path.names ≠ [] ∧ path.name ≠ ".."
  free : ∃ place, h.files.follow (h.start (beside path token)) (beside path token).names = .ok place ∧
    h.files.node? place = none

/-- The directory of a file is there. -/
theorem Holds.on_makeDirectories_parent (hold : h.Holds path old) (hname : path.names ≠ []) :
    (makeDirectories path.parent).on h = (.ok (), h) := by
  have hmade : h.files.makeUpwards (h.start path.parent) path.parent.names.reverse =
      (.ok (), h.files) := FileTree.makeUpwards_dropLast hold.found hname
  rw [on_makeDirectories, hmade]

theorem Holds.not_hasZero_parent (hold : h.Holds path old) : ¬ hasZero path.parent := by
  intro hzero
  obtain ⟨name, hname, hchar⟩ := List.any_eq_true.1 hzero
  exact hold.named (List.any_eq_true.2 ⟨name, List.dropLast_subset _ hname, hchar⟩)

/-- Giving a file another name writes its content there and takes the file away. -/
theorem rename_of_read {source target : Path} (hread : h.read source = .ok content) :
    h.rename source target =
      if target.names.isEmpty || target.name == ".." then .error .busy
      else h.write target content >>= fun h => h.remove source := by
  unfold rename
  rw [hread]
  change (if (target.names.isEmpty || target.name == "..") = true then _ else _) = _
  split <;> rfl

/-- A file that was written can be given the name of a file, or one that nothing has. -/
theorem rename_of_follow {source target : Path} {spare place : Place}
    (hspare : h.files.follow (h.start source) source.names = .ok spare)
    (hplace : h.files.follow (h.start target) target.names = .ok place)
    (hcontent : h.files.node? spare = some (.file content))
    (hfile : h.files.node? place ≠ some .directory)
    (hname : target.names ≠ [] ∧ target.name ≠ "..") :
    h.rename source target =
      .ok { h with files := (h.files.put place (.file content)).erase spare } := by
  have hread : h.read source = .ok content := by
    rw [read, find_eq_file_iff.2 ⟨spare, hspare, hcontent⟩]
    rfl
  have hwrite := write_of_follow hplace hfile content
  have hkeeps := FileTree.keepsDirectories_put hfile (.file content)
  have hmoved : (h.files.put place (.file content)).node? spare = some (.file content) := by
    rw [FileTree.node?_put, hcontent, ite_self]
  have hnamed : (target.names.isEmpty || target.name == "..") = false := by
    simp [hname.1, hname.2]
  rw [rename_of_read hread, hnamed, if_neg Bool.false_ne_true]
  refine bind_eq_ok_iff.2 ⟨_, hwrite, ?_⟩
  exact remove_of_follow (FileTree.follow_of_keepsDirectories hkeeps hspare) hmoved

/-- Where one place has got a new content, its path leads to it. -/
theorem Holds.of_files {place : Place} {files : FileTree} (hold : h.Holds path old)
    (hplace : h.files.follow (h.start path) path.names = .ok place)
    (hfiles : ∀ other, files.node? other =
      if other = place then some (.file content) else h.files.node? other) :
    Holds { h with files } path content where
  named := hold.named
  found := by
    obtain ⟨place', hplace', hnode⟩ := find_eq_file_iff.1 hold.found
    obtain rfl := Except.ok.inj (hplace.symm.trans hplace')
    have hkeeps : FileTree.KeepsDirectories h.files files := by
      intro other hother
      have hne : other ≠ place := by
        rintro rfl
        rw [hnode] at hother
        cases hother
      rw [hfiles, if_neg hne, hother]
    exact find_eq_file_iff.2 ⟨place, FileTree.follow_of_keepsDirectories hkeeps hplace,
      (hfiles place).trans (if_pos rfl)⟩

/-- Where no operation fails by itself, the temporary file gets the content. -/
theorem on_fill_of_follow {spare : Place}
    (hspare : h.files.follow (h.start temporary) temporary.names = .ok spare)
    (hnode : h.files.node? spare ≠ some .directory) (content : List UInt8) :
    (fill {} temporary content).on h =
      (.ok (), { h with files := h.files.put spare (.file content) }) := by
  have hwrite := Task.on_change (·.write temporary content) (write_of_follow hspare hnode content)
  exact Task.on_bind rfl (Task.on_bind rfl (Task.on_bind hwrite (Task.on_bind rfl rfl)))

/-- **A file that is there can be replaced.**  If no operation fails by itself, it has its new content,
and nothing else has changed. -/
theorem on_replace (hold : h.Holds path old) (hroom : h.HasRoom path token)
    (content : List UInt8) : ∃ place files,
      h.files.follow (h.start path) path.names = .ok place ∧
      (replace {} token path content).on h = (.ok (), { h with files }) ∧
      ∀ other, files.node? other =
        if other = place then some (.file content) else h.files.node? other := by
  obtain ⟨place, hplace, hnode⟩ := find_eq_file_iff.1 hold.found
  obtain ⟨spare, hspare, hfree⟩ := hroom.free
  have hne : spare ≠ place := by
    rintro rfl
    rw [hnode] at hfree
    cases hfree
  have hkeeps := FileTree.keepsDirectories_staged hfree content
  have hcontent : (h.files.staged spare content).node? spare = some (.file content) := by
    rw [FileTree.node?_staged, if_pos rfl]
  have hstays : (h.files.staged spare content).node? place ≠ some .directory := by
    rw [FileTree.node?_staged, if_neg (Ne.symm hne), hnode]
    exact nofun
  -- The temporary file is made, gets the content, and then the name.
  have hmake : (Task.change (·.write (beside path token) [])).on h =
      (.ok (), { h with files := h.files.reserved spare }) :=
    Task.on_change (·.write (beside path token) [])
      (write_of_follow hspare (by rw [hfree]; exact nofun) [])
  have hfill : (fill {} (beside path token) content).on
      { h with files := h.files.reserved spare } =
        (.ok (), { h with files := h.files.staged spare content }) :=
    on_fill_of_follow (h := { h with files := h.files.reserved spare })
      (FileTree.follow_of_keepsDirectories (FileTree.keepsDirectories_reserved hfree) hspare)
      (h.files.reserved_ne_directory spare) content
  have hsettle : (settle {} (beside path token) path).on
      { h with files := h.files.staged spare content } =
        (.ok (), { h with files := h.files.replaced spare place content }) :=
    Task.on_bind rfl (Task.on_change (·.rename (beside path token) path)
      (rename_of_follow (h := { h with files := h.files.staged spare content })
        (FileTree.follow_of_keepsDirectories hkeeps hspare)
        (FileTree.follow_of_keepsDirectories hkeeps hplace) hcontent hstays hroom.name))
  refine ⟨place, h.files.replaced spare place content, hplace, ?_,
    FileTree.node?_replaced hfree hne content⟩
  unfold replace
  dsimp only
  rw [if_neg hold.not_hasZero_parent, if_neg hold.named]
  refine Task.on_bind rfl ?_
  refine Task.on_bind (hold.on_makeDirectories_parent hroom.name.1) ?_
  refine Task.on_bind rfl ?_
  refine Task.on_bind hmake ?_
  exact Task.on_bind (Task.on_tryCatch hfill) (Task.on_tryCatch hsettle)

end ApiShell.Host
