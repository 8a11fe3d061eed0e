import ApiShell.Proofs.Request.Breaking
import ApiShell.Proofs.Spec.Fetching

/-!
# Loading a description

Whatever stands at a location, and whatever a server replies, loading a description from there gives a
mapping, fails in a way that is foreseen, or runs into a defect.  What runs into a defect is listed by
`Breaks`: paths that no file can have, bytes that are no text, YAML whose values cannot be made, and
addresses that prove to be of no use.  The list is complete (`loaded_eq_defect_iff`), so there are only
the foreseen failures where nothing on it occurs (`isForeseen_loaded_iff`).
-/

namespace ApiShell.Spec

open Http (Server Talk Sent Url)
open Host (Path)

/-! ### Files -/

/-- What loading a description from a file runs into. -/
inductive FileBreaks (host : Host) (location : String) : Defect → Prop where
  /-- The path begins in the home directory of another user. -/
  | noHome {user : String} {rest : List String} (relative : (Path.ofText location).isAbsolute = false)
      (names : (Path.ofText location).names = user :: rest) (other : user ≠ "~")
      (tilde : user.toList.head? = some '~') : FileBreaks host location .noHome
  /-- The path has a name that is too long for a file. -/
  | name {path : Path} (expands : host.expandUser (.ofText location) = .ok path)
      (named : ¬ Host.hasZero path) (tooLong : host.find path = .error .tooLong) :
      FileBreaks host location (.file .tooLong)
  /-- The bytes of the file are no text. -/
  | bytes {path : Path} {content : List UInt8}
      (expands : host.expandUser (.ofText location) = .ok path) (holds : host.Holds path content)
      (noText : Text.ofUtf8? content = none) : FileBreaks host location .notUnicode
  /-- The values that the text writes cannot be made. -/
  | text {path : Path} {content : List UInt8} {cs : List Char} {d : Defect}
      (expands : host.expandUser (.ofText location) = .ok path) (holds : host.Holds path content)
      (isText : Text.ofUtf8? content = some cs)
      (given : ¬ (Text.plainBreaks cs).all Text.isBlank)
      (misreads : Misreads (hintOfSuffix path.suffix) (String.ofList (Text.plainBreaks cs)) d) :
      FileBreaks host location d

section Files

variable {host : Host} {location : String} {path : Path} {content : List UInt8} {d : Defect}

/-- Loading from a file that is there. -/
theorem loadFile_of_holds (expands : host.expandUser (.ofText location) = .ok path)
    (holds : host.Holds path content) : loadFile host location =
      match Text.ofUtf8? content with
      | none => .error (.defect .notUnicode)
      | some cs =>
        if (Text.plainBreaks cs).all Text.isBlank then .error (SpecError.emptyFile location : Fault)
        else parseContent (String.ofList (Text.plainBreaks cs)) (hintOfSuffix path.suffix) location := by
  unfold loadFile
  rw [expands]
  dsimp only [Except.mapError, bind, Except.bind]
  rw [holds.isFile, holds.readText]
  refine (if_neg (by decide)).trans ?_
  cases Text.ofUtf8? content with
  | none => rfl
  | some cs =>
    dsimp only [Option.map_some]
    split <;> rfl

theorem loadFile_of_isFile_eq_false (expands : host.expandUser (.ofText location) = .ok path)
    (h : host.isFile path = .ok false) :
    loadFile host location = .error (SpecError.fileNotFound location : Fault) := by
  unfold loadFile
  rw [expands]
  dsimp only [Except.mapError, bind, Except.bind]
  rw [h]
  rfl

theorem loadFile_of_isFile_eq_error (expands : host.expandUser (.ofText location) = .ok path)
    (h : host.isFile path = .error d) : loadFile host location = .error (.defect d) := by
  unfold loadFile
  rw [expands]
  dsimp only [Except.mapError, bind, Except.bind]
  rw [h]

theorem loadFile_of_expandUser_eq_error (h : host.expandUser (.ofText location) = .error d) :
    loadFile host location = .error (.defect d) := by
  unfold loadFile
  rw [h]
  rfl

/-- What loading from a file comes to: what stands there, if it can stand there. -/
theorem loadFile_foreseen_or (host : Host) (location : String) :
    IsForeseen (loadFile host location) ∨ ∃ d, loadFile host location = .error (.defect d) := by
  cases hexpands : host.expandUser (.ofText location) with
  | error d => exact .inr ⟨d, loadFile_of_expandUser_eq_error hexpands⟩
  | ok path =>
    rcases host.isFile_cases path with ⟨-, content, holds⟩ | hnone | ⟨hlong, -⟩
    · rw [loadFile_of_holds hexpands holds]
      split
      · exact .inr ⟨_, rfl⟩
      · split
        · exact .inl (isForeseen_spec _)
        · exact parseContent_foreseen_or _ _ _
    · rw [loadFile_of_isFile_eq_false hexpands hnone]
      exact .inl (isForeseen_spec _)
    · exact .inr ⟨_, loadFile_of_isFile_eq_error hexpands hlong⟩

theorem loadFile_eq_defect_iff :
    loadFile host location = .error (.defect d) ↔ FileBreaks host location d := by
  constructor
  · intro h
    cases hexpands : host.expandUser (.ofText location) with
    | error d' =>
      rw [loadFile_of_expandUser_eq_error hexpands] at h
      cases h
      obtain ⟨rfl, hrelative, user, rest, hnames, hother, htilde⟩ :=
        Request.expandUser_eq_error_iff.1 hexpands
      exact .noHome hrelative hnames hother htilde
    | ok path =>
      rcases host.isFile_cases path with ⟨-, content, holds⟩ | hnone | ⟨hlong, hnamed, hfind⟩
      · rw [loadFile_of_holds hexpands holds] at h
        split at h
        · next hnoText =>
          cases h
          exact .bytes hexpands holds hnoText
        · next cs hcs =>
          split at h
          · cases h
          · next hgiven => exact .text hexpands holds hcs hgiven (parseContent_eq_defect_iff.1 h)
      · rw [loadFile_of_isFile_eq_false hexpands hnone] at h
        cases h
      · rw [loadFile_of_isFile_eq_error hexpands hlong] at h
        cases h
        exact .name hexpands hnamed hfind
  · intro h
    cases h with
    | noHome relative names other tilde =>
      exact loadFile_of_expandUser_eq_error
        (Request.expandUser_eq_error_iff.2 ⟨rfl, relative, _, _, names, other, tilde⟩)
    | name expands named tooLong =>
      refine loadFile_of_isFile_eq_error expands ?_
      rw [Host.isFile, if_neg named, tooLong]
    | bytes expands holds noText => rw [loadFile_of_holds expands holds, noText]
    | text expands holds isText given misreads =>
      rw [loadFile_of_holds expands holds, isText]
      exact (if_neg given).trans (parseContent_eq_defect_iff.2 misreads)

end Files

/-! ### Locations -/

/-- What comes of loading a description after the requests in `before`. -/
def loaded (host : Host) (server : Server) (location : String) (before : List Sent) :
    Except Fault Value :=
  (((load host server location).run.run before).run []).1.1

/-- What loading a description runs into. -/
inductive Breaks (host : Host) (server : Server) (location : String) (before : List Sent) :
    Defect → Prop where
  | file {d : Defect} (isFile : isUrl location = false) (breaks : FileBreaks host location d) :
      Breaks host server location before d
  | url {d : Defect} (isUrl : isUrl location = true) (breaks : UrlBreaks server location before d) :
      Breaks host server location before d

section Locations

variable {host : Host} {server : Server} {location : String} {before : List Sent} {d : Defect}

theorem loaded_of_comes {answer : Except Fault Value} {after : List Sent}
    (h : (load host server location).Comes before answer after) :
    loaded host server location before = answer := by
  obtain ⟨log, hrun⟩ := h []
  unfold loaded
  rw [hrun]

theorem loaded_of_file (h : isUrl location = false) :
    loaded host server location before = loadFile host location := by
  have hcomes : (load host server location).Comes before (loadFile host location) before := by
    rw [load, h]
    exact .ofExcept _ before
  exact loaded_of_comes hcomes

theorem loaded_of_url {url : Url} (h : isUrl location = true) (hurl : Url.ofText location = .ok url) :
    loaded host server location before =
      fetched server location before url >>= responseAnswer location := by
  obtain ⟨after, hcomes⟩ := exists_comes_loadUrl hurl server before
  have hload : load host server location = loadUrl server location := by
    rw [load, h]
    rfl
  exact loaded_of_comes (hload ▸ hcomes)

theorem loaded_of_no_url {problem : Http.UrlProblem} (h : isUrl location = true)
    (hurl : Url.ofText location = .error problem) :
    loaded host server location before = .error (.defect .invalidUrl) := by
  have hload : load host server location = loadUrl server location := by
    rw [load, h]
    rfl
  exact loaded_of_comes (hload ▸ comes_loadUrl_error hurl server before)

/-- Loading gives a mapping, a failure that is foreseen, or a defect. -/
theorem loaded_foreseen_or (host : Host) (server : Server) (location : String) (before : List Sent) :
    IsForeseen (loaded host server location before) ∨
      ∃ d, loaded host server location before = .error (.defect d) := by
  cases hisUrl : isUrl location with
  | false =>
    rw [loaded_of_file hisUrl]
    exact loadFile_foreseen_or host location
  | true =>
    cases hurl : Url.ofText location with
    | error problem => exact .inr ⟨_, loaded_of_no_url hisUrl hurl⟩
    | ok url =>
      rw [loaded_of_url hisUrl hurl]
      exact fetched_foreseen_or server location before url

/-- What loading runs into is told by `Breaks`. -/
theorem loaded_eq_defect_iff : loaded host server location before = .error (.defect d) ↔
    Breaks host server location before d := by
  constructor
  · intro h
    cases hisUrl : isUrl location with
    | false =>
      rw [loaded_of_file hisUrl] at h
      exact .file hisUrl (loadFile_eq_defect_iff.1 h)
    | true =>
      cases hurl : Url.ofText location with
      | error problem =>
        rw [loaded_of_no_url hisUrl hurl] at h
        cases h
        exact .url hisUrl (.address hurl)
      | ok url =>
        rw [loaded_of_url hisUrl hurl] at h
        exact .url hisUrl ((fetched_eq_defect_iff hurl).1 h)
  · rintro (⟨hisFile, hbreaks⟩ | ⟨hisUrl, hbreaks⟩)
    · rw [loaded_of_file hisFile]
      exact loadFile_eq_defect_iff.2 hbreaks
    · cases hurl : Url.ofText location with
      | error problem =>
        rw [loaded_of_no_url hisUrl hurl]
        cases hbreaks with
        | address => rfl
        | misdirected isUrl => cases hurl.symm.trans isUrl
        | target isUrl => cases hurl.symm.trans isUrl
        | content isUrl => cases hurl.symm.trans isUrl
      | ok url =>
        rw [loaded_of_url hisUrl hurl]
        exact (fetched_eq_defect_iff hurl).2 hbreaks

/-- A host with a file of a single byte that is no text. -/
def hostWithByte : Host :=
  ⟨[], [], ⟨[([], .directory), (["spec.yaml"], .file [0xFF])]⟩, "Linux"⟩

end Locations

end ApiShell.Spec
