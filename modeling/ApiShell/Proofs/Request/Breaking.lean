import ApiShell.Proofs.Request.Masking
import ApiShell.Proofs.Request.Substitution
import ApiShell.Proofs.Run
import ApiShell.Proofs.Text.Split

/-!
# Inputs that break a request

A request that cannot be built ends with a request error, which says what is wrong with it.  Three
things are not foreseen: a file that is named by a path below the home directory of somebody else, a
path with the zero character in it, and data in a file whose bytes are no text.  `Breaks` lists
where they are met; everywhere else a request is built or ends with a request error
(`answer_buildRequest_iff`).
-/

namespace ApiShell.Request

open Host (Path)

variable {host : Host} {endpoint : Spec.Endpoint} {inputs : Inputs} {api : ApiConfig}

/-! ### What can be read -/

/-- The entry has a separator, and the texts on both sides of the first one are `key` and `value` with
blanks around them. -/
def IsPair (sep : Char) (entry key value : String) : Prop :=
  ∃ before after, entry.toList = before.toList ++ sep :: after.toList ∧ sep ∉ before.toList ∧
    Text.trim before = key ∧ Text.trim after = value ∧ key ≠ ""

/-- What a request needs before any file is read. -/
structure HasHead (endpoint : Spec.Endpoint) (inputs : Inputs) (api : ApiConfig) : Prop where
  url : api.url ≠ ""
  bound : ∀ cut : Cut, cut.text = endpoint.path.toList →
    ∀ name ∈ cut.names, isUnbound inputs.pathValues name = false
  queries : ∀ entry ∈ inputs.queries, ∃ key value, IsPair '=' entry key value
  headers : ∀ entry ∈ inputs.headers, ∃ key value, IsPair ':' entry key value

/-- The name leads to a file at a path, with its content. -/
structure NamesFile (host : Host) (name : String) (path : Path) (content : List UInt8) : Prop where
  expandUser : host.expandUser (.ofText name) = .ok path
  hasZero : Host.hasZero path = false
  read : host.read path = .ok content

/-- The entry is one of a form: a field, or a file that can be read. -/
def IsFormEntry (host : Host) (entry : String) : Prop :=
  ∃ key value, IsPair '=' entry key value ∧
    ∀ name, value = "@" ++ name → ∃ path content, NamesFile host name path content

/-! ### What breaks a request -/

/-- The name stands for no path that a file can have. -/
inductive Misnames (host : Host) (name : String) : Defect → Prop
  | noHome {user : String} {rest : List String} (hrelative : (Path.ofText name).isAbsolute = false)
      (hnames : (Path.ofText name).names = user :: rest) (hother : user ≠ "~")
      (htilde : user.toList.head? = some '~') : Misnames host name .noHome
  | zero {path : Path} (hexpand : host.expandUser (.ofText name) = .ok path)
      (hzero : Host.hasZero path = true) : Misnames host name Host.zeroDefect

/-- The body of the request cannot be made, for a reason that is not foreseen. -/
inductive Breaks (host : Host) (inputs : Inputs) : Defect → Prop
  /-- A file of the form is misnamed, and the entries before it are in order. -/
  | formFile {before after : List String} {entry key name : String} {defect : Defect}
      (hforms : inputs.forms = before ++ entry :: after)
      (hbefore : ∀ e ∈ before, IsFormEntry host e) (hentry : IsPair '=' entry key ("@" ++ name))
      (hname : Misnames host name defect) : Breaks host inputs defect
  /-- There is no form, and the file of the data is misnamed. -/
  | dataFile {name : String} {defect : Defect} (hforms : inputs.forms = [])
      (hdata : inputs.data = some ("@" ++ name)) (hname : Misnames host name defect) :
      Breaks host inputs defect
  /-- There is no form, and the bytes of the data are no text. -/
  | dataBytes {name : String} {path : Path} {content : List UInt8} (hforms : inputs.forms = [])
      (hdata : inputs.data = some ("@" ++ name)) (hfile : NamesFile host name path content)
      (hbytes : Text.ofUtf8? content = none) : Breaks host inputs .notUnicode

/-! ### Entries -/

theorem splitPair_eq_ok_iff {entry flag expected key value : String} {sep : Char} :
    splitPair entry sep flag expected = .ok (key, value) ↔ IsPair sep entry key value := by
  unfold splitPair Text.cut?
  constructor
  · intro h
    cases hcut : Text.cutAt? sep entry.toList with
    | none => rw [hcut] at h; cases h
    | some sides =>
      rw [hcut] at h
      obtain ⟨hentry, hsep⟩ := Text.cutAt?_eq_some hcut
      dsimp only [Option.map_some] at h
      split at h
      · cases h
      next hne =>
      obtain ⟨rfl, rfl⟩ := Prod.mk.inj (Except.ok.inj h)
      refine ⟨String.ofList sides.1, String.ofList sides.2, ?_, ?_, rfl, rfl, hne⟩
      · rw [String.toList_ofList, String.toList_ofList]
        exact hentry
      · rwa [String.toList_ofList]
  · rintro ⟨before, after, hentry, hsep, rfl, rfl, hne⟩
    rw [hentry, Text.cutAt?_append hsep, Option.map_some]
    dsimp only
    rw [String.ofList_toList, String.ofList_toList, if_neg hne]

theorem succeeds_splitPair_iff {entry flag expected : String} {sep : Char} :
    Succeeds (splitPair entry sep flag expected) ↔ ∃ key value, IsPair sep entry key value := by
  constructor
  · rintro ⟨⟨key, value⟩, h⟩
    exact ⟨key, value, splitPair_eq_ok_iff.1 h⟩
  · rintro ⟨key, value, h⟩
    exact ⟨(key, value), splitPair_eq_ok_iff.2 h⟩

/-- An entry has one key and one value. -/
theorem IsPair.unique {sep : Char} {entry key value key' value' : String}
    (h : IsPair sep entry key value) (h' : IsPair sep entry key' value') :
    key' = key ∧ value' = value := by
  have hsplit : splitPair entry sep "" "" = .ok (key, value) := splitPair_eq_ok_iff.2 h
  rw [splitPair_eq_ok_iff.2 h'] at hsplit
  exact Prod.mk.inj (Except.ok.inj hsplit)

/-! ### The head -/

theorem succeeds_substitute_iff {template : String} {values : List (String × String)} :
    Succeeds (substitute template values) ↔ ∀ cut : Cut, cut.text = template.toList →
      ∀ name ∈ cut.names, isUnbound values name = false := by
  obtain ⟨cut, hcut, honly, hfill⟩ := substitute_cut template values
  have hcuts : (∀ other : Cut, other.text = template.toList →
      ∀ name ∈ other.names, isUnbound values name = false) ↔
      cut.names.find? (isUnbound values) = none := by
    rw [List.find?_eq_none]
    constructor
    · intro h name hname
      rw [h cut hcut name hname]
      exact Bool.false_ne_true
    · intro h other hother name hname
      rw [honly other hother] at hname
      exact Bool.eq_false_iff.2 (h name hname)
  rw [hcuts]
  cases hfind : cut.names.find? (isUnbound values) with
  | some name =>
    rw [hfind] at hfill
    rw [hfill]
    exact iff_of_false (not_succeeds_error _) nofun
  | none =>
    rw [hfind] at hfill
    obtain ⟨texts, -, hfill⟩ := hfill
    exact iff_of_true ⟨_, hfill⟩ rfl

theorem succeeds_buildHead_iff :
    Succeeds (buildHead host endpoint inputs api) ↔ HasHead endpoint inputs api := by
  have hqueries : Succeeds (inputs.queries.mapM parseQuery) ↔
      ∀ entry ∈ inputs.queries, ∃ key value, IsPair '=' entry key value := by
    rw [succeeds_mapM_iff]
    exact forall₂_congr fun _ _ => succeeds_splitPair_iff
  have hheaders : Succeeds (inputs.headers.mapM parseHeader) ↔
      ∀ entry ∈ inputs.headers, ∃ key value, IsPair ':' entry key value := by
    rw [succeeds_mapM_iff]
    exact forall₂_congr fun _ _ => succeeds_splitPair_iff
  constructor
  · rintro ⟨head, hhead⟩
    obtain ⟨hurl, path, queries, entries, hpath, hq, hh, -⟩ := buildHead_eq_ok_iff.1 hhead
    exact ⟨hurl, succeeds_substitute_iff.1 ⟨path, hpath⟩, hqueries.1 ⟨queries, hq⟩,
      hheaders.1 ⟨entries, hh⟩⟩
  · rintro ⟨hurl, hbound, hq, hh⟩
    obtain ⟨path, hpath⟩ := succeeds_substitute_iff.2 hbound
    obtain ⟨queries, hq⟩ := hqueries.2 hq
    obtain ⟨entries, hh⟩ := hheaders.2 hh
    exact ⟨_, buildHead_eq_ok_iff.2 ⟨hurl, path, queries, entries, hpath, hq, hh, rfl⟩⟩

/-! ### Files -/

theorem expandUser_eq_error_iff {p : Path} {defect : Defect} :
    host.expandUser p = .error defect ↔ defect = .noHome ∧ p.isAbsolute = false ∧
      ∃ user rest, p.names = user :: rest ∧ user ≠ "~" ∧ user.toList.head? = some '~' := by
  unfold Host.expandUser
  constructor
  · intro h
    split at h
    · cases h
    next hother hrelative hnames =>
      split at h
      next htilde =>
        exact ⟨(Except.error.inj h).symm, hrelative, _, _, hnames, hother, by simpa using htilde⟩
      · cases h
    · cases h
  · rintro ⟨rfl, hrelative, user, rest, hnames, hother, htilde⟩
    rw [hrelative, hnames]
    split
    next hsame => exact absurd (List.cons.inj hsame).1 hother
    next hsame =>
      obtain ⟨rfl, -⟩ := List.cons.inj hsame
      simp [htilde]
    next hnone => exact absurd rfl (hnone user rest rfl)

theorem readNamedFile_eq_ok_iff {name : String} {path : Path} {content : List UInt8} :
    readNamedFile host name = .ok (path, content) ↔ NamesFile host name path content := by
  unfold readNamedFile
  constructor
  · intro h
    obtain ⟨path', hexpand, h⟩ := bind_eq_ok_iff.1 h
    rw [mapError_eq_ok_iff] at hexpand
    split at h
    · cases h
    next hzero =>
    split at h
    next hread =>
      obtain ⟨rfl, rfl⟩ := Prod.mk.inj (Except.ok.inj h)
      exact ⟨hexpand, Bool.eq_false_iff.2 hzero, hread⟩
    · cases h
  · rintro ⟨hexpand, hzero, hread⟩
    rw [hexpand]
    show (if Host.hasZero path = true then _ else _) = _
    rw [if_neg (Bool.eq_false_iff.1 hzero), hread]

theorem readNamedFile_eq_defect_iff {name : String} {defect : Defect} :
    readNamedFile host name = .error (.defect defect) ↔ Misnames host name defect := by
  unfold readNamedFile
  rw [bind_eq_error_iff]
  constructor
  · rintro (h | ⟨path, hexpand, h⟩)
    · cases hexpand : host.expandUser (.ofText name) with
      | ok path => rw [hexpand] at h; cases h
      | error d =>
        rw [hexpand] at h
        obtain rfl := Fault.defect.inj (Except.error.inj h)
        obtain ⟨rfl, hrelative, user, rest, hnames, hother, htilde⟩ :=
          expandUser_eq_error_iff.1 hexpand
        exact .noHome hrelative hnames hother htilde
    · rw [mapError_eq_ok_iff] at hexpand
      split at h
      next hzero =>
        obtain rfl := Fault.defect.inj (Except.error.inj h)
        exact .zero hexpand hzero
      · split at h <;> cases h
  · intro h
    cases h with
    | noHome hrelative hnames hother htilde =>
      left
      rw [expandUser_eq_error_iff.2 ⟨rfl, hrelative, _, _, hnames, hother, htilde⟩]
      rfl
    | zero hexpand hzero =>
      right
      exact ⟨_, mapError_eq_ok_iff.2 hexpand, if_pos hzero⟩

/-! ### Bodies -/

/-- What is foreseen to fail in the computation is a request error. -/
def FailsAsRequest {α : Type} (x : Except Fault α) : Prop :=
  ∀ f, x = .error (.failure f) → ∃ e, f = .request e

section FailsAsRequest

variable {α β : Type} {x : Except Fault α} {next : α → Except Fault β}

theorem failsAsRequest_ok (a : α) : FailsAsRequest (.ok a : Except Fault α) := nofun

theorem failsAsRequest_defect (defect : Defect) :
    FailsAsRequest (.error (.defect defect) : Except Fault α) := nofun

theorem failsAsRequest_request (e : RequestError) :
    FailsAsRequest (.error (.failure (.request e)) : Except Fault α) :=
  fun _ h => ⟨e, (Fault.failure.inj (Except.error.inj h)).symm⟩

theorem FailsAsRequest.bind (hx : FailsAsRequest x) (hnext : ∀ a, FailsAsRequest (next a)) :
    FailsAsRequest (x >>= next) := by
  intro f h
  rcases bind_eq_error_iff.1 h with h | ⟨a, -, h⟩
  · exact hx f h
  · exact hnext a f h

theorem FailsAsRequest.map (hx : FailsAsRequest x) (g : α → β) : FailsAsRequest (x.map g) :=
  fun f h => hx f (map_eq_error_iff.1 h)

end FailsAsRequest

theorem failsAsRequest_readNamedFile (host : Host) (name : String) :
    FailsAsRequest (readNamedFile host name) := by
  unfold readNamedFile
  refine .bind ?_ fun path => ?_
  · cases host.expandUser (.ofText name) with
    | ok path => exact failsAsRequest_ok path
    | error defect => exact failsAsRequest_defect defect
  · split
    · exact failsAsRequest_defect _
    · split
      · exact failsAsRequest_ok _
      · exact failsAsRequest_request _

theorem parseJson_eq_error {source text : String} {fault : Fault}
    (h : parseJson source text = .error fault) : ∃ e : RequestError, fault = .failure (.request e) := by
  unfold parseJson at h
  cases hread : Json.readText text with
  | ok v => rw [hread] at h; cases h
  | error problem => rw [hread] at h; exact ⟨_, (Except.error.inj h).symm⟩

theorem toList_at_append (name : String) : ("@" ++ name).toList = '@' :: name.toList :=
  String.toList_append

/-- A text names a file or does not. -/
theorem names_or_not (raw : String) : (∃ name, raw = "@" ++ name) ∨
    (∀ name, raw ≠ "@" ++ name) ∧ ∀ cs, raw.toList ≠ '@' :: cs := by
  rcases Classical.em (∃ name, raw = "@" ++ name) with h | h
  · exact .inl h
  · refine .inr ⟨not_exists.1 h, fun cs hcs => h ⟨String.ofList cs, String.ext ?_⟩⟩
    rw [hcs, toList_at_append, String.toList_ofList]

theorem parseData_at_append (host : Host) (name : String) :
    parseData host ("@" ++ name) = readNamedFile host name >>= fun file =>
      match Text.ofUtf8? file.2 with
      | some cs => parseJson file.1.text (String.ofList cs)
      | none => .error Defect.notUnicode := by
  unfold parseData
  split
  case h_1 cs hcs =>
    obtain rfl : cs = name.toList := (List.cons.inj (hcs.symm.trans (toList_at_append name))).2
    exact congrArg (readNamedFile host · >>= _) String.ofList_toList
  case h_2 hne => exact absurd (toList_at_append name) (hne _)

theorem parseData_of_ne {raw : String} (h : ∀ cs, raw.toList ≠ '@' :: cs) :
    parseData host raw = parseJson "--data" raw := by
  unfold parseData
  split
  next hname => exact absurd hname (h _)
  · rfl

theorem parseData_eq_defect_iff {raw : String} {defect : Defect} :
    parseData host raw = .error (.defect defect) ↔ ∃ name, raw = "@" ++ name ∧
      (Misnames host name defect ∨ defect = .notUnicode ∧
        ∃ path content, NamesFile host name path content ∧ Text.ofUtf8? content = none) := by
  rcases names_or_not raw with ⟨name, rfl⟩ | ⟨hne, hchars⟩
  · rw [parseData_at_append, bind_eq_error_iff, readNamedFile_eq_defect_iff]
    constructor
    · rintro (hname | ⟨⟨path, content⟩, hfile, h⟩)
      · exact ⟨name, rfl, .inl hname⟩
      · dsimp only at h
        cases htext : Text.ofUtf8? content with
        | some cs =>
          rw [htext] at h
          obtain ⟨e, he⟩ := parseJson_eq_error h
          cases he
        | none =>
          rw [htext] at h
          obtain rfl := Fault.defect.inj (Except.error.inj h)
          exact ⟨name, rfl, .inr ⟨rfl, path, content, readNamedFile_eq_ok_iff.1 hfile, htext⟩⟩
    · rintro ⟨name', hname', h⟩
      obtain rfl : name' = name := (String.append_right_inj "@").1 hname'.symm
      rcases h with hname | ⟨rfl, path, content, hfile, htext⟩
      · exact .inl hname
      · refine .inr ⟨(path, content), readNamedFile_eq_ok_iff.2 hfile, ?_⟩
        dsimp only
        rw [htext]
  · rw [parseData_of_ne hchars]
    constructor
    · intro h
      obtain ⟨e, he⟩ := parseJson_eq_error h
      cases he
    · rintro ⟨name, rfl, -⟩
      exact absurd rfl (hne name)

theorem failsAsRequest_parseData (host : Host) (raw : String) :
    FailsAsRequest (parseData host raw) := by
  have hjson (source text : String) : FailsAsRequest (parseJson source text) := by
    intro f h
    obtain ⟨e, he⟩ := parseJson_eq_error h
    exact ⟨e, Fault.failure.inj he⟩
  rcases names_or_not raw with ⟨name, rfl⟩ | ⟨-, hchars⟩
  · rw [parseData_at_append]
    refine (failsAsRequest_readNamedFile host name).bind fun file => ?_
    split
    · exact hjson _ _
    · exact failsAsRequest_defect _
  · rw [parseData_of_ne hchars]
    exact hjson _ _

/-! ### Forms -/

variable {form : List (String × String) × List FormFile} {entry key value name : String}

theorem addFormEntry_of_malformed (host : Host) (form : List (String × String) × List FormFile)
    (h : ¬ ∃ key value, IsPair '=' entry key value) :
    ∃ e : RequestError, addFormEntry host form entry = .error (.failure (.request e)) := by
  unfold addFormEntry
  cases hparse : parseForm entry with
  | ok pair => exact absurd ⟨pair.1, pair.2, splitPair_eq_ok_iff.1 hparse⟩ h
  | error e => exact ⟨e, rfl⟩

theorem addFormEntry_at_append (h : IsPair '=' entry key ("@" ++ name)) :
    addFormEntry host form entry = (readNamedFile host name).map fun file =>
      (form.1, form.2 ++ [⟨key, file.1.name, file.2⟩]) := by
  have hparse : parseForm entry = .ok (key, "@" ++ name) := splitPair_eq_ok_iff.2 h
  rw [addFormEntry, hparse]
  dsimp only [Except.mapError, bind, Except.bind]
  rw [toList_at_append]
  show (readNamedFile host (String.ofList name.toList) >>= fun _ => _) = _
  rw [String.ofList_toList]
  cases readNamedFile host name <;> rfl

theorem addFormEntry_of_ne (h : IsPair '=' entry key value) (hne : ∀ cs, value.toList ≠ '@' :: cs) :
    addFormEntry host form entry = .ok (form.1 ++ [(key, value)], form.2) := by
  have hparse : parseForm entry = .ok (key, value) := splitPair_eq_ok_iff.2 h
  rw [addFormEntry, hparse]
  dsimp only [Except.mapError, bind, Except.bind]
  split
  next hname => exact absurd hname (hne _)
  · rfl

theorem succeeds_addFormEntry_iff :
    Succeeds (addFormEntry host form entry) ↔ IsFormEntry host entry := by
  by_cases hpair : ∃ key value, IsPair '=' entry key value
  · obtain ⟨key, value, hpair⟩ := hpair
    rcases names_or_not value with ⟨name, rfl⟩ | ⟨hne, hchars⟩
    · rw [addFormEntry_at_append hpair, succeeds_map_iff]
      constructor
      · rintro ⟨⟨path, content⟩, hfile⟩
        refine ⟨key, "@" ++ name, hpair, fun name' hname' => ?_⟩
        obtain rfl := (String.append_right_inj "@").1 hname'
        exact ⟨path, content, readNamedFile_eq_ok_iff.1 hfile⟩
      · rintro ⟨key', value', hpair', hfile⟩
        obtain ⟨rfl, rfl⟩ := hpair.unique hpair'
        obtain ⟨path, content, hfile⟩ := hfile name rfl
        exact ⟨(path, content), readNamedFile_eq_ok_iff.2 hfile⟩
    · rw [addFormEntry_of_ne hpair hchars]
      exact iff_of_true ⟨_, rfl⟩ ⟨key, value, hpair, fun name hname => absurd hname (hne name)⟩
  · obtain ⟨e, he⟩ := addFormEntry_of_malformed host form hpair
    rw [he]
    exact iff_of_false (not_succeeds_error _) fun ⟨key, value, h, _⟩ => hpair ⟨key, value, h⟩

/-- The entries of a form can be read together when each of them can be. -/
theorem succeeds_formEntries_iff {entries : List String} :
    Succeeds (entries.foldlM (addFormEntry host) form) ↔ ∀ e ∈ entries, IsFormEntry host e :=
  succeeds_foldlM_iff_forall fun _ _ => succeeds_addFormEntry_iff

theorem addFormEntry_eq_defect_iff {defect : Defect} :
    addFormEntry host form entry = .error (.defect defect) ↔
      ∃ key name, IsPair '=' entry key ("@" ++ name) ∧ Misnames host name defect := by
  by_cases hpair : ∃ key value, IsPair '=' entry key value
  · obtain ⟨key, value, hpair⟩ := hpair
    rcases names_or_not value with ⟨name, rfl⟩ | ⟨hne, hchars⟩
    · rw [addFormEntry_at_append hpair, map_eq_error_iff, readNamedFile_eq_defect_iff]
      constructor
      · exact fun hname => ⟨key, name, hpair, hname⟩
      · rintro ⟨key', name', hpair', hname⟩
        obtain rfl := (String.append_right_inj "@").1 (hpair.unique hpair').2
        exact hname
    · rw [addFormEntry_of_ne hpair hchars]
      refine iff_of_false nofun ?_
      rintro ⟨key', name, hpair', -⟩
      exact hne name (hpair.unique hpair').2.symm
  · obtain ⟨e, he⟩ := addFormEntry_of_malformed host form hpair
    rw [he]
    exact iff_of_false nofun fun ⟨key, name, h, _⟩ => hpair ⟨key, _, h⟩

theorem failsAsRequest_addFormEntry (host : Host) (form : List (String × String) × List FormFile)
    (entry : String) : FailsAsRequest (addFormEntry host form entry) := by
  by_cases hpair : ∃ key value, IsPair '=' entry key value
  · obtain ⟨key, value, hpair⟩ := hpair
    rcases names_or_not value with ⟨name, rfl⟩ | ⟨-, hchars⟩
    · rw [addFormEntry_at_append hpair]
      exact (failsAsRequest_readNamedFile host name).map _
    · rw [addFormEntry_of_ne hpair hchars]
      exact failsAsRequest_ok _
  · obtain ⟨e, he⟩ := addFormEntry_of_malformed host form hpair
    rw [he]
    exact failsAsRequest_request e

/-! ### Requests -/

theorem buildBody_eq_defect_iff {defect : Defect} :
    buildBody host inputs = .error (.defect defect) ↔ Breaks host inputs defect := by
  unfold buildBody
  split
  next hforms =>
    have hne : inputs.forms ≠ [] := by simpa using hforms
    rw [map_eq_error_iff, foldlM_eq_error_iff]
    constructor
    · rintro ⟨before, entry, after, form, hsplit, hbefore, hfails⟩
      obtain ⟨key, name, hentry, hname⟩ := addFormEntry_eq_defect_iff.1 hfails
      refine .formFile hsplit ?_ hentry hname
      exact succeeds_formEntries_iff.1 ⟨form, hbefore⟩
    · intro h
      cases h with
      | formFile hsplit hbefore hentry hname =>
        obtain ⟨form, hform⟩ := succeeds_formEntries_iff.2 hbefore
        exact ⟨_, _, _, form, hsplit, hform, addFormEntry_eq_defect_iff.2 ⟨_, _, hentry, hname⟩⟩
      | dataFile hnone => exact absurd hnone hne
      | dataBytes hnone => exact absurd hnone hne
  next hforms =>
    have hnone : inputs.forms = [] := by simpa using hforms
    cases hdata : inputs.data with
    | none =>
      refine iff_of_false nofun fun h => ?_
      cases h with
      | formFile hsplit => simp [hnone] at hsplit
      | dataFile _ hsome => rw [hdata] at hsome; cases hsome
      | dataBytes _ hsome => rw [hdata] at hsome; cases hsome
    | some raw =>
      dsimp only
      rw [map_eq_error_iff, parseData_eq_defect_iff]
      constructor
      · rintro ⟨name, rfl, hname | ⟨rfl, path, content, hfile, hbytes⟩⟩
        · exact .dataFile hnone hdata hname
        · exact .dataBytes hnone hdata hfile hbytes
      · intro h
        cases h with
        | formFile hsplit => simp [hnone] at hsplit
        | dataFile _ hsome hname =>
          exact ⟨_, Option.some.inj (hdata.symm.trans hsome), .inl hname⟩
        | dataBytes _ hsome hfile hbytes =>
          exact ⟨_, Option.some.inj (hdata.symm.trans hsome), .inr ⟨rfl, _, _, hfile, hbytes⟩⟩

theorem failsAsRequest_buildBody (host : Host) (inputs : Inputs) :
    FailsAsRequest (buildBody host inputs) := by
  unfold buildBody
  split
  · refine FailsAsRequest.map (fun f h => ?_) _
    obtain ⟨_, entry, _, form, _, _, hfails⟩ := foldlM_eq_error_iff.1 h
    exact failsAsRequest_addFormEntry host form entry f hfails
  · cases inputs.data with
    | none => exact failsAsRequest_ok _
    | some raw => exact (failsAsRequest_parseData host raw).map _

/-- Building a request fails where its head or its body does. -/
theorem answer_buildRequest_eq_error_iff {fault : Fault} :
    (buildRequest host endpoint inputs api).answer = .error fault ↔
      (∃ e : RequestError, buildHead host endpoint inputs api = .error e ∧
        fault = .failure (.request e)) ∨
      Succeeds (buildHead host endpoint inputs api) ∧ buildBody host inputs = .error fault := by
  cases hhead : buildHead host endpoint inputs api with
  | error e =>
    have hanswer : (buildRequest host endpoint inputs api).answer = .error (.failure (.request e)) := by
      unfold buildRequest
      rw [hhead]
      rfl
    rw [hanswer]
    constructor
    · exact fun h => .inl ⟨e, rfl, (Except.error.inj h).symm⟩
    · rintro (⟨e', he, rfl⟩ | ⟨hnone, -⟩)
      · rw [Except.error.inj he]
      · exact absurd hnone (not_succeeds_error e)
  | ok head =>
    cases hbody : buildBody host inputs with
    | error fault' =>
      have hanswer : (buildRequest host endpoint inputs api).answer = .error fault' := by
        unfold buildRequest
        rw [hhead, hbody]
        dsimp only
        split <;> rfl
      rw [hanswer]
      constructor
      · exact fun h => .inr ⟨⟨head, rfl⟩, congrArg _ (Except.error.inj h)⟩
      · rintro (⟨e, he, -⟩ | ⟨-, h⟩)
        · cases he
        · exact congrArg _ (Except.error.inj h)
    | ok body =>
      rw [answer_buildRequest hhead hbody]
      refine iff_of_false nofun ?_
      rintro (⟨e, he, -⟩ | ⟨-, h⟩)
      · cases he
      · cases h

/-- A host with a file whose only byte begins no character. -/
def byteHost : Host := { bareHost with files := ⟨[([], .directory), (["body.json"], .file [0xFF])]⟩ }

end ApiShell.Request
