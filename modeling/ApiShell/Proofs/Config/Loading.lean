import ApiShell.Config.Basic
import ApiShell.Proofs.Host.Replacement

/-!
# Loading a configuration

Whatever stands at a path, loading it gives a configuration, refuses it with a message that names the
path, or runs into a defect.  The defects are of four kinds: a name that no file can have, bytes that are
no text, a text whose values cannot be made, and a time to live that is no faulty field but nothing that
can be read.
-/

namespace ApiShell

/-! ### Times to live -/

/-- The value is not refused as a duration but cannot be read as one. -/
def Time.DurationError.IsDefect (e : Time.DurationError) : Prop :=
  e = .tooLong ∨ e = .notText ∨ e = .wrongKind

/-- Reading the time to live in settings runs into a defect. -/
inductive ApiConfig.Breaks : Value → Defect → Prop where
  | ttl {fields : List (Scalar × Value)} {v : Value} {e : Time.DurationError}
      (field : Value.field? fields "cache_ttl" = some v) (fails : Time.durationOf v = .error e)
      (isDefect : e.IsDefect) : Breaks (.mapping fields) e.defect

theorem ApiConfig.defect?_eq_some_iff {settings : Value} {d : Defect} :
    ApiConfig.defect? settings = some d ↔ ApiConfig.Breaks settings d := by
  constructor
  · intro h
    cases settings with
    | mapping fields =>
      rw [ApiConfig.defect?, ApiConfig.ttlDefect?] at h
      cases hfield : Value.field? fields "cache_ttl" with
      | none =>
        rw [hfield] at h
        cases h
      | some v =>
        rw [hfield, Option.map_some] at h
        cases hv : Time.durationOf v with
        | ok ttl =>
          rw [hv] at h
          cases h
        | error e =>
          rw [hv] at h
          cases e <;> cases h
          · exact .ttl hfield hv (.inl rfl)
          · exact .ttl hfield hv (.inr (.inl rfl))
          · exact .ttl hfield hv (.inr (.inr rfl))
    | _ => cases h
  · rintro ⟨hfield, hv, rfl | rfl | rfl⟩ <;>
      rw [ApiConfig.defect?, ApiConfig.ttlDefect?, hfield, Option.map_some, hv] <;> rfl

/-! ### Texts -/

/-- The defect that the reading of a YAML text ends with, unless the text has a problem. -/
def Yaml.Trouble.defect? : Yaml.Trouble → Option Defect
  | .problem _ => none
  | .badValue message => some (.badValue message)
  | .outOfRange => some .outOfRange
  | .missingKey => some .missingKey
  | .missingItem => some .missingItem
  | .notText => some .notText

/-- A trouble is the problem of a text or a defect. -/
theorem Yaml.Trouble.fault_cases (t : Yaml.Trouble) (onProblem : String → Fault) :
    (t.defect? = none ∧ ∃ problem, t.fault onProblem = onProblem problem) ∨
      ∃ d, t.defect? = some d ∧ t.fault onProblem = .defect d := by
  cases t with
  | problem p => exact .inl ⟨rfl, p.message, rfl⟩
  | _ => exact .inr ⟨_, rfl, rfl⟩

theorem Yaml.Trouble.fault_of_defect? (t : Yaml.Trouble) {d : Defect} (h : t.defect? = some d)
    (onProblem : String → Fault) : t.fault onProblem = .defect d := by
  rcases t.fault_cases onProblem with ⟨hnone, -⟩ | ⟨d', hsome, hfault⟩
  · cases hnone.symm.trans h
  · obtain rfl := Option.some.inj (hsome.symm.trans h)
    exact hfault

/-- The problem of a text that was read. -/
def Yaml.problem? : Except Yaml.Trouble Value → Option Yaml.Problem
  | .error (.problem p) => some p
  | _ => none

theorem Yaml.eq_problem_of_problem? {r : Except Yaml.Trouble Value} {p : Yaml.Problem}
    (h : Yaml.problem? r = some p) : r = .error (.problem p) := by
  unfold Yaml.problem? at h
  split at h
  · rw [Option.some.inj h]
  · cases h

/-! ### Fields -/

theorem Value.field?_cons (f : Scalar × Value) (fields : List (Scalar × Value)) (key : String) :
    Value.field? (f :: fields) key =
      if f.1.same (.text key) then some f.2 else Value.field? fields key := by
  rw [Value.field?, List.find?_cons]
  cases f.1.same (.text key) <;> rfl

/-- What was put under a key is found there. -/
theorem Value.field?_putField (fields : List (Scalar × Value)) (key : String) (v : Value) :
    Value.field? (Value.putField fields (.text key) v) key = some v := by
  have hsame : Scalar.same (.text key) (.text key) = true := beq_self_eq_true key
  unfold Value.putField
  split
  · next hany =>
    induction fields with
    | nil => cases hany
    | cons f fields ih =>
      rw [List.map_cons, Value.field?_cons]
      by_cases hf : f.1.same (.text key)
      · rw [if_pos hf, if_pos hf]
      · have hrest : fields.any (·.1.same (.text key)) = true := by
          rw [List.any_cons, Bool.or_eq_true] at hany
          exact hany.resolve_left hf
        rw [if_neg hf, if_neg hf]
        exact ih hrest
  · next hany =>
    have hnone : fields.find? (·.1.same (.text key)) = none := by
      rw [List.find?_eq_none]
      intro f hf hsame
      exact hany (List.any_eq_true.2 ⟨f, hf, hsame⟩)
    rw [Value.field?, List.find?_append, hnone, Option.none_or]
    change Value.field? [(.text key, v)] key = some v
    rw [Value.field?_cons, if_pos hsame]

namespace Config

/-- A mapping that names no APIs has no defect either way. -/
theorem defect?_withApis (fields : List (Scalar × Value)) :
    defect? (withApis fields) = defect? (.mapping fields) := by
  have hempty : defect? (.mapping (Value.putField fields (.text "apis") (.mapping []))) = none := by
    rw [defect?, Value.get?, Value.field?_putField]
    rfl
  unfold withApis
  split
  · next hnone => rw [hempty, defect?, Value.get?, hnone]
  · next hnull => rw [hempty, defect?, Value.get?, hnull]
  · rfl

/-- A mapping runs into a defect with the first of its APIs that does. -/
theorem defect?_withApis_eq_some_iff {fields : List (Scalar × Value)} {d : Defect} :
    defect? (withApis fields) = some d ↔ ∃ before api after,
      Value.field? fields "apis" = some (.mapping (before ++ api :: after)) ∧
      (∀ other ∈ before, ∀ d, ¬ ApiConfig.Breaks other.2 d) ∧ ApiConfig.Breaks api.2 d := by
  have hfirst (apis : List (Scalar × Value)) :
      (apis.findSome? fun api => ApiConfig.defect? api.2) = some d ↔ ∃ before api after,
        apis = before ++ api :: after ∧ (∀ other ∈ before, ∀ d, ¬ ApiConfig.Breaks other.2 d) ∧
          ApiConfig.Breaks api.2 d := by
    rw [List.findSome?_eq_some_iff]
    refine exists_congr fun before => exists_congr fun api => exists_congr fun after =>
      and_congr_right fun _ => ?_
    rw [and_comm]
    refine and_congr (forall₂_congr fun other _ => ?_) ApiConfig.defect?_eq_some_iff
    rw [Option.eq_none_iff_forall_ne_some]
    exact forall_congr' fun d => not_congr ApiConfig.defect?_eq_some_iff
  rw [defect?_withApis, defect?, Value.get?]
  split
  · next apis happis =>
    refine (hfirst apis).trans ?_
    simp only [happis, Option.some.injEq, Value.mapping.injEq]
  · next hother =>
    constructor
    · intro h
      cases h
    · rintro ⟨before, api, after, happis, -⟩
      exact absurd happis (hother _)

/-- What loading the configuration at a path runs into. -/
inductive Breaks (host : Host) (path : Host.Path) : Defect → Prop where
  /-- The path has a name that is too long for a file. -/
  | name (named : ¬ Host.hasZero path) (tooLong : host.find path = .error .tooLong) :
      Breaks host path (.file .tooLong)
  /-- The bytes of the file are no text. -/
  | bytes {content : List UInt8} (holds : host.Holds path content)
      (noText : Text.ofUtf8? content = none) : Breaks host path .notUnicode
  /-- The values that the text writes cannot be made. -/
  | text {content : List UInt8} {cs : List Char} {trouble : Yaml.Trouble} {d : Defect}
      (holds : host.Holds path content) (isText : Text.ofUtf8? content = some cs)
      (fails : Yaml.read (Text.plainBreaks cs) = .error trouble)
      (isDefect : trouble.defect? = some d) : Breaks host path d
  /-- The time to live of an API cannot be read and is no faulty field. -/
  | ttl {content : List UInt8} {cs : List Char} {fields before after : List (Scalar × Value)}
      {api : Scalar × Value} {d : Defect} (holds : host.Holds path content)
      (isText : Text.ofUtf8? content = some cs)
      (reads : Yaml.read (Text.plainBreaks cs) = .ok (.mapping fields))
      (apis : Value.field? fields "apis" = some (.mapping (before ++ api :: after)))
      (first : ∀ other ∈ before, ∀ d, ¬ ApiConfig.Breaks other.2 d)
      (breaks : ApiConfig.Breaks api.2 d) : Breaks host path d

/-- Why a text is refused as a configuration. -/
inductive Refuses (text : List Char) : Prop where
  | notYaml {problem : Yaml.Problem} (fails : Yaml.read text = .error (.problem problem))
  | notMapping {v : Value} (reads : Yaml.read text = .ok v)
      (other : v ≠ .null ∧ ∀ fields, v ≠ .mapping fields)
  | faulty {fields : List (Scalar × Value)} {faults : List FieldFault}
      (reads : Yaml.read text = .ok (.mapping fields)) (noDefect : defect? (withApis fields) = none)
      (fails : check (withApis fields) = .error faults)

variable {host : Host} {path : Host.Path} {content : List UInt8} {d : Defect}

/-! ### Reading a text -/

/-- What reading a text as a configuration comes to. -/
inductive Parses (place : String) (text : List Char) : Except Fault Config → Prop where
  | blank (reads : Yaml.read text = .ok .null) : Parses place text (.ok empty)
  | checked {fields : List (Scalar × Value)} {c : Config}
      (reads : Yaml.read text = .ok (.mapping fields)) (noDefect : defect? (withApis fields) = none)
      (passes : check (withApis fields) = .ok c) : Parses place text (.ok c)
  | refused (problem : String) (refuses : Refuses text) :
      Parses place text (.error (.failure (.config (.invalid place problem))))
  | troubled {trouble : Yaml.Trouble} {d : Defect} (fails : Yaml.read text = .error trouble)
      (isDefect : trouble.defect? = some d) : Parses place text (.error (.defect d))
  | broken {fields : List (Scalar × Value)} {d : Defect}
      (reads : Yaml.read text = .ok (.mapping fields)) (breaks : defect? (withApis fields) = some d) :
      Parses place text (.error (.defect d))

theorem parses_parse (place : String) (text : List Char) :
    Parses place text (parse place text) := by
  unfold parse
  cases hread : Yaml.read text with
  | error trouble =>
    dsimp only
    cases trouble with
    | problem p => exact .refused _ (.notYaml hread)
    | _ => exact .troubled hread rfl
  | ok v =>
    dsimp only
    split
    · next heq => cases heq
    · next heq =>
      obtain rfl := Except.ok.inj heq
      exact .blank hread
    · next fields heq =>
      obtain rfl := Except.ok.inj heq
      cases hdefect : defect? (withApis fields) with
      | some d => exact .broken hread hdefect
      | none =>
        dsimp only
        cases hcheck : check (withApis fields) with
        | ok c => exact .checked hread hdefect hcheck
        | error faults => exact .refused _ (.faulty hread hdefect hcheck)
    · next hnull hmapping heq =>
      obtain rfl := Except.ok.inj heq
      exact .refused _ (.notMapping hread ⟨hnull, hmapping⟩)

/-- Reading a text ends with a configuration, a refusal, or a defect. -/
theorem parse_cases (place : String) (text : List Char) :
    (∃ c, parse place text = .ok c) ∨
      (∃ problem, parse place text = .error (.failure (.config (.invalid place problem)))) ∨
      ∃ d, parse place text = .error (.defect d) := by
  have hparses := parses_parse place text
  generalize parse place text = r at hparses ⊢
  cases hparses with
  | blank _ => exact .inl ⟨empty, rfl⟩
  | checked _ _ _ => exact .inl ⟨_, rfl⟩
  | refused problem _ => exact .inr (.inl ⟨problem, rfl⟩)
  | troubled _ _ => exact .inr (.inr ⟨_, rfl⟩)
  | broken _ _ => exact .inr (.inr ⟨_, rfl⟩)

/-- A text that holds a configuration holds null, or a mapping that passes the check. -/
theorem parse_eq_ok_iff {c : Config} {place : String} {text : List Char} : parse place text = .ok c ↔
    (Yaml.read text = .ok .null ∧ c = empty) ∨ ∃ fields, Yaml.read text = .ok (.mapping fields) ∧
      defect? (withApis fields) = none ∧ check (withApis fields) = .ok c := by
  constructor
  · intro h
    have hparses := parses_parse place text
    rw [h] at hparses
    cases hparses with
    | blank reads => exact .inl ⟨reads, rfl⟩
    | checked reads noDefect passes => exact .inr ⟨_, reads, noDefect, passes⟩
  · unfold parse
    rintro (⟨reads, rfl⟩ | ⟨fields, reads, noDefect, passes⟩)
    · rw [reads]
    · rw [reads]
      dsimp only
      rw [noDefect, passes]
      rfl

/-- The defects of reading a text are those of reading its YAML and those of its APIs. -/
theorem parse_eq_defect_iff {place : String} {text : List Char} :
    parse place text = .error (.defect d) ↔
      (∃ trouble, Yaml.read text = .error trouble ∧ trouble.defect? = some d) ∨
        ∃ fields, Yaml.read text = .ok (.mapping fields) ∧ defect? (withApis fields) = some d := by
  constructor
  · intro h
    have hparses := parses_parse place text
    rw [h] at hparses
    cases hparses with
    | troubled fails isDefect => exact .inl ⟨_, fails, isDefect⟩
    | broken reads breaks => exact .inr ⟨_, reads, breaks⟩
  · unfold parse
    rintro (⟨trouble, fails, isDefect⟩ | ⟨fields, reads, breaks⟩)
    · rw [fails]
      exact congrArg _ (trouble.fault_of_defect? isDefect _)
    · rw [reads]
      dsimp only
      rw [breaks]

/-- A text is refused for the reasons of `Refuses`. -/
theorem parse_eq_refusal_iff {place : String} {text : List Char} :
    (∃ problem, parse place text = .error (.failure (.config (.invalid place problem)))) ↔
      Refuses text := by
  constructor
  · rintro ⟨problem, h⟩
    have hparses := parses_parse place text
    rw [h] at hparses
    cases hparses with
    | refused _ refuses => exact refuses
  · intro h
    unfold parse
    cases h with
    | notYaml fails =>
      rw [fails]
      exact ⟨_, rfl⟩
    | notMapping reads other =>
      rw [reads]
      dsimp only
      split
      · next heq => cases heq
      · next heq => exact absurd (Except.ok.inj heq) other.1
      · next fields heq => exact absurd (Except.ok.inj heq) (other.2 fields)
      · exact ⟨_, rfl⟩
    | faulty reads noDefect fails =>
      rw [reads]
      dsimp only
      rw [noDefect, fails]
      exact ⟨_, rfl⟩

/-! ### Files -/

theorem load_of_holds (holds : host.Holds path content) :
    load host path = match Text.ofUtf8? content with
      | none => .error (.defect .notUnicode)
      | some cs => parse path.text (Text.plainBreaks cs) := by
  unfold load
  rw [holds.isFile, holds.readText]
  cases Text.ofUtf8? content <;> rfl

theorem load_of_isFile_eq_false (h : host.isFile path = .ok false) : load host path = .ok empty := by
  unfold load
  rw [h]
  rfl

theorem load_of_isFile_eq_error (h : host.isFile path = .error d) :
    load host path = .error (.defect d) := by
  unfold load
  rw [h]
  rfl

/-- Loading ends with a configuration, a refusal, or a defect. -/
theorem load_cases (host : Host) (path : Host.Path) :
    (∃ c, load host path = .ok c) ∨
      (∃ problem, load host path = .error (.failure (.config (.invalid path.text problem)))) ∨
      ∃ d, load host path = .error (.defect d) := by
  rcases host.isFile_cases path with ⟨-, content, holds⟩ | hnone | ⟨hlong, -⟩
  · rw [load_of_holds holds]
    cases Text.ofUtf8? content with
    | none => exact .inr (.inr ⟨_, rfl⟩)
    | some cs => exact parse_cases path.text (Text.plainBreaks cs)
  · exact .inl ⟨_, load_of_isFile_eq_false hnone⟩
  · exact .inr (.inr ⟨_, load_of_isFile_eq_error hlong⟩)

/-- Loading refuses what is no configuration. -/
theorem load_eq_refusal_iff :
    (∃ problem, load host path = .error (.failure (.config (.invalid path.text problem)))) ↔
      ∃ content cs, host.Holds path content ∧ Text.ofUtf8? content = some cs ∧
        Refuses (Text.plainBreaks cs) := by
  constructor
  · rintro ⟨problem, h⟩
    rcases host.isFile_cases path with ⟨-, content, holds⟩ | hnone | ⟨hlong, -⟩
    · rw [load_of_holds holds] at h
      cases hcs : Text.ofUtf8? content with
      | none =>
        rw [hcs] at h
        cases h
      | some cs =>
        rw [hcs] at h
        exact ⟨content, cs, holds, hcs, parse_eq_refusal_iff.1 ⟨problem, h⟩⟩
    · rw [load_of_isFile_eq_false hnone] at h
      cases h
    · rw [load_of_isFile_eq_error hlong] at h
      cases h
  · rintro ⟨content, cs, holds, hcs, hrefuses⟩
    rw [load_of_holds holds, hcs]
    exact parse_eq_refusal_iff.2 hrefuses

/-- What loading runs into is told by `Breaks`. -/
theorem load_eq_defect_iff : load host path = .error (.defect d) ↔ Breaks host path d := by
  constructor
  · intro h
    rcases host.isFile_cases path with ⟨-, content, holds⟩ | hnone | ⟨hlong, hnamed, hfind⟩
    · rw [load_of_holds holds] at h
      cases hcs : Text.ofUtf8? content with
      | none =>
        rw [hcs] at h
        cases h
        exact .bytes holds hcs
      | some cs =>
        rw [hcs] at h
        rcases parse_eq_defect_iff.1 h with ⟨trouble, hread, hd⟩ | ⟨fields, hread, hd⟩
        · exact .text holds hcs hread hd
        · obtain ⟨before, api, after, happis, hfirst, hbreaks⟩ := defect?_withApis_eq_some_iff.1 hd
          exact .ttl holds hcs hread happis hfirst hbreaks
    · rw [load_of_isFile_eq_false hnone] at h
      cases h
    · rw [load_of_isFile_eq_error hlong] at h
      cases h
      exact .name hnamed hfind
  · intro h
    cases h with
    | name named tooLong =>
      have hlong : host.isFile path = .error (.file .tooLong) := by
        rw [Host.isFile, if_neg named, tooLong]
      exact load_of_isFile_eq_error hlong
    | bytes holds noText => rw [load_of_holds holds, noText]
    | text holds isText fails isDefect =>
      rw [load_of_holds holds, isText]
      exact parse_eq_defect_iff.2 (.inl ⟨_, fails, isDefect⟩)
    | ttl holds isText reads apis first breaks =>
      rw [load_of_holds holds, isText]
      exact parse_eq_defect_iff.2 (.inr ⟨_, reads,
        defect?_withApis_eq_some_iff.2 ⟨_, _, _, apis, first, breaks⟩⟩)

end Config

end ApiShell
