import ApiShell.Proofs.Run
import ApiShell.Proofs.Text.Split
import ApiShell.Spec.Content

/-!
# Versions and their components

The version of a description is the text of its `openapi` value, and its components are the parts of
this text between the points.  Detection compares the beginning of the text and not its components:
`3.10.0` begins like `3.1`, and `30` like `3`.  The two agree exactly on the versions in which a
component that begins with the digit that decides is this digit (`IsDelimited`).
-/

namespace ApiShell.Spec

/-- The text of the version of a description. -/
def versionText (document : Value) : String := (document.getD "openapi").display

/-- The components of the version of a description. -/
def versionParts (document : Value) : List String := Text.split '.' (versionText document)

/-- The record about a version that is not known. -/
def unknownVersion (text : String) : LogRecord :=
  ⟨.warning, s!"Unknown OpenAPI 3.x version {text}, parsing as 3.0"⟩

/-- Detection goes by the components of the version: the first one says whether there is an answer, and
the second one which answer it is and whether it comes with a warning. -/
structure FollowsParts (document : Value) : Prop where
  returns_iff : (∃ version, (detectVersion document).answer = .ok version) ↔
    document.get? "swagger" = none ∧ (versionParts document)[0]? = some "3"
  eq_v31_iff : ∀ version, (detectVersion document).answer = .ok version →
    (version = .v31 ↔ (versionParts document)[1]? = some "1")
  records_eq : ∀ version, (detectVersion document).answer = .ok version →
    (detectVersion document).records =
      if (versionParts document)[1]? = some "0" ∨ (versionParts document)[1]? = some "1" then []
      else [unknownVersion (versionText document)]

/-- A first component that begins with a three is a three, and a second component of a version 3 that
begins with a zero or a one is this digit. -/
structure IsDelimited (parts : List String) : Prop where
  major : ∀ part, parts[0]? = some part → Text.startsWith part "3" = true → part = "3"
  minor : parts[0]? = some "3" → ∀ part, parts[1]? = some part →
    Text.startsWith part "0" = true ∨ Text.startsWith part "1" = true → part = "0" ∨ part = "1"

/-! ### The beginning of a text and its components -/

section

variable {text start : String}

theorem getElem?_zero_split (cs : List Char) :
    ((Text.splitAt '.' cs).map String.ofList)[0]? = some (String.ofList (cs.takeWhile (· != '.'))) := by
  rw [← List.head?_eq_getElem?, List.head?_map, Text.head?_splitAt]
  rfl

/-- The first component of a text begins like the text, up to the first point. -/
theorem startsWith_takeWhile_iff {cs : List Char} (h : '.' ∉ start.toList) :
    Text.startsWith (String.ofList (cs.takeWhile (· != '.'))) start = true ↔ start.toList <+: cs := by
  have hclass : ∀ d ∈ start.toList, (d != '.') = true := by
    intro d hd
    simpa using ne_of_mem_of_not_mem hd h
  rw [Text.startsWith_eq_true_iff, String.toList_ofList, Text.prefix_takeWhile_iff hclass]

theorem startsWith_iff_first (h : '.' ∉ start.toList) :
    Text.startsWith text start = true ↔
      ∃ part, (Text.split '.' text)[0]? = some part ∧ Text.startsWith part start = true := by
  rw [Text.split, getElem?_zero_split]
  simp only [Option.some.injEq, exists_eq_left', startsWith_takeWhile_iff h]
  exact Text.startsWith_eq_true_iff

/-- A text that begins with a component and a point goes on with its second component. -/
theorem startsWith_iff_second {major : String} (hmajor : '.' ∉ major.toList)
    (h : '.' ∉ start.toList) :
    Text.startsWith text (major ++ "." ++ start) = true ↔
      (Text.split '.' text)[0]? = some major ∧
        ∃ part, (Text.split '.' text)[1]? = some part ∧ Text.startsWith part start = true := by
  have hstart : (major ++ "." ++ start).toList = major.toList ++ '.' :: start.toList := by
    simp
  -- Behind a first component without points stand the components of what is behind the point.
  have hparts (cs ds : List Char) (hcs : '.' ∉ cs) :
      (Text.splitAt '.' (cs ++ '.' :: ds)).map String.ofList =
        String.ofList cs :: (Text.splitAt '.' ds).map String.ofList := by
    rw [Text.splitAt_append_cons, Text.splitAt_of_notMem hcs]
    rfl
  rw [Text.startsWith_eq_true_iff, hstart, Text.split]
  constructor
  · rintro ⟨rest, hrest⟩
    rw [← hrest, List.append_assoc, List.cons_append, hparts _ _ hmajor]
    refine ⟨by simp, _, getElem?_zero_split _, (startsWith_takeWhile_iff h).2 ?_⟩
    exact List.prefix_append _ _
  · rintro ⟨hfirst, part, hsecond, hpart⟩
    have hpoint : '.' ∈ text.toList := by
      by_contra hnone
      rw [Text.splitAt_of_notMem hnone] at hsecond
      cases hsecond
    obtain ⟨cs, ds, htext, hcs⟩ := List.eq_append_cons_of_mem hpoint
    rw [htext, hparts _ _ hcs] at hfirst hsecond
    obtain rfl := Option.some.inj hfirst
    rw [List.getElem?_cons_succ, getElem?_zero_split] at hsecond
    obtain rfl := Option.some.inj hsecond
    rw [htext, String.toList_ofList, List.prefix_append_right_inj, List.prefix_cons_inj]
    exact (startsWith_takeWhile_iff h).1 hpart

end

/-! ### What detection answers -/

section

variable {document : Value}

theorem answer_of_swagger {v : Value} (h : document.get? "swagger" = some v) :
    (detectVersion document).answer = .error (SpecError.swagger v.display) := by
  unfold detectVersion
  rw [h]
  rfl

/-- How the beginning of its version decides about a description. -/
inductive Detects (document : Value) : Prop where
  | refused (hthree : Text.startsWith (versionText document) "3" = false) {fault : Fault}
      (hanswer : (detectVersion document).answer = .error fault)
  | v31 (hone : Text.startsWith (versionText document) "3.1" = true)
      (hrun : (detectVersion document).runWith [] = (.ok .v31, []))
  | v30 (hone : Text.startsWith (versionText document) "3.1" = false)
      (hzero : Text.startsWith (versionText document) "3.0" = true)
      (hrun : (detectVersion document).runWith [] = (.ok .v30, []))
  | unknown (hone : Text.startsWith (versionText document) "3.1" = false)
      (hzero : Text.startsWith (versionText document) "3.0" = false)
      (hthree : Text.startsWith (versionText document) "3" = true)
      (hrun : (detectVersion document).runWith [] =
        (.ok .v30, [unknownVersion (versionText document)]))

/-- An absent version has a text as well, which begins with no digit. -/
theorem display_of_isNull {v : Value} (h : v.isNull = true) : v.display = "None" := by
  unfold Value.isNull at h
  split at h
  · rfl
  · cases h

theorem answer_of_isNull (h : document.get? "swagger" = none)
    (hnull : (document.getD "openapi").isNull = true) :
    (detectVersion document).answer = .error SpecError.missingVersion := by
  unfold detectVersion
  rw [h]
  dsimp only
  rw [if_pos hnull]
  rfl

/-- A version that is given decides by how it begins. -/
theorem detectVersion_eq (h : document.get? "swagger" = none)
    (hgiven : ¬ (document.getD "openapi").isNull = true) : detectVersion document =
      if Text.startsWith (versionText document) "3.1" then pure .v31
      else if Text.startsWith (versionText document) "3.0" then pure .v30
      else if Text.startsWith (versionText document) "3" then do
        note .warning (unknownVersion (versionText document)).message
        pure .v30
      else stop (SpecError.unsupportedVersion (versionText document)) := by
  unfold detectVersion
  rw [h]
  dsimp only
  rw [if_neg hgiven]
  rfl

theorem detects (h : document.get? "swagger" = none) : Detects document := by
  by_cases hnull : (document.getD "openapi").isNull = true
  · have htext : versionText document = "None" := display_of_isNull hnull
    exact .refused (by rw [htext]; decide) (answer_of_isNull h hnull)
  have hrun := detectVersion_eq h hnull
  cases hone : Text.startsWith (versionText document) "3.1" with
  | true =>
    refine .v31 hone ?_
    rw [hrun, if_pos hone]
    rfl
  | false =>
    rw [hone, if_neg Bool.false_ne_true] at hrun
    cases hzero : Text.startsWith (versionText document) "3.0" with
    | true =>
      refine .v30 hone hzero ?_
      rw [hrun, if_pos hzero]
      rfl
    | false =>
      rw [hzero, if_neg Bool.false_ne_true] at hrun
      cases hthree : Text.startsWith (versionText document) "3" with
      | true =>
        refine .unknown hone hzero hthree ?_
        rw [hrun, if_pos hthree]
        rfl
      | false =>
        rw [hthree, if_neg Bool.false_ne_true] at hrun
        have hanswer : (detectVersion document).answer =
            .error (SpecError.unsupportedVersion (versionText document)) := by
          rw [hrun]
          rfl
        exact .refused hthree hanswer

theorem startsWith_three_iff : Text.startsWith (versionText document) "3" = true ↔
    ∃ part, (versionParts document)[0]? = some part ∧ Text.startsWith part "3" = true :=
  startsWith_iff_first (by decide)

theorem startsWith_zero_iff : Text.startsWith (versionText document) "3.0" = true ↔
    (versionParts document)[0]? = some "3" ∧
      ∃ part, (versionParts document)[1]? = some part ∧ Text.startsWith part "0" = true :=
  @startsWith_iff_second _ "0" "3" (by decide) (by decide)

theorem startsWith_one_iff : Text.startsWith (versionText document) "3.1" = true ↔
    (versionParts document)[0]? = some "3" ∧
      ∃ part, (versionParts document)[1]? = some part ∧ Text.startsWith part "1" = true :=
  @startsWith_iff_second _ "1" "3" (by decide) (by decide)

/-! ### Detection by components -/

theorem followsParts_of_swagger {v : Value} (h : document.get? "swagger" = some v) :
    FollowsParts document where
  returns_iff := by
    rw [answer_of_swagger h, h]
    constructor
    · rintro ⟨_, hanswer⟩
      cases hanswer
    · rintro ⟨hnone, -⟩
      cases hnone
  eq_v31_iff := by
    intro version hanswer
    rw [answer_of_swagger h] at hanswer
    cases hanswer
  records_eq := by
    intro version hanswer
    rw [answer_of_swagger h] at hanswer
    cases hanswer

theorem FollowsParts.isDelimited (hfollows : FollowsParts document)
    (h : document.get? "swagger" = none) : IsDelimited (versionParts document) where
  major := by
    intro part hpart hstart
    have hthree := startsWith_three_iff.2 ⟨part, hpart, hstart⟩
    have hreturns : ∃ version, (detectVersion document).answer = .ok version := by
      cases detects h with
      | refused hnot => simp [hthree] at hnot
      | v31 _ hrun => exact ⟨_, congrArg Prod.fst hrun⟩
      | v30 _ _ hrun => exact ⟨_, congrArg Prod.fst hrun⟩
      | unknown _ _ _ hrun => exact ⟨_, congrArg Prod.fst hrun⟩
    have hfirst := (hfollows.returns_iff.1 hreturns).2
    rw [hpart] at hfirst
    exact Option.some.inj hfirst
  minor := by
    intro hmajor part hpart hstart
    cases detects h with
    | refused hnot =>
      rw [startsWith_three_iff.2 ⟨"3", hmajor, by decide⟩] at hnot
      cases hnot
    | v31 _ hrun =>
      have hone := (hfollows.eq_v31_iff _ (congrArg Prod.fst hrun)).1 rfl
      rw [hpart] at hone
      exact .inr (Option.some.inj hone)
    | v30 _ _ hrun =>
      have hrecords := hfollows.records_eq _ (congrArg Prod.fst hrun)
      rw [show (detectVersion document).records = [] from congrArg Prod.snd hrun, hpart] at hrecords
      by_contra hneither
      rw [if_neg (by simpa using hneither)] at hrecords
      cases hrecords
    | unknown hone hzero _ _ =>
      rcases hstart with hstart | hstart
      · rw [startsWith_zero_iff.2 ⟨hmajor, part, hpart, hstart⟩] at hzero
        cases hzero
      · rw [startsWith_one_iff.2 ⟨hmajor, part, hpart, hstart⟩] at hone
        cases hone

/-- Where detection is known by what it answers and writes, its three parts follow from it. -/
theorem followsParts_of_runWith {version : Version} {records : List LogRecord}
    (h : document.get? "swagger" = none) (hmajor : (versionParts document)[0]? = some "3")
    (hrun : (detectVersion document).runWith [] = (.ok version, records))
    (hversion : version = .v31 ↔ (versionParts document)[1]? = some "1")
    (hrecords : records =
      if (versionParts document)[1]? = some "0" ∨ (versionParts document)[1]? = some "1" then []
      else [unknownVersion (versionText document)]) : FollowsParts document := by
  have hanswer : (detectVersion document).answer = .ok version := congrArg Prod.fst hrun
  refine ⟨⟨fun _ => ⟨h, hmajor⟩, fun _ => ⟨version, hanswer⟩⟩, ?_, ?_⟩
  · intro other hother
    rwa [← Except.ok.inj (hanswer.symm.trans hother)]
  · intro other _
    exact (congrArg Prod.snd hrun).trans hrecords

theorem IsDelimited.followsParts (hdelimited : IsDelimited (versionParts document))
    (h : document.get? "swagger" = none) : FollowsParts document := by
  cases detects h with
  | refused hthree hanswer =>
    have hmajor : (versionParts document)[0]? ≠ some "3" := by
      intro hmajor
      rw [startsWith_three_iff.2 ⟨"3", hmajor, by decide⟩] at hthree
      cases hthree
    refine ⟨⟨?_, fun hreturns => absurd hreturns.2 hmajor⟩, ?_, ?_⟩
    · rintro ⟨version, hok⟩
      cases hanswer.symm.trans hok
    · intro version hok
      cases hanswer.symm.trans hok
    · intro version hok
      cases hanswer.symm.trans hok
  | v31 hone hrun =>
    obtain ⟨hmajor, part, hpart, hstart⟩ := startsWith_one_iff.1 hone
    obtain rfl : part = "1" := by
      rcases hdelimited.minor hmajor part hpart (.inr hstart) with rfl | rfl
      · cases hstart
      · rfl
    refine followsParts_of_runWith h hmajor hrun ?_ ?_
    · simp [hpart]
    · simp [hpart]
  | v30 hone hzero hrun =>
    obtain ⟨hmajor, part, hpart, hstart⟩ := startsWith_zero_iff.1 hzero
    obtain rfl : part = "0" := by
      rcases hdelimited.minor hmajor part hpart (.inl hstart) with rfl | rfl
      · rfl
      · cases hstart
    refine followsParts_of_runWith h hmajor hrun ?_ ?_
    · simp [hpart]
    · simp [hpart]
  | unknown hone hzero hthree hrun =>
    obtain ⟨part, hpart, hstart⟩ := startsWith_three_iff.1 hthree
    obtain rfl := hdelimited.major part hpart hstart
    have hnotOne : (versionParts document)[1]? ≠ some "1" := by
      intro hminor
      rw [startsWith_one_iff.2 ⟨hpart, "1", hminor, by decide⟩] at hone
      cases hone
    have hnotZero : (versionParts document)[1]? ≠ some "0" := by
      intro hminor
      rw [startsWith_zero_iff.2 ⟨hpart, "0", hminor, by decide⟩] at hzero
      cases hzero
    refine followsParts_of_runWith h hpart hrun ?_ ?_
    · simp [hnotOne]
    · simp [hnotOne, hnotZero]

end

/-- Detection goes by the components of a version exactly on the descriptions that have a `swagger`
field and on those in whose version the components that decide end where their first digit does. -/
theorem followsParts_iff (fields : List (Scalar × Value)) :
    FollowsParts (.mapping fields) ↔
      Value.field? fields "swagger" ≠ none ∨ IsDelimited (versionParts (.mapping fields)) := by
  cases h : Value.field? fields "swagger" with
  | some v => exact ⟨fun _ => .inl nofun, fun _ => followsParts_of_swagger h⟩
  | none =>
    constructor
    · intro hfollows
      exact .inr (hfollows.isDelimited h)
    · intro hdelimited
      exact (hdelimited.resolve_left (not_not.2 rfl)).followsParts h

/-- A description of version 3.10.0 is read as one of version 3.1. -/
theorem not_forall_followsParts : ¬ ∀ fields, FollowsParts (.mapping fields) := by
  intro hall
  have hfollows := hall [(.text "openapi", .text "3.10.0")]
  have hanswer : (detectVersion (.mapping [(.text "openapi", .text "3.10.0")])).answer = .ok .v31 :=
    rfl
  have hminor := (hfollows.eq_v31_iff _ hanswer).1 rfl
  exact absurd hminor (by decide)

end ApiShell.Spec
