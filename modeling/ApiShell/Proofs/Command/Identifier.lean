import ApiShell.Command.Signature
import ApiShell.Proofs.Text.Blank
import ApiShell.Proofs.Text.Split
import Mathlib.Data.Finset.Card
import Mathlib.Data.List.Nodup

/-!
# Identifiers are plain and new

Whatever a name looks like, the identifier that is made of it is *plain*: lower-case letters, digits
and underscores, a letter first or an underscore that a digit follows.  A plain word is none of the
names that a definition uses itself, since each of these has an underscore and a letter in front.

An identifier depends only on the runs of letters and digits in the name (`sanitize_eq`), and it has the
same runs itself, whatever underscores were put around them.  So it is its own identifier
(`sanitize_stable`).

The identifiers that are tried when the first one is taken differ in their numbers.  There are more of
them than taken ones, so the first that is free is found.
-/

namespace ApiShell.Command

/-! ### Plain words -/

/-- A character of a plain word. -/
def isPlainChar (c : Char) : Bool := isIdentifierChar c || c == '_'

/-- A plain word starts with a letter, or with an underscore that a digit follows. -/
def startsPlain : List Char → Bool
  | [] => false
  | c :: cs => c.isLower || (c == '_' && cs.head?.any Char.isDigit)

/-- Lower-case letters, digits and underscores with a plain start. -/
structure IsPlain (word : String) : Prop where
  starts : startsPlain word.toList
  chars : ∀ c ∈ word.toList, isPlainChar c

/-- What follows a plain start does not matter. -/
theorem startsPlain_append {cs : List Char} (h : startsPlain cs) (ds : List Char) :
    startsPlain (cs ++ ds) := by
  cases cs with
  | nil => cases h
  | cons c cs =>
    rw [startsPlain, Bool.or_eq_true] at h
    rw [List.cons_append, startsPlain, Bool.or_eq_true]
    refine h.imp_right fun h => ?_
    cases cs with
    | nil => rw [List.head?_nil, Option.any_none, Bool.and_false] at h; cases h
    | cons d cs => exact h

/-- A plain word goes on with the characters of plain words. -/
theorem IsPlain.append {word ending : String} (h : IsPlain word)
    (hending : ∀ c ∈ ending.toList, isPlainChar c) : IsPlain (word ++ ending) where
  starts := by
    rw [String.toList_append]
    exact startsPlain_append h.starts _
  chars := by
    intro c hc
    rw [String.toList_append] at hc
    exact (List.mem_append.1 hc).elim (h.chars c) (hending c)

theorem isPlainChar_of_isDigit {c : Char} (h : c.isDigit) : isPlainChar c := by
  rw [isPlainChar, isIdentifierChar, h, Bool.or_true, Bool.true_or]

theorem isLeadingChar_eq (c : Char) :
    isLeadingChar c = (c.isUpper || c.isLower || c == '_') := rfl

theorem isTrailingChar_of_isPlainChar {c : Char} (h : isPlainChar c) : isTrailingChar c := by
  rw [isPlainChar, isIdentifierChar, Bool.or_eq_true, Bool.or_eq_true] at h
  rw [isTrailingChar, isLeadingChar_eq]
  rcases h with (h | h) | h <;> rw [h] <;> simp only [Bool.or_true, Bool.true_or]

theorem IsPlain.isIdentifierShaped {word : String} (h : IsPlain word) :
    isIdentifierShaped word.toList := by
  obtain ⟨hstarts, hchars⟩ := h
  cases hword : word.toList with
  | nil => rw [hword] at hstarts; cases hstarts
  | cons c cs =>
    rw [hword] at hstarts hchars
    rw [Command.isIdentifierShaped, Bool.and_eq_true]
    constructor
    · rw [startsPlain, Bool.or_eq_true, Bool.and_eq_true] at hstarts
      rw [isLeadingChar_eq]
      rcases hstarts with hlower | ⟨hunderscore, -⟩
      · rw [hlower, Bool.or_true, Bool.true_or]
      · rw [hunderscore, Bool.or_true]
    · exact List.all_eq_true.2 fun d hd =>
        isTrailingChar_of_isPlainChar (hchars d (List.mem_cons_of_mem c hd))

theorem IsPlain.notMem_constants {word : String} (h : IsPlain word) : word ∉ constants := by
  have hnone : ∀ w ∈ constants, ¬ startsPlain w.toList := by decide
  exact fun hmem => hnone word hmem h.starts

/-- A plain word that is no keyword is an identifier. -/
theorem IsPlain.isIdentifier {word : String} (h : IsPlain word) (hkeyword : word ∉ keywords) :
    isIdentifier word := by
  rw [Command.isIdentifier, h.isIdentifierShaped, List.contains_eq_mem, List.contains_eq_mem,
    decide_eq_false hkeyword, decide_eq_false h.notMem_constants]
  rfl

theorem toList_typeName (label : String) : (typeName label).toList = "_ann_".toList ++ label.toList :=
  String.toList_append

theorem toList_defaultName (label : String) :
    (defaultName label).toList = "_default_".toList ++ label.toList :=
  String.toList_append

/-- The names of types are not plain. -/
theorem IsPlain.ne_typeName {word : String} (h : IsPlain word) (label : String) :
    word ≠ typeName label := by
  rintro rfl
  have hstarts := h.starts
  rw [toList_typeName] at hstarts
  cases hstarts

/-- The names of defaults are not plain. -/
theorem IsPlain.ne_defaultName {word : String} (h : IsPlain word) (label : String) :
    word ≠ defaultName label := by
  rintro rfl
  have hstarts := h.starts
  rw [toList_defaultName] at hstarts
  cases hstarts

theorem IsPlain.ne_calleeName {word : String} (h : IsPlain word) : word ≠ calleeName := by
  rintro rfl
  exact absurd h.starts (by decide)

/-! ### The identifier of a name -/

/-- The runs of a name joined by underscores make a word of plain characters that starts with no
underscore. -/
theorem joinRuns_plain (cs : List Char) :
    (∀ c ∈ joinRuns cs, isPlainChar c) ∧ ∀ c ∈ (joinRuns cs).head?, isIdentifierChar c := by
  have hruns : ∀ r ∈ Text.runs isIdentifierChar cs, r ≠ [] ∧ ∀ c ∈ r, isIdentifierChar c :=
    fun r hr => Text.of_mem_runs hr
  unfold joinRuns
  constructor
  · intro c hc
    rw [isPlainChar, Bool.or_eq_true]
    rcases Text.mem_joinWith hc with hsep | ⟨r, hr, hc⟩
    · exact .inr (beq_iff_eq.2 (List.mem_singleton.1 hsep))
    · exact .inl ((hruns r hr).2 c hc)
  · intro c hc
    cases hpieces : Text.runs isIdentifierChar cs with
    | nil => rw [hpieces] at hc; cases hc
    | cons r rs =>
      rw [hpieces] at hc hruns
      obtain ⟨hne, hchars⟩ := hruns r List.mem_cons_self
      rw [Text.head?_joinWith hne] at hc
      exact hchars c (List.mem_of_mem_head? hc)

/-- A word of plain characters is plain once a digit in front has an underscore before it. -/
theorem isPlain_ofList {cs : List Char} (hne : cs ≠ []) (hchars : ∀ c ∈ cs, isPlainChar c)
    (hhead : ∀ c ∈ cs.head?, isIdentifierChar c) :
    IsPlain (String.ofList (if cs.head?.any Char.isDigit then '_' :: cs else cs)) := by
  obtain ⟨c, rest, rfl⟩ := List.exists_cons_of_ne_nil hne
  have hfirst : c.isLower ∨ c.isDigit := by
    rw [← Bool.or_eq_true]
    exact hhead c rfl
  rw [List.head?_cons, Option.any_some]
  by_cases hdigit : c.isDigit
  · rw [if_pos hdigit]
    refine ⟨?_, ?_⟩ <;> rw [String.toList_ofList]
    · rw [startsPlain, List.head?_cons, Option.any_some, hdigit]
      rfl
    · intro d hd
      rcases List.mem_cons.1 hd with rfl | hd
      · rfl
      · exact hchars d hd
  · rw [if_neg hdigit]
    refine ⟨?_, ?_⟩ <;> rw [String.toList_ofList]
    · rw [startsPlain, hfirst.resolve_right hdigit, Bool.true_or]
    · exact hchars

/-- No keyword has an underscore. -/
theorem notMem_keywords_of_underscore {word : String} (h : '_' ∈ word.toList) :
    word ∉ keywords := by
  have hnone : ∀ w ∈ keywords, '_' ∉ w.toList := by decide
  exact fun hmem => hnone word hmem h

/-- The identifier of a name is plain and no keyword. -/
theorem sanitize_plain (name : String) : IsPlain (sanitize name) ∧ sanitize name ∉ keywords := by
  unfold sanitize
  generalize hwords : joinRuns (Text.lowerChars (splitAcronyms (splitHumps name.toList))) = words
  obtain ⟨hchars, hhead⟩ := hwords ▸ joinRuns_plain
    (Text.lowerChars (splitAcronyms (splitHumps name.toList)))
  have hword : IsPlain (String.ofList (
      let word := if words.isEmpty then "param".toList else words
      if word.head?.any Char.isDigit then '_' :: word else word)) := by
    cases words with
    | nil => exact ⟨by decide, List.all_eq_true.1 (by decide)⟩
    | cons c cs => exact isPlain_ofList (List.cons_ne_nil c cs) hchars hhead
  dsimp only at hword ⊢
  generalize String.ofList _ = word at hword ⊢
  by_cases hkeyword : word ∈ keywords
  · rw [if_pos (List.contains_iff_mem.2 hkeyword)]
    have hending : ∀ c ∈ "_".toList, isPlainChar c := List.all_eq_true.1 (by decide)
    refine ⟨hword.append hending, notMem_keywords_of_underscore ?_⟩
    rw [String.toList_append]
    exact List.mem_append_right _ List.mem_cons_self
  · rw [if_neg fun h => hkeyword (List.contains_iff_mem.1 h)]
    exact ⟨hword, hkeyword⟩

/-! ### An identifier of an identifier -/

/-- The runs of identifier characters in a name, once it is split and lowered. -/
def runsOf (name : String) : List (List Char) :=
  Text.runs isIdentifierChar (Text.lowerChars (splitAcronyms (splitHumps name.toList)))

/-- The identifier that is put together from runs. -/
def ofRuns (rs : List (List Char)) : String :=
  let stem := if (Text.joinWith ['_'] rs).isEmpty then "param".toList else Text.joinWith ['_'] rs
  let word := String.ofList (if stem.head?.any Char.isDigit then '_' :: stem else stem)
  if keywords.contains word then word ++ "_" else word

/-- Of a name only its runs matter. -/
theorem sanitize_eq (name : String) : sanitize name = ofRuns (runsOf name) := rfl

theorem splitHumps_of_forall {cs : List Char} (h : ∀ c ∈ cs, c.isUpper = false) :
    splitHumps cs = cs := by
  induction cs with
  | nil => rfl
  | cons a cs ih =>
    obtain ⟨-, hcs⟩ := List.forall_mem_cons.1 h
    cases cs with
    | nil => rfl
    | cons b cs =>
      rw [splitHumps, (List.forall_mem_cons.1 hcs).1, Bool.and_false, if_neg nofun, ih hcs]

theorem splitAcronyms_of_forall {cs : List Char} (h : ∀ c ∈ cs, c.isUpper = false) :
    splitAcronyms cs = cs := by
  induction cs with
  | nil => rfl
  | cons a cs ih =>
    obtain ⟨ha, hcs⟩ := List.forall_mem_cons.1 h
    match cs, ih, hcs with
    | [], _, _ => rfl
    | [_], _, _ => rfl
    | b :: c :: cs, ih, hcs =>
      rw [splitAcronyms, ha, Bool.false_and, Bool.false_and, if_neg nofun, ih hcs]

theorem isLower_iff {c : Char} : c.isLower = true ↔ 97 ≤ c.toNat ∧ c.toNat ≤ 122 := by
  have hrange : c.isLower = (97 ≤ c.val && c.val ≤ 122) := rfl
  rw [hrange, Bool.and_eq_true, decide_eq_true_eq, decide_eq_true_eq, UInt32.le_iff_toNat_le,
    UInt32.le_iff_toNat_le]
  exact Iff.rfl

theorem isDigit_iff {c : Char} : c.isDigit = true ↔ 48 ≤ c.toNat ∧ c.toNat ≤ 57 := by
  have hrange : c.isDigit = (48 ≤ c.val && c.val ≤ 57) := rfl
  rw [hrange, Bool.and_eq_true, decide_eq_true_eq, decide_eq_true_eq, UInt32.le_iff_toNat_le,
    UInt32.le_iff_toNat_le]
  exact Iff.rfl

theorem isPlainChar_iff {c : Char} : isPlainChar c = true ↔ c.isLower ∨ c.isDigit ∨ c = '_' := by
  rw [isPlainChar, isIdentifierChar, Bool.or_eq_true, Bool.or_eq_true, beq_iff_eq, or_assoc]

/-- The characters of plain words are ASCII and no capital letters. -/
theorem toNat_of_isPlainChar {c : Char} (h : isPlainChar c) :
    c.toNat < 128 ∧ ¬ (65 ≤ c.toNat ∧ c.toNat ≤ 90) := by
  rcases isPlainChar_iff.1 h with hlower | hdigit | rfl
  · have hrange := isLower_iff.1 hlower
    omega
  · have hrange := isDigit_iff.1 hdigit
    omega
  · decide

theorem isUpper_of_isPlainChar {c : Char} (h : isPlainChar c) : c.isUpper = false := by
  rw [← Bool.not_eq_true]
  intro hupper
  have hrange : decide (65 ≤ c.val ∧ c.val ≤ 90) = true := hupper
  rw [decide_eq_true_eq, UInt32.le_iff_toNat_le, UInt32.le_iff_toNat_le] at hrange
  exact (toNat_of_isPlainChar h).2 hrange

theorem toLower_of_isPlainChar {c : Char} (h : isPlainChar c) : c.toLower = c := by
  refine dif_neg ?_
  rintro ⟨hleast, hmost⟩
  exact (toNat_of_isPlainChar h).2 ⟨UInt32.le_iff_toNat_le.1 hleast, UInt32.le_iff_toNat_le.1 hmost⟩

/-- A word of plain characters is neither split nor lowered. -/
theorem runsOf_of_plain {word : String} (h : ∀ c ∈ word.toList, isPlainChar c) :
    runsOf word = Text.runs isIdentifierChar word.toList := by
  have hupper : ∀ c ∈ word.toList, c.isUpper = false := fun c hc => isUpper_of_isPlainChar (h c hc)
  have hlower : word.toList.map Char.toLower = word.toList :=
    (List.map_congr_left fun c hc => toLower_of_isPlainChar (h c hc)).trans (List.map_id _)
  rw [runsOf, splitHumps_of_forall hupper, splitAcronyms_of_forall hupper,
    Text.lowerChars_of_ascii fun c hc => (toNat_of_isPlainChar (h c hc)).1, hlower]

/-- Runs that are joined are found again. -/
theorem runs_joinWith {rs : List (List Char)}
    (h : ∀ r ∈ rs, r ≠ [] ∧ ∀ c ∈ r, isIdentifierChar c = true) :
    Text.runs isIdentifierChar (Text.joinWith ['_'] rs) = rs := by
  induction rs with
  | nil => rfl
  | cons r rs ih =>
    obtain ⟨⟨hne, hr⟩, hrs⟩ := List.forall_mem_cons.1 h
    have hsome : ¬ ([].reverse ++ r).isEmpty = true := by simpa using hne
    cases rs with
    | nil =>
      rw [Text.joinWith, Text.runs, Text.runsFrom_of_forall hr, if_neg hsome]
      rfl
    | cons r' rs =>
      rw [Text.joinWith_cons_cons, List.singleton_append, Text.runs,
        Text.runsFrom_append_cons hr rfl, if_neg hsome, ih hrs]
      rfl

/-- The underscores around a word make no new runs. -/
theorem runs_ofRuns {rs : List (List Char)}
    (h : ∀ r ∈ rs, r ≠ [] ∧ ∀ c ∈ r, isIdentifierChar c = true) :
    Text.runs isIdentifierChar (ofRuns rs).toList =
      if rs = [] then ["param".toList] else rs := by
  have hstem (stem : List Char) : Text.runs isIdentifierChar
      (let word := String.ofList (if stem.head?.any Char.isDigit then '_' :: stem else stem)
       if keywords.contains word then word ++ "_" else word).toList =
      Text.runs isIdentifierChar stem := by
    have hfront : Text.runs isIdentifierChar
        (if stem.head?.any Char.isDigit then '_' :: stem else stem) =
        Text.runs isIdentifierChar stem := by
      split <;> rfl
    dsimp only
    generalize (if stem.head?.any Char.isDigit then '_' :: stem else stem) = word at hfront ⊢
    by_cases hkeyword : keywords.contains (String.ofList word) = true
    · rw [if_pos hkeyword, String.toList_append, String.toList_ofList]
      exact (Text.runsFrom_append_singleton rfl [] _).trans hfront
    · rw [if_neg hkeyword, String.toList_ofList, hfront]
  refine (hstem _).trans ?_
  cases rs with
  | nil => rfl
  | cons r rs =>
    have hne : (Text.joinWith ['_'] (r :: rs)).isEmpty = false := by
      obtain ⟨hr, -⟩ := h r List.mem_cons_self
      rw [List.isEmpty_eq_false_iff]
      intro hnil
      have hhead : (Text.joinWith ['_'] (r :: rs)).head? = r.head? := Text.head?_joinWith hr
      rw [hnil, List.head?_nil] at hhead
      exact hr (List.head?_eq_none_iff.1 hhead.symm)
    rw [if_neg (by rw [hne]; nofun), if_neg (List.cons_ne_nil r rs), runs_joinWith h]

/-- Whatever a name is, its identifier is a word of lower-case letters, digits and underscores that does
not begin with a digit and has no other meaning; and the identifier is its own identifier, because the
underscores that a digit in front and a keyword bring in are left out again when it is cut into runs. -/
theorem sanitize_stable (name : String) :
    sanitize name ≠ "" ∧
      (∀ c ∈ (sanitize name).toList, c.isLower ∨ c.isDigit ∨ c = '_') ∧
      (∀ c ∈ (sanitize name).toList.head?, c.isDigit = false) ∧
      (sanitize name ∉ keywords ∧ sanitize name ∉ constants) ∧
      sanitize (sanitize name) = sanitize name := by
  obtain ⟨hplain, hkeyword⟩ := sanitize_plain name
  refine ⟨?_, fun c hc => isPlainChar_iff.1 (hplain.chars c hc), fun c hc => ?_,
    ⟨hkeyword, hplain.notMem_constants⟩, ?_⟩
  · intro hempty
    have hstarts := hplain.starts
    rw [hempty] at hstarts
    cases hstarts
  · obtain ⟨cs, hcs⟩ := List.head?_eq_some_iff.1 hc
    have hstarts := hplain.starts
    rw [hcs, startsPlain, Bool.or_eq_true, Bool.and_eq_true, beq_iff_eq] at hstarts
    rcases hstarts with hlower | ⟨rfl, -⟩
    · have hrange := isLower_iff.1 hlower
      rw [← Bool.not_eq_true, isDigit_iff]
      omega
    · rfl
  · have hruns : ∀ r ∈ runsOf name, r ≠ [] ∧ ∀ c ∈ r, isIdentifierChar c = true :=
      fun r hr => Text.of_mem_runs hr
    rw [sanitize_eq (sanitize name), runsOf_of_plain hplain.chars, sanitize_eq name, runs_ofRuns hruns]
    split
    · next hnil =>
      rw [hnil]
      rfl
    · rfl

/-! ### Numbered candidates -/

theorem toList_numbered (base : String) (n : Nat) :
    (numbered base n).toList = base.toList ++ '_' :: Nat.toDigits 10 n := by
  have hparts : numbered base n = base ++ "_" ++ toString n := rfl
  have hunderscore : "_".toList = ['_'] := by decide
  rw [hparts, String.toList_append, String.toList_append, hunderscore, List.append_assoc,
    List.singleton_append, Nat.toString_eq_ofList_toDigits, String.toList_ofList]

/-- Candidates differ in their numbers. -/
theorem numbered_injective (base : String) : Function.Injective (numbered base) := by
  intro m n h
  have hlists := congrArg String.toList h
  rw [toList_numbered, toList_numbered] at hlists
  have hdigits := (List.cons.inj (List.append_cancel_left hlists)).2
  have hvalues := congrArg (fun ds => Nat.ofDigitChars 10 ds 0) hdigits
  simpa only [Nat.ofDigitChars_toDigits (by decide : 1 < 10) (Nat.le_refl 10)] using hvalues

theorem isPlainChar_of_mem_numbered {base : String} (hbase : ∀ c ∈ base.toList, isPlainChar c)
    {n : Nat} {c : Char} (hc : c ∈ (numbered base n).toList) : isPlainChar c := by
  rw [toList_numbered] at hc
  rcases List.mem_append.1 hc with hc | hc
  · exact hbase c hc
  rcases List.mem_cons.1 hc with rfl | hc
  · rfl
  · exact isPlainChar_of_isDigit (Nat.isDigit_of_mem_toDigits (by decide) (Nat.le_refl 10) hc)

/-- A candidate is as plain as its base and no keyword. -/
theorem IsPlain.numbered {base : String} (h : IsPlain base) (n : Nat) :
    IsPlain (numbered base n) ∧ numbered base n ∉ keywords := by
  have hunderscore : '_' ∈ (Command.numbered base n).toList := by
    rw [toList_numbered]
    exact List.mem_append_right _ List.mem_cons_self
  refine ⟨⟨?_, fun c hc => isPlainChar_of_mem_numbered h.chars hc⟩,
    notMem_keywords_of_underscore hunderscore⟩
  rw [toList_numbered]
  exact startsPlain_append h.starts _

/-- The candidate that is found has the first number that is free, unless all that are tried are
taken. -/
theorem firstFree_eq (base : String) (taken : List String) (tries n : Nat) :
    ∃ m, firstFree base taken tries n = numbered base m ∧ n ≤ m ∧ m ≤ n + tries ∧
      (∀ k, n ≤ k → k < m → numbered base k ∈ taken) ∧
      (m < n + tries → numbered base m ∉ taken) := by
  induction tries generalizing n with
  | zero =>
    refine ⟨n, rfl, Nat.le_refl n, Nat.le_refl n, fun k hnk hkn => ?_, fun h => ?_⟩
    · exact absurd (Nat.lt_of_le_of_lt hnk hkn) (Nat.lt_irrefl n)
    · exact absurd h (Nat.lt_irrefl n)
  | succ tries ih =>
    rw [firstFree]
    by_cases htaken : numbered base n ∈ taken
    · rw [if_pos (List.contains_iff_mem.2 htaken)]
      obtain ⟨m, hm, hnm, hmt, hbefore, hfree⟩ := ih (n + 1)
      refine ⟨m, hm, by omega, by omega, fun k hnk hkm => ?_, fun h => hfree (by omega)⟩
      rcases Nat.eq_or_lt_of_le hnk with rfl | hnk
      · exact htaken
      · exact hbefore k hnk hkm
    · rw [if_neg fun h => htaken (List.contains_iff_mem.1 h)]
      refine ⟨n, rfl, Nat.le_refl n, by omega, fun k hnk hkn => ?_, fun _ => htaken⟩
      exact absurd (Nat.lt_of_le_of_lt hnk hkn) (Nat.lt_irrefl n)

/-- Different words that are all taken are no more than the words that are taken. -/
theorem le_card_of_injective {f : Nat → String} (hf : Function.Injective f) {taken : List String}
    {n : Nat} (h : ∀ i < n, f i ∈ taken) : n ≤ taken.toFinset.card := by
  have htaken : ∀ i ∈ Finset.range n, f i ∈ taken.toFinset :=
    fun i hi => List.mem_toFinset.2 (h i (Finset.mem_range.1 hi))
  have hcard := Finset.card_le_card_of_injOn f htaken hf.injOn
  rwa [Finset.card_range] at hcard

/-- There are more candidates than names that are taken with the base. -/
theorem exists_numbered_notMem (base : String) (taken : List String) (n : Nat) :
    ∃ k ≤ taken.length, numbered base (n + k) ∉ taken := by
  by_contra! hall
  have hinjective : Function.Injective fun k => numbered base (n + k) :=
    fun j k h => Nat.add_left_cancel (numbered_injective base h)
  have hcard := le_card_of_injective hinjective fun k hk => hall k (Nat.le_of_lt_succ hk)
  exact absurd (hcard.trans (List.toFinset_card_le taken)) (Nat.not_succ_le_self _)

/-- The identifier that is made for a name is the one of the name when that is free, else the
candidate with the first free number. -/
theorem unique_cases (name : String) (taken : List String) :
    (sanitize name ∉ taken ∧ unique name taken = sanitize name) ∨
      ∃ m, sanitize name ∈ taken ∧ unique name taken = numbered (sanitize name) m ∧ 2 ≤ m ∧
        (∀ k, 2 ≤ k → k < m → numbered (sanitize name) k ∈ taken) ∧
        numbered (sanitize name) m ∉ taken := by
  unfold unique
  dsimp only
  by_cases hbase : sanitize name ∈ taken
  · rw [if_pos (List.contains_iff_mem.2 hbase)]
    obtain ⟨m, hm, h2m, hmt, hbefore, hfree⟩ := firstFree_eq (sanitize name) taken taken.length 2
    refine .inr ⟨m, hbase, hm, h2m, hbefore, fun hmem => ?_⟩
    -- The candidates before this one are taken as well, and among all that are tried one is free.
    obtain ⟨k, hk, hnew⟩ := exists_numbered_notMem (sanitize name) taken 2
    rcases Nat.lt_trichotomy (2 + k) m with hkm | rfl | hkm
    · exact hnew (hbefore (2 + k) (Nat.le_add_right 2 k) hkm)
    · exact hnew hmem
    · exact hfree (by omega) hmem
  · rw [if_neg fun h => hbase (List.contains_iff_mem.1 h)]
    exact .inl ⟨hbase, rfl⟩

/-- The identifier that is made is new. -/
theorem unique_notMem (name : String) (taken : List String) : unique name taken ∉ taken := by
  rcases unique_cases name taken with ⟨hfree, hname⟩ | ⟨m, -, hname, -, -, hfree⟩ <;>
    rwa [hname]

/-- The identifier that is made is plain and no keyword. -/
theorem unique_plain (name : String) (taken : List String) :
    IsPlain (unique name taken) ∧ unique name taken ∉ keywords := by
  rcases unique_cases name taken with ⟨-, hname⟩ | ⟨m, -, hname, -, -, -⟩ <;> rw [hname]
  · exact sanitize_plain name
  · exact (sanitize_plain name).1.numbered m

end ApiShell.Command
