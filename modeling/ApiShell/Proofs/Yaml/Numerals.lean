import ApiShell.Proofs.Decimal.Exact
import ApiShell.Proofs.Decimal.Magnitude
import ApiShell.Proofs.Yaml.LayoutTokens
import ApiShell.Yaml.Reader

/-!
# JSON numbers in YAML

YAML takes the type of a plain scalar from its spelling.  A JSON number without a point and an exponent
is spelled as an integer, and its digits are read as the same integer.  A floating-point number needs a
point, and its exponent needs a sign: so `1.5e+3` is a number and `1e3` is a text.  Where a JSON number
is spelled as a number, both formats read the same one, to the last bit (`scalarOf_numeral_iff`).
-/

namespace ApiShell.Yaml

open Json (Numeral Exponent digitsValue signText)

/-- A number that is spelled as one: an exponent has a sign and a point before it. -/
def IsSpelledNumber (n : Numeral) : Prop := ∀ e ∈ n.exponent, n.fraction ≠ [] ∧ e.sign ≠ none

instance : DecidablePred IsSpelledNumber := fun n =>
  inferInstanceAs (Decidable (∀ e ∈ n.exponent, n.fraction ≠ [] ∧ e.sign ≠ none))

/-! ### Spellings -/

section

variable (n : Numeral)

/-- What follows the digits before the point. -/
def afterWhole : List Char := n.fractionText ++ n.exponentText

/-- The text of a number without its sign. -/
def unsignedText : List Char := n.whole ++ afterWhole n

/-- The first digit of a number. -/
theorem exists_cons_whole : ∃ d ds, n.whole = d :: ds ∧ d.isDigit = true := by
  obtain ⟨d, ds, hwhole⟩ := List.exists_cons_of_ne_nil n.whole_ne_nil
  exact ⟨d, ds, hwhole, n.isDigit_whole d (hwhole ▸ List.mem_cons_self)⟩

theorem exists_cons_unsignedText : ∃ d ds, unsignedText n = d :: ds ∧ d.isDigit = true := by
  obtain ⟨d, ds, hwhole, hd⟩ := exists_cons_whole n
  exact ⟨d, ds ++ afterWhole n, by rw [unsignedText, hwhole, List.cons_append], hd⟩

theorem text_eq : n.text = (if n.negative then ['-'] else []) ++ unsignedText n := rfl

theorem dropSign_text : dropSign n.text = unsignedText n := by
  obtain ⟨d, ds, hunsigned, hd⟩ := exists_cons_unsignedText n
  rw [text_eq, hunsigned]
  split
  · rfl
  · rw [List.nil_append]
    unfold dropSign
    split
    · next heq => exact absurd (List.cons.inj heq).1 (ne_of_class hd (by decide))
    · next heq => exact absurd (List.cons.inj heq).1 (ne_of_class hd (by decide))
    · rfl

/-- The sign and the digits of a number are told apart. -/
theorem takeSign_text : Decimal.takeSign n.text = (n.negative, unsignedText n) := by
  obtain ⟨d, ds, hunsigned, hd⟩ := exists_cons_unsignedText n
  rw [text_eq, hunsigned]
  cases n.negative with
  | true => rfl
  | false => exact Decimal.takeSign_of_isDigit hd ds

/-- The first character of a number is a sign or a digit. -/
theorem exists_head?_text : ∃ c, n.text.head? = some c ∧ (c = '-' ∨ c.isDigit = true) := by
  obtain ⟨d, ds, hunsigned, hd⟩ := exists_cons_unsignedText n
  rw [text_eq, hunsigned]
  cases n.negative with
  | true => exact ⟨'-', rfl, .inl rfl⟩
  | false => exact ⟨d, rfl, .inr hd⟩

/-- What follows digits begins with a point or with the letter of an exponent. -/
theorem head?_exponentText : ∀ c ∈ n.exponentText.head?, c = 'e' ∨ c = 'E' := by
  intro c hc
  unfold Numeral.exponentText at hc
  cases he : n.exponent with
  | none =>
    rw [he] at hc
    cases hc
  | some e =>
    rw [he] at hc
    rw [← Option.some.inj hc]
    exact e.letter_eq

theorem head?_afterWhole : ∀ c ∈ (afterWhole n).head?, c = '.' ∨ c = 'e' ∨ c = 'E' := by
  intro c hc
  unfold afterWhole Numeral.fractionText at hc
  split at hc
  · exact .inr (head?_exponentText n c hc)
  · exact .inl (Option.some.inj hc).symm

/-- Digits are taken up to the first character that is none. -/
theorem dropWhile_digits {p : Char → Bool} {ds rest : List Char} (hp : ∀ c, c.isDigit = true → p c = true)
    (hds : ∀ c ∈ ds, c.isDigit = true) (hrest : ∀ c ∈ rest.head?, p c = false) :
    (ds ++ rest).dropWhile p = rest := by
  rw [List.dropWhile_append_of_pos fun c hc => hp c (hds c hc)]
  cases rest with
  | nil => rfl
  | cons c rest => exact List.dropWhile_cons_of_neg (by rw [hrest c rfl]; decide)

theorem digitsFrom_unsignedText {first : Char → Bool} (hfirst : ∀ d ∈ n.whole.head?, first d = true) :
    digitsFrom first (unsignedText n) = some (afterWhole n) := by
  obtain ⟨d, ds, hwhole, hd⟩ := exists_cons_whole n
  rw [hwhole] at hfirst
  rw [unsignedText, hwhole, List.cons_append, digitsFrom, if_pos (hfirst d rfl)]
  refine congrArg some (dropWhile_digits ?_ ?_ ?_)
  · intro c hc
    rw [Bool.or_eq_true]
    exact .inl hc
  · exact fun c hc => n.isDigit_whole c (hwhole ▸ List.mem_cons_of_mem d hc)
  · intro c hc
    rcases head?_afterWhole n c hc with rfl | rfl | rfl <;> decide

theorem isExponentOrEmpty_exponentText :
    isExponentOrEmpty n.exponentText = true ↔ ∀ e ∈ n.exponent, e.sign ≠ none := by
  unfold Numeral.exponentText
  cases n.exponent with
  | none => simp [isExponentOrEmpty]
  | some e =>
    obtain ⟨letter, sign, digits, hletter, hdigits, hne⟩ := e
    obtain ⟨d, ds, rfl⟩ := List.exists_cons_of_ne_nil hne
    have hd := hdigits d List.mem_cons_self
    have hall : ((d :: ds).all isDecimal) = true := List.all_eq_true.2 hdigits
    have hmark : (letter == 'e' || letter == 'E') = true := by
      rcases hletter with rfl | rfl <;> decide
    cases sign with
    | none =>
      have hsign : (d == '+' || d == '-') = false := by
        simp [ne_of_class hd (show '+'.isDigit = false by decide),
          ne_of_class hd (show '-'.isDigit = false by decide)]
      simp [Exponent.text, signText, isExponentOrEmpty, hsign]
    | some negative =>
      have hsigned : isExponentOrEmpty (Exponent.text ⟨letter, some negative, d :: ds, hletter, hdigits, hne⟩) =
          true := by
        cases negative <;> simp [Exponent.text, signText, isExponentOrEmpty, hmark, hall]
      simp [hsigned]

/-- No number begins with a point, as the special values do. -/
theorem head?_text_ne : n.text.head? ≠ some '.' := by
  obtain ⟨c, hhead, hc⟩ := exists_head?_text n
  rw [hhead]
  rintro ⟨⟩
  exact absurd hc (by decide)

theorem contains_eq_false {cs : List Char} {words : List (List Char)} (h : cs.head? ≠ some '.')
    (hwords : ∀ w ∈ words, w.head? = some '.') : words.contains cs = false := by
  rw [List.contains_eq_mem, decide_eq_false_iff_not]
  exact fun hmem => h (hwords cs hmem)

/-- A number is spelled as a floating-point number if it has a point and its exponent has a sign. -/
theorem isFloatSpelling_text :
    isFloatSpelling n.text = true ↔ n.fraction ≠ [] ∧ ∀ e ∈ n.exponent, e.sign ≠ none := by
  obtain ⟨d, ds, hunsigned, hd⟩ := exists_cons_unsignedText n
  have hspecial : ([".inf", ".Inf", ".INF"].map String.toList).contains (unsignedText n) = false := by
    refine contains_eq_false (fun hhead => ?_) (by decide)
    rw [hunsigned] at hhead
    exact ne_of_class hd (by decide) (Option.some.inj hhead)
  have hmissing : ([".nan", ".NaN", ".NAN"].map String.toList).contains n.text = false :=
    contains_eq_false (head?_text_ne n) (by decide)
  have hdigits : digitsFrom isDecimal (unsignedText n) = some (afterWhole n) :=
    digitsFrom_unsignedText n fun d hd => n.isDigit_whole d (List.mem_of_head? hd)
  unfold isFloatSpelling
  dsimp only
  rw [dropSign_text, hspecial, hmissing, hdigits, Bool.false_or, Bool.false_or]
  split
  · next heq => exact absurd (congrArg List.head? heq) (head?_text_ne n)
  rw [Bool.false_or]
  by_cases hfraction : n.fraction = []
  · -- Without a point there is nothing, or an exponent; neither of them is a count of sixtieths.
    have hafter : afterWhole n = n.exponentText := by
      rw [afterWhole, Numeral.fractionText, hfraction]
      rfl
    have hhead := head?_exponentText n
    rw [hafter, iff_false_right fun h => h.1 hfraction]
    cases hexponent : n.exponentText with
    | nil => decide
    | cons c cs =>
      rw [hexponent] at hhead
      rcases hhead c rfl with rfl | rfl <;> exact Bool.false_ne_true
  · have hafter : afterWhole n = '.' :: (n.fraction ++ n.exponentText) := by
      rw [afterWhole, Numeral.fractionText, if_neg (by simpa using hfraction)]
      rfl
    have hexponent : (n.fraction ++ n.exponentText).dropWhile (fun c => isDecimal c || c == '_') =
        n.exponentText := by
      refine dropWhile_digits (fun c hc => ?_) n.isDigit_fraction fun c hc => ?_
      · rw [Bool.or_eq_true]
        exact .inl hc
      · rcases head?_exponentText n c hc with rfl | rfl <;> decide
    rw [hafter]
    show isFractionSpelling (n.fraction ++ n.exponentText) = true ↔ _
    rw [isFractionSpelling, hexponent, isExponentOrEmpty_exponentText, and_iff_right hfraction]

theorem isNonzero_of_isDigit {d : Char} (hd : d.isDigit = true) (hzero : d ≠ '0') :
    ('1' ≤ d && d ≤ '9') = true := by
  have hcode : d.val.toNat ≠ 48 := fun h => hzero (Char.ext (UInt32.toNat_inj.1 h))
  simp only [Char.isDigit, Bool.and_eq_true, decide_eq_true_eq, ge_iff_le, UInt32.le_iff_toNat_le] at hd
  obtain ⟨hlow, hhigh⟩ := hd
  change 48 ≤ d.val.toNat at hlow
  rw [Bool.and_eq_true, decide_eq_true_eq, decide_eq_true_eq, Char.le_def, Char.le_def,
    UInt32.le_iff_toNat_le, UInt32.le_iff_toNat_le]
  exact ⟨show 49 ≤ d.val.toNat by omega, hhigh⟩

/-- A number without a point and an exponent is spelled as an integer. -/
theorem isIntSpelling_text (hfraction : n.fraction = []) (hexponent : n.exponent = none) :
    isIntSpelling n.text = true := by
  obtain ⟨d, ds, hwhole, hd⟩ := exists_cons_whole n
  have hafter : afterWhole n = [] := by
    rw [afterWhole, Numeral.fractionText, Numeral.exponentText, hfraction, hexponent]
    rfl
  have hdigits (h : d ≠ '0') : digitsFrom (fun c => '1' ≤ c && c ≤ '9') (unsignedText n) = some [] := by
    rw [← hafter]
    refine digitsFrom_unsignedText n fun c hc => ?_
    rw [hwhole] at hc
    obtain rfl := Option.some.inj hc
    exact isNonzero_of_isDigit hd h
  have hunsigned : unsignedText n = d :: ds := by rw [unsignedText, hafter, hwhole, List.append_nil]
  unfold isIntSpelling
  dsimp only
  rw [dropSign_text]
  by_cases hzero : d = '0'
  · obtain rfl := hzero
    have hds : ds = [] := (List.cons.inj (hwhole.symm.trans (n.whole_eq_zero (by rw [hwhole]; rfl)))).2
    rw [hunsigned, hds]
    rfl
  · rw [hunsigned] at hdigits ⊢
    split
    · next heq => exact absurd (List.cons.inj heq).1 hzero
    · next heq => exact absurd (List.cons.inj heq).1 hzero
    · next heq => exact absurd (List.cons.inj heq).1 hzero
    · rw [hdigits hzero]

/-- No number is one of the words for a truth value. -/
theorem contains_boolWords : boolWords.contains (String.ofList n.text) = false := by
  have hwords : ∀ w ∈ boolWords, (w.toList.head?.any fun c => c == '-' || c.isDigit) = false := by
    decide
  obtain ⟨c, hhead, hc⟩ := exists_head?_text n
  rw [List.contains_eq_mem, decide_eq_false_iff_not]
  intro hmem
  have hword := hwords _ hmem
  rw [String.toList_ofList, hhead, Option.any_some, Bool.or_eq_false_iff, beq_eq_false_iff_ne] at hword
  rcases hc with hsign | hdigit
  · exact hword.1 hsign
  · rw [hword.2] at hdigit
    cases hdigit

theorem implicitTag_of_isFloat (h : isFloatSpelling n.text = true) :
    implicitTag (String.ofList n.text) = standardTag "float" := by
  unfold implicitTag
  dsimp only
  rw [contains_boolWords, String.toList_ofList, h]
  rfl

theorem implicitTag_of_isInt (hfraction : n.fraction = []) (hexponent : n.exponent = none) :
    implicitTag (String.ofList n.text) = standardTag "int" := by
  have hnotFloat : isFloatSpelling n.text = false :=
    Bool.eq_false_iff.2 fun h => ((isFloatSpelling_text n).1 h).1 hfraction
  unfold implicitTag
  dsimp only
  rw [contains_boolWords, String.toList_ofList, hnotFloat, isIntSpelling_text n hfraction hexponent]
  rfl

/-- Only what is spelled as a floating-point number has the type of one. -/
theorem isFloatSpelling_of_implicitTag {text : String} (h : implicitTag text = standardTag "float") :
    isFloatSpelling text.toList = true := by
  by_contra hnot
  unfold implicitTag at h
  dsimp only at h
  rw [if_neg hnot] at h
  split_ifs at h <;> exact absurd h (by decide)

/-! ### Integers -/

/-- A number has no underscores that could be dropped. -/
theorem filter_text : n.text.filter (· != '_') = n.text := by
  rw [List.filter_eq_self]
  intro c hc
  rw [bne_iff_ne]
  rintro rfl
  exact absurd ((isAtom_number n).1 '_' hc) (by decide)

theorem text_isEmpty : n.text.isEmpty = false := by
  obtain ⟨c, hhead, -⟩ := exists_head?_text n
  rw [List.isEmpty_eq_false_iff]
  intro hnil
  rw [hnil] at hhead
  cases hhead

/-- Digits are read as the integer that they write. -/
theorem integerIn_digits {ds : List Char} (hds : ∀ c ∈ ds, c.isDigit = true) (hne : ds ≠ []) :
    integerIn 10 ds = .ok (digitsValue ds) := by
  obtain ⟨d, ds, rfl⟩ := List.exists_cons_of_ne_nil hne
  have htrim : Text.trimOf Decimal.isPadding (d :: ds) = d :: ds :=
    Text.trimOf_eq_self fun c hc => Decimal.isPadding_of_isDigit (hds c hc)
  have hgrouped : Decimal.groupedDigits 10 false (d :: ds) = _ :=
    Decimal.groupedDigits_of_isDigit hds (.inl hne)
  have hinteger : Decimal.integer? 10 (d :: ds) = some (digitsValue (d :: ds) : ℤ) := by
    rw [Decimal.integer?, htrim, Decimal.takeSign_of_isDigit (hds d List.mem_cons_self)]
    dsimp only
    rw [hgrouped, Json.digitsValue_eq, ← Decimal.ofDigits_map]
    rfl
  rw [integerIn, hinteger]

/-- A number without a point and an exponent is read as its integer. -/
theorem integerOf_text (hfraction : n.fraction = []) (hexponent : n.exponent = none) :
    integerOf (String.ofList n.text) =
      .ok (if n.negative then -(digitsValue n.whole : ℤ) else digitsValue n.whole) := by
  obtain ⟨d, ds, hwhole, hd⟩ := exists_cons_whole n
  have hunsigned : unsignedText n = n.whole := by
    rw [unsignedText, afterWhole, Numeral.fractionText, Numeral.exponentText, hfraction, hexponent]
    exact List.append_nil _
  unfold integerOf
  rw [String.toList_ofList, filter_text]
  dsimp only
  rw [text_isEmpty, if_neg Bool.false_ne_true, takeSign_text, hunsigned]
  dsimp only
  by_cases hzero : d = '0'
  · obtain rfl := hzero
    rw [n.whole_eq_zero (by rw [hwhole]; rfl)]
    cases n.negative <;> rfl
  · have hcolon : n.whole.contains ':' = false := by
      rw [List.contains_eq_mem, decide_eq_false_iff_not]
      exact fun hmem => absurd (n.isDigit_whole ':' hmem) (by decide)
    have hread := integerIn_digits n.isDigit_whole n.whole_ne_nil
    rw [hwhole] at hcolon hread ⊢
    rw [if_neg (by simp [hzero])]
    split
    · next heq => cases heq
    · next heq => exact absurd (List.cons.inj heq).1 hzero
    · next heq => exact absurd (List.cons.inj heq).1 hzero
    · next heq => exact absurd (List.cons.inj heq).1 hzero
    · rw [hcolon, hread]
      rfl

/-! ### Floating-point numbers -/

theorem toLower_of_isDigit {c : Char} (h : c.isDigit = true) : c.toLower = c := by
  have hascii : c.toNat < 128 := by
    have hcode := (Text.toNat_of_isAlphanum (isAlphanum_of_isDigit h)).2
    omega
  have hlower := Decimal.lowerChar_of_isDigit h
  rw [Text.lowerChar, if_pos hascii] at hlower
  exact (List.cons.inj hlower).1

theorem map_toLower_digits {ds : List Char} (hds : ∀ c ∈ ds, c.isDigit = true) :
    ds.map Char.toLower = ds :=
  (List.map_congr_left fun c hc => toLower_of_isDigit (hds c hc)).trans (List.map_id ds)

/-- The number with a small letter in front of its exponent. -/
def lowered : Numeral :=
  { n with exponent := n.exponent.map fun e => { e with letter := 'e', letter_eq := .inl rfl } }

theorem toNat_lt_of_mem_text : ∀ c ∈ n.text, c.toNat < 128 := by
  intro c hc
  have hatom := (isAtom_number n).1 c hc
  rw [isAtomChar, Bool.or_eq_true, Bool.or_eq_true, Bool.or_eq_true, beq_iff_eq, beq_iff_eq,
    beq_iff_eq] at hatom
  rcases hatom with ((halphanum | rfl) | rfl) | rfl
  · have hcode := (Text.toNat_of_isAlphanum halphanum).2
    omega
  · decide
  · decide
  · decide

theorem lowerChars_text : Text.lowerChars n.text = (lowered n).text := by
  have hfraction : n.fractionText.map Char.toLower = n.fractionText := by
    rw [Numeral.fractionText]
    split
    · rfl
    · rw [List.map_cons, map_toLower_digits n.isDigit_fraction]
      rfl
  have hexponent : n.exponentText.map Char.toLower = (lowered n).exponentText := by
    rw [Numeral.exponentText, Numeral.exponentText, lowered]
    cases n.exponent with
    | none => rfl
    | some e =>
      have hletter : e.letter.toLower = 'e' := by
        rcases e.letter_eq with h | h <;> rw [h] <;> rfl
      have hsign : (signText e.sign).map Char.toLower = signText e.sign := by
        rcases e.sign with _ | _ | _ <;> rfl
      show (e.letter :: (signText e.sign ++ e.digits)).map Char.toLower = 'e' :: (signText e.sign ++ e.digits)
      rw [List.map_cons, List.map_append, hletter, hsign, map_toLower_digits e.isDigit]
  have hsign : (if n.negative then ['-'] else []).map Char.toLower = if n.negative then ['-'] else [] := by
    cases n.negative <;> rfl
  rw [Text.lowerChars_of_ascii (toNat_lt_of_mem_text n), Numeral.text, List.map_append, List.map_append,
    List.map_append, hsign, map_toLower_digits n.isDigit_whole, hfraction, hexponent]
  rfl

/-- The exponent of a number, zero if there is none. -/
def exponentValue : ℤ := (n.exponent.map Exponent.value).getD 0

/-- Digits are taken up to the first character that is none. -/
theorem someGrouped_digits {ds rest : List Char} (hds : ∀ c ∈ ds, c.isDigit = true)
    (hrest : ∀ c ∈ rest.head?, c = '.' ∨ c = 'e' ∨ c = 'E') :
    Decimal.someGrouped (ds ++ rest) = some (ds.map fun c => c.toNat - '0'.toNat, rest) := by
  have hnone : rest.takeWhile (fun c => Text.isDecimal c || c == '_') = [] := by
    cases rest with
    | nil => rfl
    | cons c rest =>
      refine List.takeWhile_cons_of_neg ?_
      rcases hrest c rfl with rfl | rfl | rfl <;> decide
  have hrun : (ds ++ rest).takeWhile (fun c => Text.isDecimal c || c == '_') = ds := by
    rw [List.takeWhile_append_of_pos fun c hc => by rw [Text.isDecimal_of_isDigit (hds c hc), Bool.true_or],
      hnone, List.append_nil]
  rw [Decimal.someGrouped, hrun]
  cases ds with
  | nil => rfl
  | cons d ds =>
    rw [if_neg (by simp), Decimal.groupedDigits_of_isDigit hds (.inl (List.cons_ne_nil d ds)),
      List.drop_left]
    rfl

/-- What is read behind the digits before the point: the digits behind it, if it is there. -/
theorem someGrouped_afterWhole {α : Type} (f : List ℕ × List Char → Option α) :
    (match afterWhole n with
      | '.' :: rest => Decimal.someGrouped rest >>= f
      | rest => some ([], rest) >>= f) = f (n.fraction.map fun c => c.toNat - '0'.toNat, n.exponentText) := by
  have hhead := head?_exponentText n
  unfold afterWhole Numeral.fractionText
  by_cases hfraction : n.fraction = []
  · rw [hfraction, if_pos List.isEmpty_nil, List.nil_append]
    split
    · next heq =>
      rw [heq] at hhead
      exact absurd (hhead '.' rfl) (by decide)
    · rfl
  · have hgrouped := someGrouped_digits n.isDigit_fraction fun c hc => .inr (hhead c hc)
    rw [if_neg (by simpa using hfraction), List.cons_append]
    show (Decimal.someGrouped (n.fraction ++ n.exponentText)).bind f = _
    rw [hgrouped, Option.bind_some]

/-- The exponent is read, zero if there is none. -/
theorem groupedDigits_exponentText {α : Type} (f : ℤ → Option α) :
    (match n.exponentText with
      | [] => some 0 >>= f
      | e :: rest =>
        if e == 'e' || e == 'E' then
          ((Decimal.groupedDigits 10 false (Decimal.takeSign rest).2).map fun ds =>
            if (Decimal.takeSign rest).1 then -(Decimal.ofDigits 10 ds : ℤ)
            else Decimal.ofDigits 10 ds) >>= f
        else none >>= f) = f (exponentValue n) := by
  unfold Numeral.exponentText exponentValue
  cases n.exponent with
  | none => rfl
  | some e =>
    obtain ⟨letter, sign, digits, hletter, hdigits, hne⟩ := e
    have hmark : (letter == 'e' || letter == 'E') = true := by
      rcases hletter with rfl | rfl <;> decide
    have hsign : Decimal.takeSign (signText sign ++ digits) = (decide (sign = some true), digits) := by
      obtain ⟨d, ds, rfl⟩ := List.exists_cons_of_ne_nil hne
      rcases sign with _ | _ | _
      · exact Decimal.takeSign_of_isDigit (hdigits d List.mem_cons_self) ds
      · rfl
      · rfl
    have hgrouped : Decimal.groupedDigits 10 false digits = _ :=
      Decimal.groupedDigits_of_isDigit hdigits (.inl hne)
    have hvalue : (Decimal.groupedDigits 10 false digits).map (fun ds =>
        if decide (sign = some true) then -(Decimal.ofDigits 10 ds : ℤ) else Decimal.ofDigits 10 ds) =
          some (Exponent.value ⟨letter, sign, digits, hletter, hdigits, hne⟩) := by
      rw [hgrouped, Option.map_some, Decimal.ofDigits_map, ← Json.digitsValue_eq]
      simp only [decide_eq_true_eq]
      rfl
    rw [Option.map_some, Option.getD_some, Option.map_some, Option.getD_some]
    show (if letter == 'e' || letter == 'E' then _ else _) = _
    rw [if_pos hmark, hsign, hvalue]
    rfl

/-- The digits of a number, its point and its exponent are read as its value. -/
theorem unsignedFloat?_unsignedText (negative : Bool) :
    Decimal.unsignedFloat? negative (unsignedText n) = some (Decimal.ofDecimal negative
      (digitsValue (n.whole ++ n.fraction)) (exponentValue n - n.fraction.length)) := by
  have hname (name : String) (hname : name.toList.head?.any Char.isDigit = false) :
      (String.ofList (Text.lowerChars (unsignedText n)) == name) = false := by
    obtain ⟨d, ds, hunsigned, hd⟩ := exists_cons_unsignedText n
    rw [hunsigned]
    exact Decimal.ne_lowerChars hd ds name hname
  have hwhole : Decimal.someGrouped (unsignedText n) = _ :=
    someGrouped_digits n.isDigit_whole (head?_afterWhole n)
  have hsome : (n.whole.map fun c => c.toNat - '0'.toNat).isEmpty = false := by
    simpa using n.whole_ne_nil
  have hvalue : Decimal.ofDigits 10 ((n.whole.map fun c => c.toNat - '0'.toNat) ++
      n.fraction.map fun c => c.toNat - '0'.toNat) = digitsValue (n.whole ++ n.fraction) := by
    rw [← List.map_append, Decimal.ofDigits_map, Json.digitsValue_eq]
  unfold Decimal.unsignedFloat?
  dsimp only
  rw [hname "inf" (by decide), hname "infinity" (by decide), hname "nan" (by decide), Bool.or_false,
    if_neg Bool.false_ne_true, if_neg Bool.false_ne_true, hwhole]
  refine (someGrouped_afterWhole n _).trans ?_
  dsimp only
  rw [hsome, Bool.false_and, if_neg Bool.false_ne_true]
  refine (groupedDigits_exponentText n _).trans ?_
  rw [hvalue, List.length_map]
  rfl

theorem isAtomChar_of_mem_unsignedText : ∀ c ∈ unsignedText n, isAtomChar c = true := fun c hc =>
  (isAtom_number n).1 c (by rw [text_eq]; exact List.mem_append_right _ hc)

theorem float?_unsignedText : Decimal.float? (unsignedText n) = some (Decimal.ofDecimal false
    (digitsValue (n.whole ++ n.fraction)) (exponentValue n - n.fraction.length)) := by
  have htrim : Text.trimOf Decimal.isPadding (unsignedText n) = unsignedText n := by
    refine Text.trimOf_eq_self fun c hc => ?_
    have hatom := isAtomChar_of_mem_unsignedText n c hc
    rw [isAtomChar, Bool.or_eq_true, Bool.or_eq_true, Bool.or_eq_true, beq_iff_eq, beq_iff_eq,
      beq_iff_eq] at hatom
    rcases hatom with ((halphanum | rfl) | rfl) | rfl
    · rw [Decimal.isPadding, Text.isBlank_of_isAlphanum halphanum, Bool.false_and]
    · decide
    · decide
    · decide
  have hsign : Decimal.takeSign (unsignedText n) = (false, unsignedText n) := by
    obtain ⟨d, ds, hunsigned, hd⟩ := exists_cons_unsignedText n
    rw [hunsigned]
    exact Decimal.takeSign_of_isDigit hd ds
  rw [Decimal.float?, htrim, hsign]
  exact unsignedFloat?_unsignedText n false

theorem exponentValue_lowered : exponentValue (lowered n) = exponentValue n := by
  unfold exponentValue lowered
  cases n.exponent <;> rfl

/-- A number is read as its value, also if it is not spelled as one. -/
theorem floatingOf_text : floatingOf (String.ofList n.text) = .ok (Decimal.ofDecimal n.negative
    (digitsValue (n.whole ++ n.fraction)) (exponentValue n - n.fraction.length)) := by
  obtain ⟨d, ds, hunsigned, hd⟩ := exists_cons_unsignedText (lowered n)
  have hspecial (name : String) (hname : name.toList.head? = some '.') :
      (unsignedText (lowered n) == name.toList) = false := by
    refine beq_eq_false_iff_ne.2 fun heq => ?_
    rw [← heq, hunsigned] at hname
    exact ne_of_class hd (by decide) (Option.some.inj hname)
  have hcolon : (unsignedText (lowered n)).contains ':' = false := by
    rw [List.contains_eq_mem, decide_eq_false_iff_not]
    exact fun hmem => absurd (isAtomChar_of_mem_unsignedText _ ':' hmem) (by decide)
  have hread : floatOf (unsignedText (lowered n)) = .ok (Decimal.ofDecimal false
      (digitsValue (n.whole ++ n.fraction)) (exponentValue n - n.fraction.length)) := by
    rw [floatOf, float?_unsignedText, exponentValue_lowered]
    rfl
  unfold floatingOf
  rw [String.toList_ofList, filter_text, lowerChars_text]
  dsimp only
  rw [text_isEmpty, if_neg Bool.false_ne_true, takeSign_text]
  dsimp only
  rw [hspecial ".inf" (by decide), hspecial ".nan" (by decide), hcolon, if_neg Bool.false_ne_true,
    if_neg Bool.false_ne_true, if_neg Bool.false_ne_true, hread]
  show Except.ok (if n.negative = true then _ else _) = _
  cases n.negative with
  | true => exact congrArg Except.ok (Decimal.minusOne_mul_ofDecimal _ _)
  | false => rfl

end

/-! ### Values -/

theorem timestampOf_ne_float (text : String) (x : Float) : timestampOf text ≠ .ok (.float x) := by
  unfold timestampOf
  split
  · exact fun h => nomatch h
  next t _ =>
  dsimp only
  split
  · next s hmade =>
    rintro ⟨⟩
    split at hmade
    · cases hdate : Time.Date.make t.year t.month t.day <;> rw [hdate] at hmade <;> cases hmade
    split at hmade
    · cases hmade
    · obtain ⟨date, -, hdate⟩ := bind_eq_ok_iff.1 hmade
      obtain ⟨moment, -, hmoment⟩ := bind_eq_ok_iff.1 hdate
      cases hmoment
  · exact fun h => nomatch h

/-- Only a floating-point scalar has a floating-point value. -/
theorem eq_float_of_scalarOf {tag text : String} {x : Float} (h : scalarOf tag text = .ok (.float x)) :
    tag = standardTag "float" := by
  by_contra hne
  have htag : (tag == standardTag "float") = false := beq_eq_false_iff_ne.2 hne
  have hint : Scalar.int <$> integerOf text ≠ .ok (.float x) := by
    cases integerOf text <;> exact fun h => nomatch h
  unfold scalarOf at h
  rw [htag] at h
  dsimp only at h
  split at h
  · cases h
  split at h
  · split at h
    · cases h
    split at h <;> cases h
  split at h
  · exact hint h
  rw [if_neg Bool.false_ne_true] at h
  split at h
  · split at h
    · split at h <;> cases h
    · cases h
  split at h
  · exact timestampOf_ne_float text x h
  split at h <;> cases h

section

variable (n : Numeral)

theorem value_of_isInt (hfraction : n.fraction = []) (hexponent : n.exponent = none) :
    n.value = .int (if n.negative then -(digitsValue n.whole : ℤ) else digitsValue n.whole) := by
  rw [Numeral.value, hexponent]
  dsimp only
  rw [hfraction]
  rfl

theorem value_of_not_isInt (h : n.fraction ≠ [] ∨ n.exponent ≠ none) :
    n.value = .float (Decimal.ofDecimal n.negative (digitsValue (n.whole ++ n.fraction))
      (exponentValue n - n.fraction.length)) := by
  rw [Numeral.value, exponentValue]
  cases hexponent : n.exponent with
  | none =>
    dsimp only
    rw [if_neg (by simpa using h.resolve_right fun hsome => hsome hexponent)]
    rfl
  | some e => rfl

/-- Where a JSON number is spelled as a number its value is the same in both formats; elsewhere it is
a text in YAML, and not what it is in JSON. -/
theorem scalarOf_numeral_iff :
    scalarTags.contains (implicitTag (String.ofList n.text)) = true ∧
        scalarOf (implicitTag (String.ofList n.text)) (String.ofList n.text) = .ok n.value ↔
      IsSpelledNumber n := by
  by_cases hint : n.fraction = [] ∧ n.exponent = none
  · obtain ⟨hfraction, hexponent⟩ := hint
    have hspelled : IsSpelledNumber n := fun e he => by
      rw [hexponent] at he
      cases he
    rw [implicitTag_of_isInt n hfraction hexponent, value_of_isInt n hfraction hexponent,
      iff_true_right hspelled]
    refine ⟨by decide, ?_⟩
    show Scalar.int <$> integerOf (String.ofList n.text) = _
    rw [integerOf_text n hfraction hexponent]
    rfl
  rw [value_of_not_isInt n (by tauto)]
  by_cases hfloat : isFloatSpelling n.text = true
  · have hsigned := (isFloatSpelling_text n).1 hfloat
    have hspelled : IsSpelledNumber n := fun e he => ⟨hsigned.1, hsigned.2 e he⟩
    rw [implicitTag_of_isFloat n hfloat, iff_true_right hspelled]
    refine ⟨by decide, ?_⟩
    show Scalar.float <$> floatingOf (String.ofList n.text) = _
    rw [floatingOf_text]
    rfl
  · constructor
    · rintro ⟨-, hvalue⟩
      have htag := isFloatSpelling_of_implicitTag (eq_float_of_scalarOf hvalue)
      rw [String.toList_ofList] at htag
      exact absurd htag hfloat
    · intro hspelled
      have hfraction : n.fraction ≠ [] := fun hnil =>
        hint ⟨hnil, Option.eq_none_iff_forall_not_mem.2 fun e he => (hspelled e he).1 hnil⟩
      exact absurd ((isFloatSpelling_text n).2 ⟨hfraction, fun e he => (hspelled e he).2⟩) hfloat

end

end ApiShell.Yaml
