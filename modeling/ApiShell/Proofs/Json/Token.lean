import ApiShell.Json.Reader
import ApiShell.Json.Writer
import ApiShell.Proofs.Decimal.Shortest

/-!
# Tokens that are read back

What is written for a text, an integer or a floating-point number is read back as this text or
number, whatever follows it.  A number has to be followed by something that does not continue it.
-/

namespace ApiShell.Json

open Decimal (Digits)

/-! ### Texts -/

theorem hexValue?_hexDigit {n : ℕ} (hn : n < 16) : hexValue? (Text.hexDigit n) = some n := by
  revert n
  decide

theorem hex4?_hexPadded {n : ℕ} (hn : n < 16 ^ 4) (c : Char) (rest : List Char) :
    hex4? (Text.hexPadded 4 n ++ c :: rest) = some (n, c :: rest) := by
  have hdigit (k : ℕ) : hexValue? (Text.hexDigit (k % 16)) = some (k % 16) :=
    hexValue?_hexDigit (Nat.mod_lt k (by decide))
  simp only [Text.hexPadded, List.nil_append, List.cons_append, hex4?, hdigit, Option.bind_eq_bind,
    Option.bind_some, Option.pure_def, Option.some.injEq, Prod.mk.injEq, and_true]
  omega

/-- A control character is written by its code. -/
theorem unicodeEscape_hexPadded {n : ℕ} (hn : n < 32) (c : Char) (rest : List Char) :
    unicodeEscape (Text.hexPadded 4 n ++ c :: rest) = .ok (Char.ofNat n, c :: rest) := by
  have hhigh : isHighHalf n = false := by
    simp [isHighHalf]
    omega
  have hlow : isLowHalf n = false := by
    simp [isLowHalf]
    omega
  rw [unicodeEscape, hex4?_hexPadded (by omega)]
  simp only [hhigh, codeChar, hlow]
  rfl

/-- The characters with an escape of two characters. -/
def shortEscaped : List Char := ['"', '\\', '\n', '\r', '\t', '\x0c', '\x08']

theorem not_beq_of_notMem {c special : Char} (h : c ∉ shortEscaped)
    (hspecial : special ∈ shortEscaped) : ¬(c == special) = true :=
  fun heq => h (beq_iff_eq.1 heq ▸ hspecial)

/-- Any other character is written by its code or as it is. -/
theorem stringChar_of_notMem {c : Char} (h : c ∉ shortEscaped) :
    stringChar false c = if c.toNat < 32 then unicodeCode c.toNat else [c] := by
  have hne {special : Char} (hspecial : special ∈ shortEscaped) := not_beq_of_notMem h hspecial
  unfold stringChar
  rw [if_neg (hne (by decide)), if_neg (hne (by decide)), if_neg (hne (by decide)),
    if_neg (hne (by decide)), if_neg (hne (by decide)), if_neg (hne (by decide)),
    if_neg (hne (by decide))]
  simp

theorem stringChar_ne_nil (c : Char) : stringChar false c ≠ [] := by
  by_cases h : c ∈ shortEscaped
  · simp only [shortEscaped, List.mem_cons, List.not_mem_nil, or_false] at h
    rcases h with rfl | rfl | rfl | rfl | rfl | rfl | rfl <;> exact List.cons_ne_nil _ _
  · rw [stringChar_of_notMem h]
    split <;> exact List.cons_ne_nil _ _

/-- A character of a text is read back. -/
theorem stringTail_stringChar (opening fuel : ℕ) (c d : Char) (rest : List Char) :
    stringTail opening (fuel + 1) (stringChar false c ++ d :: rest) = (do
      let (chars, cs) ← stringTail opening fuel (d :: rest)
      return (c :: chars, cs)) := by
  by_cases h : c ∈ shortEscaped
  · simp only [shortEscaped, List.mem_cons, List.not_mem_nil, or_false] at h
    rcases h with rfl | rfl | rfl | rfl | rfl | rfl | rfl <;> rfl
  rw [stringChar_of_notMem h]
  by_cases hcontrol : c.toNat < 32
  · have hcode := unicodeEscape_hexPadded hcontrol d rest
    rw [Char.ofNat_toNat] at hcode
    rw [if_pos hcontrol]
    show (unicodeEscape (Text.hexPadded 4 c.toNat ++ d :: rest) >>= _) = _
    rw [hcode]
    rfl
  · rw [if_neg hcontrol]
    show (if c == '"' then _ else _) = _
    rw [if_neg (not_beq_of_notMem h (by decide)), if_neg (not_beq_of_notMem h (by decide)),
      if_neg hcontrol]
    rfl

theorem length_le_flatMap_stringChar (cs : List Char) :
    cs.length ≤ (cs.flatMap (stringChar false)).length := by
  have hlength : (cs.map fun c => (stringChar false c).length).length = cs.length :=
    List.length_map _
  rw [List.length_flatMap, ← hlength]
  refine List.length_le_sum_of_one_le _ fun n hn => ?_
  obtain ⟨c, -, rfl⟩ := List.mem_map.1 hn
  exact List.length_pos_of_ne_nil (stringChar_ne_nil c)

/-- A text between quotes is read back. -/
theorem string_stringText (s : String) (rest : List Char) :
    string (s.toList.flatMap (stringChar false) ++ '"' :: rest) = .ok (s, rest) := by
  have htail (opening fuel : ℕ) (cs : List Char) (hfuel : cs.length < fuel) :
      stringTail opening fuel (cs.flatMap (stringChar false) ++ '"' :: rest) = .ok (cs, rest) := by
    induction cs generalizing fuel with
    | nil =>
      obtain ⟨fuel, rfl⟩ := Nat.exists_eq_succ_of_ne_zero (Nat.ne_zero_of_lt hfuel)
      rfl
    | cons c cs ih =>
      obtain ⟨fuel, rfl⟩ := Nat.exists_eq_succ_of_ne_zero (Nat.ne_zero_of_lt hfuel)
      obtain ⟨d, tail, hnext⟩ : ∃ d tail,
          cs.flatMap (stringChar false) ++ '"' :: rest = d :: tail :=
        List.exists_cons_of_ne_nil (by simp)
      rw [List.flatMap_cons, List.append_assoc, hnext, Nat.succ_eq_add_one, stringTail_stringChar,
        ← hnext, ih fuel (Nat.lt_of_succ_lt_succ hfuel)]
      rfl
  have hlength := length_le_flatMap_stringChar s.toList
  unfold string
  rw [htail]
  · show Except.ok (String.ofList s.toList, rest) = _
    rw [String.ofList_toList]
  · rw [List.length_append]
    omega

/-! ### Numbers -/

/-- What follows a number does not continue it. -/
def EndsNumber (rest : List Char) : Prop :=
  ∀ c ∈ rest.head?, isAsciiDigit c = false ∧ c ≠ '.' ∧ c ≠ 'e' ∧ c ≠ 'E'

section

variable {ds rest : List Char}

theorem span_append (hds : ∀ c ∈ ds, c.isDigit = true)
    (hrest : ∀ c ∈ rest.head?, isAsciiDigit c = false) :
    (ds ++ rest).span isAsciiDigit = (ds, rest) := by
  have hnone : rest.takeWhile isAsciiDigit = [] ∧ rest.dropWhile isAsciiDigit = rest := by
    cases rest with
    | nil => exact ⟨rfl, rfl⟩
    | cons c rest =>
      have hc : ¬isAsciiDigit c = true := Bool.eq_false_iff.1 (hrest c rfl)
      exact ⟨List.takeWhile_cons_of_neg hc, List.dropWhile_cons_of_neg hc⟩
  rw [List.span_eq_takeWhile_dropWhile, List.takeWhile_append_of_pos (p := isAsciiDigit) hds,
    List.dropWhile_append_of_pos (p := isAsciiDigit) hds, hnone.1, hnone.2, List.append_nil]

/-- Digits before the point are read up to what follows them. -/
theorem wholeDigits?_append (hds : ∀ c ∈ ds, c.isDigit = true) (hne : ds ≠ [])
    (hzero : ds.head? = some '0' → ds = ['0'])
    (hrest : ∀ c ∈ rest.head?, isAsciiDigit c = false) :
    wholeDigits? (ds ++ rest) = some (ds, rest) := by
  obtain ⟨d, ds, rfl⟩ := List.exists_cons_of_ne_nil hne
  by_cases hd : d = '0'
  · subst hd
    rw [hzero rfl]
    rfl
  · have hdigit : isAsciiDigit d = true := hds d List.mem_cons_self
    have hspan := span_append hds hrest
    rw [List.cons_append] at hspan ⊢
    rw [wholeDigits?]
    · rw [if_pos hdigit, hspan]
    · exact hd

theorem fractionDigits_append (hds : ∀ c ∈ ds, c.isDigit = true) (hne : ds ≠ [])
    (hrest : ∀ c ∈ rest.head?, isAsciiDigit c = false) :
    fractionDigits ('.' :: (ds ++ rest)) = (ds, rest) := by
  obtain ⟨d, ds, rfl⟩ := List.exists_cons_of_ne_nil hne
  have hdigit : isAsciiDigit d = true := hds d List.mem_cons_self
  have hspan := span_append hds hrest
  rw [List.cons_append] at hspan ⊢
  rw [fractionDigits, if_pos hdigit, hspan]

theorem fractionDigits_eq_nil (h : ∀ c ∈ rest.head?, c ≠ '.') :
    fractionDigits rest = ([], rest) := by
  cases rest with
  | nil => rfl
  | cons c rest =>
    unfold fractionDigits
    split
    · next heq => exact absurd (List.cons.inj heq).1 (h c rfl)
    · rfl

theorem exponent?_eq_none (h : ∀ c ∈ rest.head?, c ≠ 'e' ∧ c ≠ 'E') : exponent? rest = none := by
  cases rest with
  | nil => rfl
  | cons c rest =>
    have hc : ¬(c == 'e' || c == 'E') = true := by simpa using h c rfl
    unfold exponent?
    dsimp only
    rw [if_neg hc]

theorem digitsValue_eq (cs : List Char) : digitsValue cs = Nat.ofDigitChars 10 cs 0 := rfl

/-- An exponent has a sign and digits. -/
theorem exists_exponentText_eq (e : ℤ) : ∃ ds : List Char, (∀ c ∈ ds, c.isDigit = true) ∧
    ds ≠ [] ∧ digitsValue ds = e.natAbs ∧
    Decimal.exponentText e = (if e < 0 then '-' else '+') :: ds := by
  have hdigits : ∀ c ∈ Nat.toDigits 10 e.natAbs, c.isDigit = true := fun c hc =>
    Nat.isDigit_of_mem_toDigits (by decide) (by decide) hc
  have hvalue : Nat.ofDigitChars 10 (Nat.toDigits 10 e.natAbs) 0 = e.natAbs :=
    Nat.ofDigitChars_ten_toDigits
  by_cases hshort : (Nat.toDigits 10 e.natAbs).length < 2
  · refine ⟨'0' :: Nat.toDigits 10 e.natAbs, List.forall_mem_cons.2 ⟨by decide, hdigits⟩,
      List.cons_ne_nil _ _, hvalue, ?_⟩
    rw [Decimal.exponentText, Nat.toList_repr, if_pos hshort]
  · refine ⟨Nat.toDigits 10 e.natAbs, hdigits, Nat.toDigits_ne_nil, hvalue, ?_⟩
    rw [Decimal.exponentText, Nat.toList_repr, if_neg hshort]

/-- An exponent is read by its sign and digits. -/
theorem exponent?_sign {digits : List Char} {d : Char} (negative : Bool)
    (h : digits.span isAsciiDigit = (d :: ds, rest)) :
    exponent? ('e' :: (if negative then '-' else '+') :: digits) =
      some (if negative then -(digitsValue (d :: ds) : ℤ) else digitsValue (d :: ds), rest) := by
  unfold exponent?
  dsimp only
  rw [if_pos (by decide)]
  cases negative with
  | true => simp only [if_true, h]
  | false => simp only [Bool.false_eq_true, if_false, h]

/-- An exponent is read back. -/
theorem exponent?_exponentText (e : ℤ) (hrest : ∀ c ∈ rest.head?, isAsciiDigit c = false) :
    exponent? ('e' :: (Decimal.exponentText e ++ rest)) = some (e, rest) := by
  obtain ⟨ds, hds, hne, hvalue, htext⟩ := exists_exponentText_eq e
  obtain ⟨d, ds, rfl⟩ := List.exists_cons_of_ne_nil hne
  have hread := exponent?_sign (decide (e < 0)) (span_append hds hrest)
  simp only [decide_eq_true_eq] at hread
  rw [htext, List.cons_append, hread, hvalue]
  congr 2
  split <;> omega

/-- The parts of a number: its sign, its digits and its exponent. -/
theorem number?_eq {cs whole fraction before after : List Char} (negative : Bool)
    (hwhole : wholeDigits? cs = some (whole, before))
    (hfraction : fractionDigits before = (fraction, after)) :
    number? ((if negative then ['-'] else []) ++ cs) =
      match exponent? after with
      | some (e, after) => some (.float (Decimal.ofDecimal negative (digitsValue (whole ++ fraction))
          (e - fraction.length)), after)
      | none =>
        if fraction.isEmpty then
          some (.int (if negative then -(digitsValue whole : ℤ) else digitsValue whole), after)
        else some (.float (Decimal.ofDecimal negative (digitsValue (whole ++ fraction))
          (0 - fraction.length)), after) := by
  unfold number?
  split
  next negative' ds hsign =>
  obtain ⟨rfl, rfl⟩ : negative' = negative ∧ ds = cs := by
    cases negative with
    | true =>
      cases hsign
      exact ⟨rfl, rfl⟩
    | false =>
      split at hsign
      · next heq =>
        simp only [Bool.false_eq_true, if_false, List.nil_append] at heq
        rw [heq] at hwhole
        cases hwhole
      · cases hsign
        exact ⟨rfl, rfl⟩
  rw [hwhole]
  dsimp only [Option.bind_eq_bind, Option.bind_some]
  rw [hfraction]
  dsimp only
  cases exponent? after with
  | some r => rfl
  | none =>
    dsimp only
    split <;> rfl

/-- Digits with a point between them are read back. -/
theorem number?_point {whole fraction : List Char} (negative : Bool)
    (hwhole : ∀ c ∈ whole, c.isDigit = true) (hne : whole ≠ [])
    (hzero : whole.head? = some '0' → whole = ['0'])
    (hfraction : ∀ c ∈ fraction, c.isDigit = true) (hne' : fraction ≠ []) (hrest : EndsNumber rest) :
    number? ((if negative then ['-'] else []) ++ (whole ++ '.' :: (fraction ++ rest))) =
      some (.float (Decimal.ofDecimal negative (digitsValue (whole ++ fraction))
        (0 - fraction.length)), rest) := by
  have hpoint : ∀ c ∈ ('.' :: (fraction ++ rest)).head?, isAsciiDigit c = false := by
    rintro _ ⟨⟩
    rfl
  rw [number?_eq negative (wholeDigits?_append hwhole hne hzero hpoint)
      (fractionDigits_append hfraction hne' fun c hc => (hrest c hc).1),
    exponent?_eq_none fun c hc => (hrest c hc).2.2]
  dsimp only
  rw [if_neg (by simpa using hne')]

/-- A digit with an exponent, and others behind a point if there are any, are read back. -/
theorem number?_exponent {d : Char} {tail : List Char} (negative : Bool)
    (hd : d.isDigit = true) (htail : ∀ c ∈ tail, c.isDigit = true) (e : ℤ) (hrest : EndsNumber rest) :
    number? ((if negative then ['-'] else []) ++ ([d] ++ ((if !tail.isEmpty then '.' :: tail else []) ++
        'e' :: (Decimal.exponentText e ++ rest)))) =
      some (.float (Decimal.ofDecimal negative (digitsValue (d :: tail)) (e - tail.length)), rest) := by
  have hwhole : ∀ c ∈ [d], c.isDigit = true := List.forall_mem_singleton.2 hd
  have hexponent := exponent?_exponentText e fun c hc => (hrest c hc).1
  have hletter : ∀ c ∈ ('e' :: (Decimal.exponentText e ++ rest)).head?,
      isAsciiDigit c = false ∧ c ≠ '.' := by
    rintro _ ⟨⟩
    decide
  cases tail with
  | nil =>
    have hread := number?_eq negative
      (wholeDigits?_append hwhole (List.cons_ne_nil _ _) (by simp) fun c hc => (hletter c hc).1)
      (fractionDigits_eq_nil fun c hc => (hletter c hc).2)
    rw [hexponent] at hread
    exact hread
  | cons t tail =>
    have hpoint : ∀ c ∈ ('.' :: (t :: tail ++ 'e' :: (Decimal.exponentText e ++ rest))).head?,
        isAsciiDigit c = false := by
      rintro _ ⟨⟩
      rfl
    have hread := number?_eq negative
      (wholeDigits?_append hwhole (List.cons_ne_nil _ _) (by simp) hpoint)
      (fractionDigits_append htail (List.cons_ne_nil _ _) fun c hc => (hletter c hc).1)
    rw [hexponent] at hread
    exact hread

end

theorem isDigit_of_mem_replicate {n : ℕ} {c : Char} (h : c ∈ List.replicate n '0') :
    c.isDigit = true := by
  rw [List.eq_of_mem_replicate h]
  decide

/-- A text without sign is read as a decimal with the value of some digits. -/
def ReadsAs (cs : List Char) (r : Digits) : Prop :=
  ∀ (negative : Bool) {rest : List Char}, EndsNumber rest →
    ∃ (digits : ℕ) (exponent : ℤ), (digits : ℚ) * 10 ^ exponent = r.value ∧
      number? ((if negative then ['-'] else []) ++ (cs ++ rest)) =
        some (.float (Decimal.ofDecimal negative digits exponent), rest)

section

variable {r : Digits}

/-- Zeros stand between the point and the digits. -/
theorem readsAs_zeros (hr : r.IsNumeral) (hpoint : r.point ≤ 0) :
    ReadsAs ('0' :: '.' :: (List.replicate (-r.point).toNat '0' ++ r.digits)) r := by
  intro negative rest hrest
  have hwhole : ∀ c ∈ ['0'], c.isDigit = true := List.forall_mem_singleton.2 (by decide)
  have hfraction : ∀ c ∈ List.replicate (-r.point).toNat '0' ++ r.digits, c.isDigit = true :=
    List.forall_mem_append.2 ⟨fun _ => isDigit_of_mem_replicate, hr.isDigit⟩
  have hread := number?_point negative hwhole (List.cons_ne_nil _ _) (fun _ => rfl) hfraction
    (by simp [hr.ne_nil]) hrest
  have hvalue : digitsValue (['0'] ++ (List.replicate (-r.point).toNat '0' ++ r.digits)) =
      10 ^ 0 * Nat.ofDigitChars 10 r.digits 0 := by
    rw [digitsValue_eq, Nat.ofDigitChars_append, Nat.ofDigitChars_append,
      Nat.ofDigitChars_replicate_zero, pow_zero, Nat.one_mul]
    rfl
  rw [hvalue] at hread
  refine ⟨_, _, Digits.mul_pow_eq_value ?_, hread⟩
  rw [List.length_append, List.length_replicate]
  omega

/-- The point stands between the digits. -/
theorem readsAs_between (hr : r.IsNumeral) {n : ℕ} (hpoint : r.point = n) (hpos : 0 < n)
    (hlong : n < r.digits.length) : ReadsAs (r.digits.take n ++ '.' :: r.digits.drop n) r := by
  intro negative rest hrest
  have hfirst : (r.digits.take n).head? = some '0' → r.digits.take n = ['0'] := by
    rw [List.head?_take, if_neg hpos.ne']
    intro hhead
    rw [hr.eq_zero hhead] at hlong
    exact absurd hlong (Nat.not_lt.2 hpos)
  have hwhole : ∀ c ∈ r.digits.take n, c.isDigit = true := fun c hc =>
    hr.isDigit c (List.mem_of_mem_take hc)
  have hfraction : ∀ c ∈ r.digits.drop n, c.isDigit = true := fun c hc =>
    hr.isDigit c (List.mem_of_mem_drop hc)
  have hread := number?_point negative hwhole (by simp [hr.ne_nil, hpos.ne']) hfirst hfraction
    (by simpa using hlong) hrest
  have hvalue : digitsValue (r.digits.take n ++ r.digits.drop n) =
      10 ^ 0 * Nat.ofDigitChars 10 r.digits 0 := by
    rw [List.take_append_drop, digitsValue_eq, pow_zero, Nat.one_mul]
  rw [hvalue] at hread
  rw [List.append_assoc]
  refine ⟨_, _, Digits.mul_pow_eq_value ?_, hread⟩
  rw [List.length_drop]
  omega

/-- Zeros are filled in before the point. -/
theorem readsAs_filled (hr : r.IsNumeral) {n : ℕ} (hpoint : r.point = r.digits.length + n) :
    ReadsAs (r.digits ++ List.replicate n '0' ++ ['.', '0']) r := by
  intro negative rest hrest
  have hfirst : (r.digits ++ List.replicate n '0').head? = some '0' →
      r.digits ++ List.replicate n '0' = ['0'] := by
    rw [List.head?_append_of_ne_nil _ hr.ne_nil]
    intro hhead
    rw [hr.eq_zero hhead] at hpoint ⊢
    obtain rfl : n = 0 := by simpa using hpoint.symm
    rfl
  have hwhole : ∀ c ∈ r.digits ++ List.replicate n '0', c.isDigit = true :=
    List.forall_mem_append.2 ⟨hr.isDigit, fun _ => isDigit_of_mem_replicate⟩
  have hfraction : ∀ c ∈ ['0'], c.isDigit = true := List.forall_mem_singleton.2 (by decide)
  have hread := number?_point negative hwhole (by simp [hr.ne_nil]) hfirst hfraction
    (List.cons_ne_nil _ _) hrest
  have hvalue : digitsValue (r.digits ++ List.replicate n '0' ++ ['0']) =
      10 ^ (n + 1) * Nat.ofDigitChars 10 r.digits 0 := by
    rw [List.append_assoc, ← List.replicate_succ', digitsValue_eq, Nat.ofDigitChars_append,
      Nat.ofDigitChars_replicate_zero]
  rw [hvalue] at hread
  rw [List.append_assoc]
  refine ⟨_, _, Digits.mul_pow_eq_value ?_, hread⟩
  rw [List.length_singleton]
  omega

/-- The first digit stands before the point, and the exponent makes up for it. -/
theorem readsAs_exponent (hr : r.IsNumeral) :
    ReadsAs (r.digits.take 1 ++ (if !(r.digits.drop 1).isEmpty then '.' :: r.digits.drop 1 else []) ++
      'e' :: Decimal.exponentText (r.point - 1)) r := by
  intro negative rest hrest
  obtain ⟨d, tail, htext⟩ := List.exists_cons_of_ne_nil hr.ne_nil
  have hdigits := hr.isDigit
  rw [htext] at hdigits ⊢
  have hread := number?_exponent negative (hdigits d List.mem_cons_self)
    (fun c hc => hdigits c (List.mem_cons_of_mem d hc)) (r.point - 1) hrest
  have hvalue : digitsValue (d :: tail) = 10 ^ 0 * Nat.ofDigitChars 10 r.digits 0 := by
    rw [htext, digitsValue_eq, pow_zero, Nat.one_mul]
  rw [hvalue] at hread
  rw [List.append_assoc, List.append_assoc]
  refine ⟨_, _, Digits.mul_pow_eq_value ?_, hread⟩
  rw [htext, List.length_cons]
  omega

/-- Digits in their places are read back as a decimal of the same value. -/
theorem readsAs_place (hr : r.IsNumeral) : ReadsAs (numberLayout.place r) r := by
  unfold Decimal.Layout.place
  split
  · split
    · next hpoint => exact readsAs_zeros hr hpoint
    · next hpoint =>
      obtain ⟨n, hn⟩ := Int.eq_ofNat_of_zero_le (le_of_not_ge hpoint)
      rw [hn] at hpoint ⊢
      dsimp only [Int.toNat_natCast]
      by_cases hlong : n < r.digits.length
      · have hread := readsAs_between hr hn (by omega) hlong
        have hdrop : ¬(r.digits.drop n).isEmpty = true := by simpa using hlong
        rwa [List.length_take_of_le hlong.le, Nat.sub_self, List.replicate_zero, List.append_nil,
          if_neg hdrop]
      · have hread := readsAs_filled hr (n := n - r.digits.length) (by omega)
        have hdrop : r.digits.drop n = [] := List.drop_of_length_le (by omega)
        rwa [List.take_of_length_le (by omega), hdrop]
  · exact readsAs_exponent hr

end

/-- A finite number is read back. -/
theorem number?_write {x : Float} (h : (Decimal.dyadic? x).isSome = true) {rest : List Char}
    (hrest : EndsNumber rest) :
    number? (numberLayout.write x ++ rest) = some (.float x, rest) := by
  obtain ⟨d, hd⟩ := Option.isSome_iff_exists.1 h
  obtain ⟨digits, exponent, hvalue, hread⟩ :=
    readsAs_place (Decimal.isNumeral_shortest (Decimal.isBinary64_of_dyadic? hd)) d.negative hrest
  rw [Decimal.ofDecimal_eq hd hvalue] at hread
  rw [Decimal.Layout.write, hd]
  dsimp only
  rwa [List.append_assoc]

theorem toList_toString (n : ℤ) :
    (toString n).toList = (if n < 0 then ['-'] else []) ++ Nat.toDigits 10 n.natAbs := by
  cases n with
  | ofNat n => exact Nat.toList_repr
  | negSucc n =>
    rw [if_pos (Int.negSucc_lt_zero n)]
    show ("-" ++ Nat.repr (n + 1)).toList = _
    rw [String.toList_append, Nat.toList_repr]
    rfl

/-- An integer is read back. -/
theorem number?_toString (n : ℤ) {rest : List Char} (hrest : EndsNumber rest) :
    number? ((toString n).toList ++ rest) = some (.int n, rest) := by
  have hdigits : ∀ c ∈ Nat.toDigits 10 n.natAbs, c.isDigit = true := fun c hc =>
    Nat.isDigit_of_mem_toDigits (by decide) (by decide) hc
  have hzero : (Nat.toDigits 10 n.natAbs).head? = some '0' → Nat.toDigits 10 n.natAbs = ['0'] := by
    intro hhead
    rw [not_not.1 (mt Decimal.head?_toDigits_ne (not_not.2 hhead))]
    rfl
  have hread := number?_eq (decide (n < 0))
    (wholeDigits?_append hdigits Nat.toDigits_ne_nil hzero fun c hc => (hrest c hc).1)
    (fractionDigits_eq_nil fun c hc => (hrest c hc).2.1)
  rw [exponent?_eq_none fun c hc => (hrest c hc).2.2] at hread
  simp only [decide_eq_true_eq, List.isEmpty_nil, if_true, digitsValue_eq,
    Nat.ofDigitChars_ten_toDigits] at hread
  rw [toList_toString, List.append_assoc, hread]
  congr 3
  split <;> omega

end ApiShell.Json
