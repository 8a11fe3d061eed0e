import ApiShell.Proofs.Json.RoundTrip
import ApiShell.Yaml.Token

/-!
# The layout of JSON texts

A JSON text is more than its value: it has gaps between its parts, and its strings and numbers can be
written in several ways.  A layout holds all of this.  It has a text and a value, and the reader reads
the text as the value (`read_text`).  The reader accepts nothing else: each text that it reads is the
text of a layout (`exists_layout_of_read`).

The pieces of a string stand for codes.  Two codes that are the halves of one character are put
together, and a half that stands alone is replaced (`Yaml.charsOfCodes`).
-/

namespace ApiShell.Json

/-! ### Strings -/

/-- A hexadecimal digit. -/
abbrev HexDigit := {c : Char // (hexValue? c).isSome = true}

/-- The value of a hexadecimal digit. -/
def HexDigit.value (d : HexDigit) : ℕ := (hexValue? d.1).get d.2

/-- A character between the quotes of a string, or an escape. -/
inductive Piece where
  | plain (c : Char) (hlow : 32 ≤ c.toNat) (hquote : c ≠ '"') (hslash : c ≠ '\\')
  | short (letter char : Char) (h : shortEscape? letter = some char)
  | code (a b c d : HexDigit)

/-- How a piece is written. -/
def Piece.text : Piece → List Char
  | plain c _ _ _ => [c]
  | short letter _ _ => ['\\', letter]
  | code a b c d => ['\\', 'u', a.1, b.1, c.1, d.1]

/-- The code that a piece stands for. -/
def Piece.unit : Piece → ℕ
  | plain c _ _ _ => c.toNat
  | short _ char _ => char.toNat
  | code a b c d => ((a.value * 16 + b.value) * 16 + c.value) * 16 + d.value

/-- How pieces are written between the quotes of a string. -/
def piecesText (ps : List Piece) : List Char := ps.flatMap Piece.text

/-- The codes that pieces stand for. -/
def units (ps : List Piece) : List ℕ := ps.map Piece.unit

/-- What a string of pieces says. -/
def stringOf (ps : List Piece) : String := String.ofList (Yaml.charsOfCodes (units ps))

@[simp] theorem piecesText_nil : piecesText [] = [] := rfl

@[simp] theorem piecesText_cons (p : Piece) (ps : List Piece) :
    piecesText (p :: ps) = p.text ++ piecesText ps := rfl

@[simp] theorem units_nil : units [] = [] := rfl

@[simp] theorem units_cons (p : Piece) (ps : List Piece) : units (p :: ps) = p.unit :: units ps := rfl

theorem HexDigit.hexValue?_eq (d : HexDigit) : hexValue? d.1 = some d.value :=
  (Option.some_get d.2).symm

theorem Piece.length_text_pos (p : Piece) : 0 < p.text.length := by
  cases p <;> exact Nat.succ_pos _

theorem length_le_piecesText (ps : List Piece) : ps.length ≤ (piecesText ps).length := by
  induction ps with
  | nil => exact Nat.le_refl _
  | cons p ps ih =>
    have hpos := p.length_text_pos
    rw [piecesText_cons, List.length_append, List.length_cons]
    omega

/-! ### Codes -/

theorem isHalf_toNat (c : Char) : isHighHalf c.toNat = false ∧ isLowHalf c.toNat = false := by
  have hvalid := c.valid
  simp only [isHighHalf, isLowHalf, Bool.and_eq_false_iff, decide_eq_false_iff_not]
  change c.toNat < 0xd800 ∨ 0xdfff < c.toNat ∧ c.toNat < 0x110000 at hvalid
  omega

/-- A character stands for itself. -/
theorem codeChar_toNat (c : Char) : codeChar c.toNat = c := by
  rw [codeChar, (isHalf_toNat c).1, (isHalf_toNat c).2]
  exact Char.ofNat_toNat c

/-- Only a code that is written out can be a half of a character. -/
theorem Piece.eq_code_of_isLowHalf {p : Piece} (h : isLowHalf p.unit = true) :
    ∃ a b c d, p = .code a b c d := by
  cases p with
  | plain c => exact absurd h (by rw [Piece.unit, (isHalf_toNat c).2]; decide)
  | short letter char => exact absurd h (by rw [Piece.unit, (isHalf_toNat char).2]; decide)
  | code a b c d => exact ⟨a, b, c, d, rfl⟩

theorem exists_code_of_isLowHalf {ps : List Piece} {n : ℕ} (hn : n ∈ (units ps).head?)
    (h : isLowHalf n = true) :
    ∃ a b c d ps', ps = .code a b c d :: ps' ∧ n = (Piece.code a b c d).unit := by
  cases ps with
  | nil => cases hn
  | cons p ps =>
    obtain rfl := Option.some.inj hn
    obtain ⟨a, b, c, d, rfl⟩ := Piece.eq_code_of_isLowHalf h
    exact ⟨a, b, c, d, ps, rfl, rfl⟩

/-- A code that is not put together with the next one. -/
theorem charsOfCodes_cons {n : ℕ} {ns : List ℕ}
    (h : isHighHalf n = true → ∀ m ∈ ns.head?, isLowHalf m = false) :
    Yaml.charsOfCodes (n :: ns) = codeChar n :: Yaml.charsOfCodes ns := by
  cases ns with
  | nil => rfl
  | cons m ns =>
    have hpair : ¬ (isHighHalf n && isLowHalf m) = true := by
      rintro hboth
      rw [Bool.and_eq_true] at hboth
      rw [h hboth.1 m rfl] at hboth
      exact absurd hboth.2 (by decide)
    rw [Yaml.charsOfCodes, if_neg hpair]

/-- The code of a character stands for the character, whatever follows. -/
theorem charsOfCodes_toNat_cons (c : Char) (ns : List ℕ) :
    Yaml.charsOfCodes (c.toNat :: ns) = c :: Yaml.charsOfCodes ns := by
  have halone : isHighHalf c.toNat = true → ∀ m ∈ ns.head?, isLowHalf m = false := by
    intro hhigh
    rw [(isHalf_toNat c).1] at hhigh
    cases hhigh
  rw [charsOfCodes_cons halone, codeChar_toNat]

theorem charsOfCodes_pair {n m : ℕ} (hn : isHighHalf n = true) (hm : isLowHalf m = true)
    (ns : List ℕ) : Yaml.charsOfCodes (n :: m :: ns) =
      Char.ofNat (0x10000 + (n - 0xD800) * 0x400 + (m - 0xDC00)) :: Yaml.charsOfCodes ns := by
  rw [Yaml.charsOfCodes, hn, hm]
  rfl

/-! ### Reading strings -/

theorem hex4?_code (a b c d : HexDigit) (e : Char) (cs : List Char) :
    hex4? (a.1 :: b.1 :: c.1 :: d.1 :: e :: cs) = some ((Piece.code a b c d).unit, e :: cs) := by
  simp only [hex4?, HexDigit.hexValue?_eq, Option.bind_eq_bind, Option.bind_some]
  rfl

theorem of_hex4? {cs rest : List Char} {n : ℕ} (h : hex4? cs = some (n, rest)) :
    ∃ a b c d : HexDigit, cs = a.1 :: b.1 :: c.1 :: d.1 :: rest ∧ n = (Piece.code a b c d).unit ∧
      rest ≠ [] := by
  unfold hex4? at h
  split at h
  · next a b c d e cs =>
    obtain ⟨x, hx, h⟩ := Option.bind_eq_some_iff.1 h
    obtain ⟨y, hy, h⟩ := Option.bind_eq_some_iff.1 h
    obtain ⟨z, hz, h⟩ := Option.bind_eq_some_iff.1 h
    obtain ⟨w, hw, h⟩ := Option.bind_eq_some_iff.1 h
    obtain ⟨rfl, rfl⟩ := Prod.mk.inj (Option.some.inj h)
    refine ⟨⟨a, by rw [hx]; rfl⟩, ⟨b, by rw [hy]; rfl⟩, ⟨c, by rw [hz]; rfl⟩, ⟨d, by rw [hw]; rfl⟩,
      rfl, ?_, List.cons_ne_nil _ _⟩
    simp only [Piece.unit, HexDigit.value, hx, hy, hz, hw, Option.get_some]
  · cases h

section

variable {rest : List Char}

/-- What can follow a piece in a string. -/
theorem exists_cons_piecesText (ps : List Piece) (rest : List Char) :
    ∃ e cs, piecesText ps ++ '"' :: rest = e :: cs := by
  cases h : piecesText ps with
  | nil => exact ⟨_, _, rfl⟩
  | cons e cs => exact ⟨e, _, rfl⟩

/-- A code that is not the first half of a character, or behind which no second half is written, is
read alone. -/
theorem unicodeEscape_alone (a b c d : HexDigit) (ps : List Piece)
    (h : isHighHalf (Piece.code a b c d).unit = true → ∀ m ∈ (units ps).head?, isLowHalf m = false) :
    unicodeEscape (a.1 :: b.1 :: c.1 :: d.1 :: (piecesText ps ++ '"' :: rest)) =
      .ok (codeChar (Piece.code a b c d).unit, piecesText ps ++ '"' :: rest) := by
  obtain ⟨e, cs, hcs⟩ := exists_cons_piecesText ps rest
  unfold unicodeEscape
  rw [hcs, hex4?_code, ← hcs]
  dsimp only
  split
  · next after hhigh hafter =>
    have hlow := h hhigh
    cases ps with
    | nil => cases hafter
    | cons p ps =>
      rw [piecesText_cons] at hafter
      cases p with
      | plain char _ _ hslash => exact absurd (List.cons.inj hafter).1 hslash
      | short letter char hletter =>
        obtain rfl := (List.cons.inj (List.cons.inj hafter).2).1
        cases hletter
      | code a' b' c' d' =>
        obtain ⟨e', cs', hcs'⟩ := exists_cons_piecesText ps rest
        have hcode : after = a'.1 :: b'.1 :: c'.1 :: d'.1 :: e' :: cs' := by
          rw [← hcs']
          exact (List.cons.inj (List.cons.inj hafter).2).2.symm
        rw [hcode, if_neg (by simp), hex4?_code]
        dsimp only
        rw [hlow _ rfl]
        rfl
  · rfl

/-- The two halves of a character are read as the character. -/
theorem unicodeEscape_pair {a b c d a' b' c' d' : HexDigit}
    (hhigh : isHighHalf (Piece.code a b c d).unit = true)
    (hlow : isLowHalf (Piece.code a' b' c' d').unit = true) (ps : List Piece) :
    unicodeEscape (a.1 :: b.1 :: c.1 :: d.1 ::
        (piecesText (.code a' b' c' d' :: ps) ++ '"' :: rest)) =
      .ok (Char.ofNat (0x10000 + ((Piece.code a b c d).unit - 0xD800) * 0x400 +
        ((Piece.code a' b' c' d').unit - 0xDC00)), piecesText ps ++ '"' :: rest) := by
  obtain ⟨e, cs, hcs⟩ := exists_cons_piecesText ps rest
  have hlong : ¬ (a'.1 :: b'.1 :: c'.1 :: d'.1 :: e :: cs).length < 5 := by simp
  rw [piecesText_cons, List.append_assoc, hcs]
  unfold unicodeEscape
  simp only [Piece.text, List.cons_append, List.nil_append]
  rw [hex4?_code]
  dsimp only
  rw [hhigh]
  show (if (a'.1 :: b'.1 :: c'.1 :: d'.1 :: e :: cs).length < 5 then _ else _) = _
  rw [if_neg hlong, hex4?_code]
  dsimp only
  rw [hlow]
  rfl

theorem stringTail_plain {c : Char} (hlow : 32 ≤ c.toNat) (hquote : c ≠ '"') (hslash : c ≠ '\\')
    {opening fuel : ℕ} {cs chars : List Char} (h : stringTail opening fuel cs = .ok (chars, rest)) :
    stringTail opening (fuel + 1) (c :: cs) = .ok (c :: chars, rest) := by
  show (if c == '"' then _ else _) = _
  rw [if_neg (by simpa using hquote), if_neg (by simpa using hslash), if_neg (Nat.not_lt.2 hlow), h]
  rfl

theorem stringTail_short {letter char : Char} (hletter : shortEscape? letter = some char)
    {opening fuel : ℕ} {cs chars : List Char} (h : stringTail opening fuel cs = .ok (chars, rest)) :
    stringTail opening (fuel + 1) ('\\' :: letter :: cs) = .ok (char :: chars, rest) := by
  have hnotCode : letter ≠ 'u' := by
    rintro rfl
    cases hletter
  rw [stringTail.eq_def]
  dsimp only
  rw [if_neg (by decide), if_pos (by decide)]
  split
  · next heq => cases heq
  · next heq => exact absurd (List.cons.inj heq).1 hnotCode
  · next heq =>
    obtain ⟨rfl, rfl⟩ := List.cons.inj heq
    rw [hletter]
    dsimp only
    rw [h]
    rfl

theorem stringTail_code {opening fuel : ℕ} {cs after chars : List Char} {char : Char}
    (hescape : unicodeEscape cs = .ok (char, after))
    (h : stringTail opening fuel after = .ok (chars, rest)) :
    stringTail opening (fuel + 1) ('\\' :: 'u' :: cs) = .ok (char :: chars, rest) := by
  rw [stringTail, if_neg (by decide), if_pos (by decide)]
  dsimp only
  rw [hescape]
  show (stringTail opening fuel after >>= _) = _
  rw [h]
  rfl

/-- Pieces are read as what they say. -/
theorem stringTail_pieces (opening : ℕ) : ∀ (ps : List Piece) {fuel : ℕ}, ps.length < fuel →
    stringTail opening fuel (piecesText ps ++ '"' :: rest) =
      .ok (Yaml.charsOfCodes (units ps), rest)
  | [], fuel, hfuel => by
    obtain ⟨fuel, rfl⟩ := Nat.exists_eq_succ_of_ne_zero (Nat.ne_of_gt hfuel)
    rfl
  | .plain c hlow hquote hslash :: ps, fuel, hfuel => by
    obtain ⟨fuel, rfl⟩ := Nat.exists_eq_succ_of_ne_zero (Nat.ne_of_gt (Nat.zero_lt_of_lt hfuel))
    have hread := stringTail_pieces opening ps (Nat.lt_of_succ_lt_succ hfuel)
    rw [units_cons, Piece.unit, charsOfCodes_toNat_cons]
    exact stringTail_plain hlow hquote hslash hread
  | .short letter char hletter :: ps, fuel, hfuel => by
    obtain ⟨fuel, rfl⟩ := Nat.exists_eq_succ_of_ne_zero (Nat.ne_of_gt (Nat.zero_lt_of_lt hfuel))
    have hread := stringTail_pieces opening ps (Nat.lt_of_succ_lt_succ hfuel)
    rw [units_cons, Piece.unit, charsOfCodes_toNat_cons]
    exact stringTail_short hletter hread
  | [.code a b c d], fuel, hfuel => by
    obtain ⟨fuel, rfl⟩ := Nat.exists_eq_succ_of_ne_zero (Nat.ne_of_gt (Nat.zero_lt_of_lt hfuel))
    have hread := stringTail_pieces opening [] (Nat.lt_of_succ_lt_succ hfuel)
    exact stringTail_code (unicodeEscape_alone a b c d [] fun _ _ hm => nomatch hm) hread
  | .code a b c d :: p :: ps, fuel, hfuel => by
    obtain ⟨fuel, rfl⟩ := Nat.exists_eq_succ_of_ne_zero (Nat.ne_of_gt (Nat.zero_lt_of_lt hfuel))
    rw [List.length_cons, List.length_cons] at hfuel
    by_cases hpair : isHighHalf (Piece.code a b c d).unit = true ∧ isLowHalf p.unit = true
    · obtain ⟨hhigh, hlow⟩ := hpair
      obtain ⟨a', b', c', d', rfl⟩ := Piece.eq_code_of_isLowHalf hlow
      have hread := stringTail_pieces opening ps (show ps.length < fuel by omega)
      rw [units_cons, units_cons, charsOfCodes_pair hhigh hlow]
      exact stringTail_code (unicodeEscape_pair hhigh hlow ps) hread
    · have halone : isHighHalf (Piece.code a b c d).unit = true →
          ∀ m ∈ (units (p :: ps)).head?, isLowHalf m = false := by
        rintro hhigh m ⟨⟩
        exact Bool.eq_false_iff.2 fun hlow => hpair ⟨hhigh, hlow⟩
      have hread := stringTail_pieces opening (p :: ps)
        (show (p :: ps).length < fuel by rw [List.length_cons]; omega)
      rw [units_cons, charsOfCodes_cons halone]
      exact stringTail_code (unicodeEscape_alone a b c d (p :: ps) halone) hread

theorem string_pieces (ps : List Piece) (rest : List Char) :
    string (piecesText ps ++ '"' :: rest) = .ok (stringOf ps, rest) := by
  have hfuel : ps.length < (piecesText ps ++ '"' :: rest).length + 1 := by
    have hle := length_le_piecesText ps
    rw [List.length_append]
    omega
  rw [string, stringTail_pieces _ ps hfuel]
  rfl

/-- What is read as a code in front of pieces is a piece more, or two that are read as one character. -/
theorem of_unicodeEscape {cs : List Char} {char : Char} {ps : List Piece}
    (h : unicodeEscape cs = .ok (char, piecesText ps ++ '"' :: rest)) :
    ∃ qs, '\\' :: 'u' :: cs = piecesText qs ++ '"' :: rest ∧
      char :: Yaml.charsOfCodes (units ps) = Yaml.charsOfCodes (units qs) := by
  unfold unicodeEscape at h
  split at h
  · cases h
  next n after hcode =>
  obtain ⟨a, b, c, d, rfl, rfl, -⟩ := of_hex4? hcode
  -- A code that is read alone is a piece of its own.
  have halone (hread : Except.ok (codeChar (Piece.code a b c d).unit, after) =
        (.ok (char, piecesText ps ++ '"' :: rest) : Except Failure (Rest Char)))
      (hlow : isHighHalf (Piece.code a b c d).unit = true → ∀ m ∈ (units ps).head?, isLowHalf m = false) :
      ∃ qs, '\\' :: 'u' :: a.1 :: b.1 :: c.1 :: d.1 :: after = piecesText qs ++ '"' :: rest ∧
        char :: Yaml.charsOfCodes (units ps) = Yaml.charsOfCodes (units qs) := by
    obtain ⟨rfl, rfl⟩ := Prod.mk.inj (Except.ok.inj hread)
    exact ⟨.code a b c d :: ps, rfl, (charsOfCodes_cons hlow).symm⟩
  split at h
  · next after hhigh =>
    split at h
    · next hshort =>
      refine halone h fun _ k hk => Bool.eq_false_iff.2 fun hlow => ?_
      obtain ⟨a', b', c', d', ps', rfl, -⟩ := exists_code_of_isLowHalf hk hlow
      obtain ⟨-, htext⟩ := Prod.mk.inj (Except.ok.inj h)
      obtain rfl := (List.cons.inj (List.cons.inj htext).2).2
      simp at hshort
      omega
    · split at h
      · cases h
      next m rest' hcode' =>
      obtain ⟨a', b', c', d', rfl, rfl, -⟩ := of_hex4? hcode'
      split at h
      · next hlow =>
        obtain ⟨rfl, rfl⟩ := Prod.mk.inj (Except.ok.inj h)
        exact ⟨.code a b c d :: .code a' b' c' d' :: ps, rfl, (charsOfCodes_pair hhigh hlow _).symm⟩
      · next hnotLow =>
        refine halone h fun _ k hk => Bool.eq_false_iff.2 fun hlow => hnotLow ?_
        obtain ⟨a₂, b₂, c₂, d₂, ps', rfl, rfl⟩ := exists_code_of_isLowHalf hk hlow
        obtain ⟨-, htext⟩ := Prod.mk.inj (Except.ok.inj h)
        simp only [piecesText_cons, Piece.text, List.cons_append, List.nil_append, List.cons.injEq,
          Subtype.val_inj] at htext
        obtain ⟨-, -, rfl, rfl, rfl, rfl, -⟩ := htext
        exact hlow
  · next hother =>
    refine halone h fun hhigh k hk => Bool.eq_false_iff.2 fun hlow => ?_
    obtain ⟨a', b', c', d', ps', rfl, -⟩ := exists_code_of_isLowHalf hk hlow
    obtain ⟨-, htext⟩ := Prod.mk.inj (Except.ok.inj h)
    exact hother _ hhigh htext

/-- What is read as a string consists of pieces. -/
theorem of_stringTail {opening fuel : ℕ} {cs chars : List Char}
    (h : stringTail opening fuel cs = .ok (chars, rest)) :
    ∃ ps, cs = piecesText ps ++ '"' :: rest ∧ chars = Yaml.charsOfCodes (units ps) := by
  induction fuel generalizing cs chars with
  | zero => cases h
  | succ fuel ih =>
    cases cs with
    | nil => cases h
    | cons c cs =>
      rw [stringTail.eq_def] at h
      dsimp only at h
      split at h
      · next hquote =>
        obtain rfl := beq_iff_eq.1 hquote
        obtain ⟨rfl, rfl⟩ := Prod.mk.inj (Except.ok.inj h)
        exact ⟨[], rfl, rfl⟩
      next hquote =>
      split at h
      · next hslash =>
        obtain rfl := beq_iff_eq.1 hslash
        split at h
        · cases h
        · next cs =>
          obtain ⟨⟨char, after⟩, hescape, h⟩ := bind_eq_ok_iff.1 h
          obtain ⟨⟨more, after'⟩, htail, h⟩ := bind_eq_ok_iff.1 h
          obtain ⟨rfl, rfl⟩ := Prod.mk.inj (Except.ok.inj h)
          obtain ⟨ps, rfl, rfl⟩ := ih htail
          exact of_unicodeEscape hescape
        · next letter cs hu =>
          split at h
          · cases h
          · next char hletter =>
            obtain ⟨⟨more, after'⟩, htail, h⟩ := bind_eq_ok_iff.1 h
            obtain ⟨rfl, rfl⟩ := Prod.mk.inj (Except.ok.inj h)
            obtain ⟨ps, rfl, rfl⟩ := ih htail
            exact ⟨.short letter char hletter :: ps, rfl, (charsOfCodes_toNat_cons char _).symm⟩
      next hslash =>
      split at h
      · cases h
      · next hlow =>
        obtain ⟨⟨more, after'⟩, htail, h⟩ := bind_eq_ok_iff.1 h
        obtain ⟨rfl, rfl⟩ := Prod.mk.inj (Except.ok.inj h)
        obtain ⟨ps, rfl, rfl⟩ := ih htail
        exact ⟨.plain c (Nat.not_lt.1 hlow) (by simpa using hquote) (by simpa using hslash) :: ps, rfl,
          (charsOfCodes_toNat_cons c _).symm⟩

end

/-! ### Numbers -/

/-- The exponent of a number as it is written; the sign may be missing, and it is true for a minus. -/
structure Exponent where
  letter : Char
  sign : Option Bool
  digits : List Char
  letter_eq : letter = 'e' ∨ letter = 'E'
  isDigit : ∀ c ∈ digits, c.isDigit = true
  digits_ne_nil : digits ≠ []

/-- The sign in front of the digits. -/
def signText : Option Bool → List Char
  | none => []
  | some false => ['+']
  | some true => ['-']

def Exponent.text (e : Exponent) : List Char := e.letter :: (signText e.sign ++ e.digits)

def Exponent.value (e : Exponent) : ℤ :=
  if e.sign = some true then -(digitsValue e.digits : ℤ) else digitsValue e.digits

/-- A number as it is written: its sign, the digits before and behind the point, and its exponent. -/
structure Numeral where
  negative : Bool
  whole : List Char
  fraction : List Char
  exponent : Option Exponent
  isDigit_whole : ∀ c ∈ whole, c.isDigit = true
  whole_ne_nil : whole ≠ []
  whole_eq_zero : whole.head? = some '0' → whole = ['0']
  isDigit_fraction : ∀ c ∈ fraction, c.isDigit = true

namespace Numeral

/-- The digits behind the point, with the point if there are any. -/
def fractionText (n : Numeral) : List Char := if n.fraction.isEmpty then [] else '.' :: n.fraction

/-- The exponent, if there is one. -/
def exponentText (n : Numeral) : List Char := (n.exponent.map Exponent.text).getD []

def text (n : Numeral) : List Char :=
  (if n.negative then ['-'] else []) ++ (n.whole ++ (n.fractionText ++ n.exponentText))

/-- A number without a point and an exponent is an integer. -/
def value (n : Numeral) : Scalar :=
  match n.exponent with
  | some e => .float (Decimal.ofDecimal n.negative (digitsValue (n.whole ++ n.fraction))
      (e.value - n.fraction.length))
  | none =>
    if n.fraction.isEmpty then
      .int (if n.negative then -(digitsValue n.whole : ℤ) else digitsValue n.whole)
    else .float (Decimal.ofDecimal n.negative (digitsValue (n.whole ++ n.fraction))
      (0 - n.fraction.length))

end Numeral

section

variable {rest : List Char}

theorem exponent?_text (e : Exponent) (hrest : EndsNumber rest) :
    exponent? (e.text ++ rest) = some (e.value, rest) := by
  obtain ⟨letter, sign, digits, hletter, hdigits, hne⟩ := e
  obtain ⟨d, ds, rfl⟩ := List.exists_cons_of_ne_nil hne
  have hspan := span_append hdigits fun c hc => (hrest c hc).1
  have hd : d.isDigit = true := hdigits d List.mem_cons_self
  have hmark : (letter == 'e' || letter == 'E') = true := by
    rcases hletter with rfl | rfl <;> decide
  show exponent? (letter :: (signText sign ++ d :: ds ++ rest)) = _
  unfold exponent?
  dsimp only
  rw [if_pos hmark]
  cases sign with
  | none =>
    have hplain : d ≠ '-' ∧ d ≠ '+' := by
      constructor <;> rintro rfl <;> exact absurd hd (by decide)
    rw [List.cons_append] at hspan
    simp [signText, hplain.1, hplain.2, -List.span_eq_takeWhile_dropWhile, hspan, Exponent.value]
  | some negative =>
    cases negative with
    | false =>
      simp only [signText, List.cons_append, List.nil_append] at hspan ⊢
      rw [hspan]
      rfl
    | true =>
      simp only [signText, List.cons_append, List.nil_append] at hspan ⊢
      rw [hspan]
      rfl

theorem span_isAsciiDigit {cs ds : List Char} (h : cs.span isAsciiDigit = (ds, rest)) :
    cs = ds ++ rest ∧ ∀ c ∈ ds, c.isDigit = true := by
  rw [List.span_eq_takeWhile_dropWhile] at h
  obtain ⟨rfl, rfl⟩ := Prod.mk.inj h
  exact ⟨List.takeWhile_append_dropWhile.symm, fun c hc => List.mem_takeWhile_imp hc⟩

theorem of_exponent? {cs : List Char} {e : ℤ} (h : exponent? cs = some (e, rest)) :
    ∃ x : Exponent, cs = x.text ++ rest ∧ e = x.value := by
  unfold exponent? at h
  split at h
  · next letter cs =>
    split at h
    · next hmark =>
      have hletter : letter = 'e' ∨ letter = 'E' := by simpa using hmark
      split at h
      next negative digits hsign =>
      split at h
      · cases h
      · next ds after hne hspan =>
        obtain ⟨rfl, hdigits⟩ := span_isAsciiDigit hspan
        obtain ⟨rfl, rfl⟩ := Prod.mk.inj (Option.some.inj h)
        have hsome : ds ≠ [] := hne
        split at hsign
        · obtain ⟨rfl, rfl⟩ := Prod.mk.inj hsign
          exact ⟨⟨letter, some true, ds, hletter, hdigits, hsome⟩, rfl, rfl⟩
        · obtain ⟨rfl, rfl⟩ := Prod.mk.inj hsign
          exact ⟨⟨letter, some false, ds, hletter, hdigits, hsome⟩, rfl, rfl⟩
        · obtain ⟨rfl, rfl⟩ := Prod.mk.inj hsign
          exact ⟨⟨letter, none, ds, hletter, hdigits, hsome⟩, rfl, rfl⟩
    · cases h
  · cases h

theorem of_wholeDigits? {cs whole : List Char} (h : wholeDigits? cs = some (whole, rest)) :
    cs = whole ++ rest ∧ (∀ c ∈ whole, c.isDigit = true) ∧ whole ≠ [] ∧
      (whole.head? = some '0' → whole = ['0']) := by
  unfold wholeDigits? at h
  split at h
  · obtain ⟨rfl, rfl⟩ := Prod.mk.inj (Option.some.inj h)
    exact ⟨rfl, List.forall_mem_singleton.2 (by decide), List.cons_ne_nil _ _, fun _ => rfl⟩
  · next c cs hzero =>
    split at h
    · next hdigit =>
      have hspan := Option.some.inj h
      obtain ⟨heq, hdigits⟩ := span_isAsciiDigit hspan
      rw [List.span_eq_takeWhile_dropWhile, List.takeWhile_cons_of_pos hdigit] at hspan
      obtain ⟨rfl, -⟩ := Prod.mk.inj hspan
      refine ⟨heq, hdigits, List.cons_ne_nil _ _, fun hhead => ?_⟩
      exact absurd (Option.some.inj hhead) hzero
    · cases h
  · cases h

theorem of_fractionDigits {cs fraction : List Char} (h : fractionDigits cs = (fraction, rest)) :
    cs = (if fraction.isEmpty then [] else '.' :: fraction) ++ rest ∧
      ∀ c ∈ fraction, c.isDigit = true := by
  unfold fractionDigits at h
  split at h
  · next c cs =>
    split at h
    · next hdigit =>
      obtain ⟨heq, hdigits⟩ := span_isAsciiDigit h
      rw [List.span_eq_takeWhile_dropWhile, List.takeWhile_cons_of_pos hdigit] at h
      obtain ⟨rfl, -⟩ := Prod.mk.inj h
      exact ⟨congrArg ('.' :: ·) heq, hdigits⟩
    · obtain ⟨rfl, rfl⟩ := Prod.mk.inj h
      exact ⟨rfl, by simp⟩
  · obtain ⟨rfl, rfl⟩ := Prod.mk.inj h
    exact ⟨rfl, by simp⟩

theorem number?_text (n : Numeral) (hrest : EndsNumber rest) :
    number? (n.text ++ rest) = some (.scalar n.value, rest) := by
  have hexponent : ∀ c ∈ (n.exponentText ++ rest).head?, isAsciiDigit c = false ∧ c ≠ '.' := by
    intro c hc
    unfold Numeral.exponentText at hc
    cases he : n.exponent with
    | none =>
      rw [he] at hc
      exact ⟨(hrest c hc).1, (hrest c hc).2.1⟩
    | some e =>
      rw [he] at hc
      obtain rfl := Option.some.inj hc
      rcases e.letter_eq with h | h <;> rw [h] <;> decide
  have hfraction : fractionDigits (n.fractionText ++ (n.exponentText ++ rest)) =
      (n.fraction, n.exponentText ++ rest) := by
    unfold Numeral.fractionText
    split
    · next hempty =>
      rw [List.isEmpty_iff.1 hempty]
      exact fractionDigits_eq_nil fun c hc => (hexponent c hc).2
    · next hsome =>
      exact fractionDigits_append n.isDigit_fraction (by simpa using hsome)
        fun c hc => (hexponent c hc).1
  have hpoint : ∀ c ∈ (n.fractionText ++ (n.exponentText ++ rest)).head?, isAsciiDigit c = false := by
    intro c hc
    unfold Numeral.fractionText at hc
    split at hc
    · exact (hexponent c hc).1
    · obtain rfl := Option.some.inj hc
      rfl
  have hread := number?_eq n.negative
    (wholeDigits?_append n.isDigit_whole n.whole_ne_nil n.whole_eq_zero hpoint) hfraction
  rw [Numeral.text, List.append_assoc, List.append_assoc, List.append_assoc, hread, Numeral.value,
    Numeral.exponentText]
  cases n.exponent with
  | none =>
    rw [Option.map_none, Option.getD_none, List.nil_append,
      exponent?_eq_none fun c hc => (hrest c hc).2.2]
    dsimp only
    split <;> rfl
  | some e =>
    rw [Option.map_some, Option.getD_some, exponent?_text e hrest]

theorem of_number? {cs : List Char} {v : Value} (h : number? cs = some (v, rest)) :
    ∃ n : Numeral, cs = n.text ++ rest ∧ v = .scalar n.value := by
  unfold number? at h
  split at h
  next negative digits hsign =>
  obtain ⟨⟨whole, before⟩, hwhole, hparts⟩ := Option.bind_eq_some_iff.1 h
  clear h
  obtain ⟨rfl, hdigits, hne, hzero⟩ := of_wholeDigits? hwhole
  dsimp only at hparts
  cases hfraction : fractionDigits before with
  | mk fraction after =>
    rw [hfraction] at hparts
    obtain ⟨rfl, hdecimals⟩ := of_fractionDigits hfraction
    have hcs : cs = (if negative then ['-'] else []) ++ (whole ++
        ((if fraction.isEmpty then [] else '.' :: fraction) ++ after)) := by
      split at hsign <;> (obtain ⟨rfl, rfl⟩ := Prod.mk.inj hsign; rfl)
    dsimp only at hparts
    split at hparts
    · next e behind hexponent =>
      obtain ⟨x, rfl, rfl⟩ := of_exponent? hexponent
      obtain ⟨rfl, rfl⟩ := Prod.mk.inj (Option.some.inj hparts)
      refine ⟨⟨negative, whole, fraction, some x, hdigits, hne, hzero, hdecimals⟩, ?_, rfl⟩
      rw [hcs]
      simp [Numeral.text, Numeral.fractionText, Numeral.exponentText]
    · split at hparts
      · next hempty =>
        obtain ⟨rfl, rfl⟩ := Prod.mk.inj (Option.some.inj hparts)
        refine ⟨⟨negative, whole, fraction, none, hdigits, hne, hzero, hdecimals⟩, ?_, ?_⟩
        · rw [hcs]
          simp [Numeral.text, Numeral.fractionText, Numeral.exponentText]
        · rw [Numeral.value]
          dsimp only
          rw [if_pos hempty]
      · next hsome =>
        obtain ⟨rfl, rfl⟩ := Prod.mk.inj (Option.some.inj hparts)
        refine ⟨⟨negative, whole, fraction, none, hdigits, hne, hzero, hdecimals⟩, ?_, ?_⟩
        · rw [hcs]
          simp [Numeral.text, Numeral.fractionText, Numeral.exponentText]
        · rw [Numeral.value]
          dsimp only
          rw [if_neg hsome]

end

/-! ### Layouts -/

/-- The space between two tokens. -/
abbrev Gap := {cs : List Char // ∀ c ∈ cs, isSpace c = true}

/-- A key with the gaps before and behind it, up to its colon. -/
structure Key where
  before : Gap
  pieces : List Piece
  after : Gap

def Key.text (k : Key) : List Char :=
  k.before.1 ++ '"' :: (piecesText k.pieces ++ '"' :: (k.after.1 ++ [':']))

mutual

/-- A value as it is written. -/
inductive Layout where
  | word (w : String × Value) (h : w ∈ wordValues)
  | number (n : Numeral)
  | string (ps : List Piece)
  | emptyList (gap : Gap)
  | list (items : Items)
  | emptyMapping (gap : Gap)
  | mapping (members : Members)

/-- The items of a list as they are written, at least one, with the gaps before and behind each. -/
inductive Items where
  | last (before : Gap) (item : Layout) (after : Gap)
  | more (before : Gap) (item : Layout) (after : Gap) (items : Items)

/-- The members of a mapping as they are written, at least one. -/
inductive Members where
  | last (key : Key) (before : Gap) (v : Layout) (after : Gap)
  | more (key : Key) (before : Gap) (v : Layout) (after : Gap) (members : Members)

end

mutual

/-- The text of a value. -/
def Layout.text : Layout → List Char
  | .word w _ => w.1.toList
  | .number n => n.text
  | .string ps => '"' :: (piecesText ps ++ ['"'])
  | .emptyList gap => '[' :: (gap.1 ++ [']'])
  | .list items => '[' :: (items.text ++ [']'])
  | .emptyMapping gap => '{' :: (gap.1 ++ ['}'])
  | .mapping members => '{' :: (members.text ++ ['}'])

/-- The text of items. -/
def Items.text : Items → List Char
  | .last before item after => before.1 ++ (item.text ++ after.1)
  | .more before item after items => before.1 ++ (item.text ++ (after.1 ++ ',' :: items.text))

/-- The text of members. -/
def Members.text : Members → List Char
  | .last key before v after => key.text ++ (before.1 ++ (v.text ++ after.1))
  | .more key before v after members =>
    key.text ++ (before.1 ++ (v.text ++ (after.1 ++ ',' :: members.text)))

end

mutual

/-- The value that is written. -/
def Layout.value : Layout → Value
  | .word w _ => w.2
  | .number n => .scalar n.value
  | .string ps => .text (stringOf ps)
  | .emptyList _ => .list []
  | .list items => .list items.values
  | .emptyMapping _ => .mapping []
  | .mapping members => .mapping (Value.fieldsOf members.fields)

/-- The values of items. -/
def Items.values : Items → List Value
  | .last _ item _ => [item.value]
  | .more _ item _ items => item.value :: items.values

/-- The fields that members write, one for each. -/
def Members.fields : Members → List (Scalar × Value)
  | .last key _ v _ => [(.text (stringOf key.pieces), v.value)]
  | .more key _ v _ members => (.text (stringOf key.pieces), v.value) :: members.fields

end

/-- The keys of members, as they are read. -/
def Members.keys : Members → List String
  | .last key _ _ _ => [stringOf key.pieces]
  | .more key _ _ _ members => stringOf key.pieces :: members.keys

mutual

/-- No mapping repeats a key. -/
def Layout.HasDistinctKeys : Layout → Prop
  | .word _ _ | .number _ | .string _ | .emptyList _ | .emptyMapping _ => True
  | .list items => items.HaveDistinctKeys
  | .mapping members => members.keys.Nodup ∧ members.HaveDistinctKeys

/-- No mapping in items repeats a key. -/
def Items.HaveDistinctKeys : Items → Prop
  | .last _ item _ => item.HasDistinctKeys
  | .more _ item _ items => item.HasDistinctKeys ∧ items.HaveDistinctKeys

/-- No mapping in the values of members repeats a key. -/
def Members.HaveDistinctKeys : Members → Prop
  | .last _ _ v _ => v.HasDistinctKeys
  | .more _ _ v _ members => v.HasDistinctKeys ∧ members.HaveDistinctKeys

end

theorem Members.map_fst_fields : ∀ members : Members, members.fields.map Prod.fst = members.keys.map .text
  | .last _ _ _ _ => rfl
  | .more _ _ _ _ others => congrArg (_ :: ·) others.map_fst_fields

/-! ### Parts -/

/-- What a layout is made of, brackets and commas aside. -/
inductive Part where
  | gap (gap : Gap)
  | key (key : Key)
  | word (w : String × Value) (h : w ∈ wordValues)
  | number (n : Numeral)
  | string (ps : List Piece)

mutual

/-- The parts of a value, in their order. -/
def Layout.parts : Layout → List Part
  | .word w h => [.word w h]
  | .number n => [.number n]
  | .string ps => [.string ps]
  | .emptyList gap => [.gap gap]
  | .list items => items.parts
  | .emptyMapping gap => [.gap gap]
  | .mapping members => members.parts

/-- The parts of items. -/
def Items.parts : Items → List Part
  | .last before item after => .gap before :: (item.parts ++ [.gap after])
  | .more before item after items => .gap before :: (item.parts ++ .gap after :: items.parts)

/-- The parts of members. -/
def Members.parts : Members → List Part
  | .last key before v after => .key key :: .gap before :: (v.parts ++ [.gap after])
  | .more key before v after members =>
    .key key :: .gap before :: (v.parts ++ .gap after :: members.parts)

end

section

variable {P : Part → Prop} {key : Key} {before after : Gap} {t : Layout}

theorem forall_parts_lastItem : (∀ p ∈ (Items.last before t after).parts, P p) ↔
    P (.gap before) ∧ (∀ p ∈ t.parts, P p) ∧ P (.gap after) := by
  rw [Items.parts, List.forall_mem_cons, List.forall_mem_append, List.forall_mem_singleton]

theorem forall_parts_moreItem {items : Items} :
    (∀ p ∈ (Items.more before t after items).parts, P p) ↔
      P (.gap before) ∧ (∀ p ∈ t.parts, P p) ∧ P (.gap after) ∧ ∀ p ∈ items.parts, P p := by
  rw [Items.parts, List.forall_mem_cons, List.forall_mem_append, List.forall_mem_cons]

theorem forall_parts_lastMember : (∀ p ∈ (Members.last key before t after).parts, P p) ↔
    P (.key key) ∧ P (.gap before) ∧ (∀ p ∈ t.parts, P p) ∧ P (.gap after) := by
  rw [Members.parts, List.forall_mem_cons, List.forall_mem_cons, List.forall_mem_append,
    List.forall_mem_singleton]

theorem forall_parts_moreMember {members : Members} :
    (∀ p ∈ (Members.more key before t after members).parts, P p) ↔
      P (.key key) ∧ P (.gap before) ∧ (∀ p ∈ t.parts, P p) ∧ P (.gap after) ∧
        ∀ p ∈ members.parts, P p := by
  rw [Members.parts, List.forall_mem_cons, List.forall_mem_cons, List.forall_mem_append,
    List.forall_mem_cons]

end

/-! ### Layouts are read -/

section

variable {rest : List Char}

theorem endsNumber_gap (gap : Gap) {c : Char}
    (hc : isAsciiDigit c = false ∧ c ≠ '.' ∧ c ≠ 'e' ∧ c ≠ 'E') (rest : List Char) :
    EndsNumber (gap.1 ++ c :: rest) :=
  endsNumber_append gap.2 (endsNumber_cons hc rest)

theorem skipSpace_gap (gap : Gap) {c : Char} (hc : isSpace c = false) (rest : List Char) :
    skipSpace (gap.1 ++ c :: rest) = c :: rest := by
  rw [skipSpace_append gap.2, skipSpace_cons hc]

/-- Behind a gap a value is read from its first character on. -/
theorem Reads.skipSpace_eq {text : List Char} {v : Value} (h : Reads text v) (gap : Gap) :
    skipSpace (gap.1 ++ (text ++ rest)) = text ++ rest := by
  obtain ⟨c, hhead, hc, -⟩ := h.begins
  rw [skipSpace_append gap.2, skipSpace_of_head? (head?_append hhead rest) hc]

/-- A key is read from its opening quote on. -/
theorem Key.skipSpace_text (key : Key) (rest : List Char) :
    skipSpace (key.text ++ rest) =
      '"' :: (piecesText key.pieces ++ '"' :: (key.after.1 ++ ':' :: rest)) := by
  rw [Key.text, List.append_assoc, List.cons_append, List.append_assoc, List.cons_append,
    List.append_assoc, List.singleton_append]
  exact skipSpace_gap key.before (by decide) _

mutual

/-- The text of a layout is read as its value. -/
theorem Layout.reads : ∀ t : Layout, Reads t.text t.value
  | .word w hw => reads_word hw
  | .number n => reads_of_number? fun hrest => number?_text n hrest
  | .string ps => by
    refine reads_intro ⟨'"', rfl, by decide, by decide⟩ fun {fuel rest} _ _ => ?_
    have hread := string_pieces ps rest
    show (string (piecesText ps ++ ['"'] ++ rest) >>= _) = _
    rw [List.append_assoc, List.singleton_append, hread]
    rfl
  | .emptyList gap => by
    refine reads_intro ⟨'[', rfl, by decide, by decide⟩ fun {fuel rest} _ _ => ?_
    have hgap := skipSpace_gap gap (c := ']') (by decide) rest
    rw [Layout.text, List.cons_append, List.append_assoc, List.singleton_append, value, hgap]
    rfl
  | .list items => by
    refine reads_intro ⟨'[', rfl, by decide, by decide⟩ fun {fuel rest} hfuel _ => ?_
    simp only [Layout.text, List.length_cons, List.length_append] at hfuel
    obtain ⟨hne, hread⟩ := @Items.reads items fuel rest (by omega)
    rw [Layout.text, List.cons_append, List.append_assoc, List.singleton_append]
    exact value_list hne rfl hread
  | .emptyMapping gap => by
    refine reads_intro ⟨'{', rfl, by decide, by decide⟩ fun {fuel rest} _ _ => ?_
    have hgap := skipSpace_gap gap (c := '}') (by decide) rest
    rw [Layout.text, List.cons_append, List.append_assoc, List.singleton_append, value, hgap]
    rfl
  | .mapping members => by
    refine reads_intro ⟨'{', rfl, by decide, by decide⟩ fun {fuel rest} hfuel _ => ?_
    simp only [Layout.text, List.length_cons, List.length_append] at hfuel
    obtain ⟨hne, hread⟩ := @Members.reads members fuel rest (by omega)
    rw [Layout.text, List.cons_append, List.append_assoc, List.singleton_append]
    exact value_mapping hne rfl hread

/-- The text of items is read as their values. -/
theorem Items.reads : ∀ (items : Items) {fuel : ℕ} {rest : List Char},
    2 * items.text.length + 1 ≤ fuel →
      (skipSpace (items.text ++ ']' :: rest)).head? ≠ some ']' ∧
        Json.items fuel (skipSpace (items.text ++ ']' :: rest)) = .ok (items.values, rest)
  | .last before item after, fuel, rest, hfuel => by
    simp only [Items.text, List.length_append] at hfuel
    obtain ⟨fuel, rfl⟩ := Nat.exists_eq_succ_of_ne_zero (show fuel ≠ 0 by omega)
    have hitem := item.reads
    rw [Items.text, List.append_assoc, List.append_assoc, hitem.skipSpace_eq before]
    refine ⟨?_, items_last (hitem.value_eq (by omega) (endsNumber_gap after (by decide) rest))
      (skipSpace_gap after (by decide) rest)⟩
    obtain ⟨c, hhead, -, hc⟩ := hitem.begins
    rw [head?_append hhead]
    exact fun heq => hc (Option.some.inj heq)
  | .more before item after others, fuel, rest, hfuel => by
    simp only [Items.text, List.length_append, List.length_cons] at hfuel
    obtain ⟨fuel, rfl⟩ := Nat.exists_eq_succ_of_ne_zero (show fuel ≠ 0 by omega)
    have hitem := item.reads
    obtain ⟨-, hothers⟩ := @Items.reads others fuel rest (by omega)
    rw [Items.text, List.append_assoc, List.append_assoc, hitem.skipSpace_eq before,
      List.append_assoc, List.cons_append]
    refine ⟨?_, items_more (hitem.value_eq (by omega) (endsNumber_gap after (by decide) _))
      (skipSpace_gap after (by decide) _) hothers⟩
    obtain ⟨c, hhead, -, hc⟩ := hitem.begins
    rw [head?_append hhead]
    exact fun heq => hc (Option.some.inj heq)

/-- The text of members is read as their fields. -/
theorem Members.reads : ∀ (members : Members) {fuel : ℕ} {rest : List Char},
    2 * members.text.length + 1 ≤ fuel →
      (skipSpace (members.text ++ '}' :: rest)).head? ≠ some '}' ∧
        Json.members fuel (skipSpace (members.text ++ '}' :: rest)) = .ok (members.fields, rest)
  | .last key before v after, fuel, rest, hfuel => by
    simp only [Members.text, Key.text, List.length_append] at hfuel
    obtain ⟨fuel, rfl⟩ := Nat.exists_eq_succ_of_ne_zero (show fuel ≠ 0 by omega)
    have hv := v.reads
    rw [Members.text, List.append_assoc, key.skipSpace_text, List.append_assoc, List.append_assoc]
    refine ⟨by simp, members_last (string_pieces key.pieces _) (skipSpace_gap key.after (by decide) _)
      ?_ (skipSpace_gap after (by decide) rest)⟩
    rw [hv.skipSpace_eq before]
    exact hv.value_eq (by omega) (endsNumber_gap after (by decide) rest)
  | .more key before v after others, fuel, rest, hfuel => by
    simp only [Members.text, Key.text, List.length_append, List.length_cons] at hfuel
    obtain ⟨fuel, rfl⟩ := Nat.exists_eq_succ_of_ne_zero (show fuel ≠ 0 by omega)
    have hv := v.reads
    obtain ⟨-, hothers⟩ := @Members.reads others fuel rest (by omega)
    rw [Members.text, List.append_assoc, key.skipSpace_text, List.append_assoc, List.append_assoc,
      List.append_assoc, List.cons_append]
    refine ⟨by simp, members_more (string_pieces key.pieces _) (skipSpace_gap key.after (by decide) _)
      ?_ (skipSpace_gap after (by decide) _) hothers⟩
    rw [hv.skipSpace_eq before]
    exact hv.value_eq (by omega) (endsNumber_gap after (by decide) _)

end

/-! ### What is read has a layout -/

theorem exists_gap (cs : List Char) : ∃ gap : Gap, cs = gap.1 ++ skipSpace cs :=
  ⟨⟨cs.takeWhile isSpace, fun _ hc => List.mem_takeWhile_imp hc⟩,
    List.takeWhile_append_dropWhile.symm⟩

/-- What was dropped in front of a character is a gap. -/
theorem exists_gap_of_skipSpace {cs cs' : List Char} (h : skipSpace cs = cs') :
    ∃ gap : Gap, cs = gap.1 ++ cs' := by
  obtain ⟨gap, hgap⟩ := exists_gap cs
  exact ⟨gap, h ▸ hgap⟩

theorem of_string {cs : List Char} {s : String} (h : string cs = .ok (s, rest)) :
    ∃ ps, cs = piecesText ps ++ '"' :: rest ∧ s = stringOf ps := by
  obtain ⟨⟨chars, after⟩, htail, h⟩ := bind_eq_ok_iff.1 h
  obtain ⟨rfl, rfl⟩ := Prod.mk.inj (Except.ok.inj h)
  obtain ⟨ps, rfl, rfl⟩ := of_stringTail htail
  exact ⟨ps, rfl, rfl⟩

theorem of_atom {cs : List Char} {v : Value} (h : atom cs = .ok (v, rest)) :
    ∃ t : Layout, cs = t.text ++ rest ∧ v = t.value := by
  unfold atom at h
  split at h
  · next r hword =>
    obtain rfl := Except.ok.inj h
    obtain ⟨w, hw, hrest⟩ := List.exists_of_findSome?_eq_some hword
    obtain ⟨after, hafter, hvalue⟩ := Option.map_eq_some_iff.1 hrest
    obtain ⟨rfl, rfl⟩ := Prod.mk.inj hvalue
    exact ⟨.word w hw, Text.dropStart?_eq_some_iff.1 hafter, rfl⟩
  · split at h
    · next r hnumber =>
      obtain rfl := Except.ok.inj h
      obtain ⟨n, rfl, rfl⟩ := of_number? hnumber
      exact ⟨.number n, rfl, rfl⟩
    · cases h

mutual

/-- What is read as a value has a layout. -/
theorem of_value : ∀ {fuel : ℕ} {cs rest : List Char} {v : Value},
    value fuel cs = .ok (v, rest) → ∃ t : Layout, cs = t.text ++ rest ∧ v = t.value
  | 0, _, _, _, h => by cases h
  | fuel + 1, cs, rest, v, h => by
    rw [value.eq_def] at h
    dsimp only at h
    split at h
    · obtain ⟨⟨s, after⟩, hstring, h⟩ := bind_eq_ok_iff.1 h
      obtain ⟨rfl, rfl⟩ := Prod.mk.inj (Except.ok.inj h)
      obtain ⟨ps, rfl, rfl⟩ := of_string hstring
      exact ⟨.string ps, by simp [Layout.text], rfl⟩
    · next tail =>
      split at h
      · next hskip =>
        obtain ⟨rfl, rfl⟩ := Prod.mk.inj (Except.ok.inj h)
        obtain ⟨gap, rfl⟩ := exists_gap_of_skipSpace hskip
        exact ⟨.emptyMapping gap, by simp [Layout.text], rfl⟩
      · obtain ⟨⟨fields, after⟩, hfields, h⟩ := bind_eq_ok_iff.1 h
        obtain ⟨rfl, rfl⟩ := Prod.mk.inj (Except.ok.inj h)
        obtain ⟨gap, hgap⟩ := exists_gap tail
        obtain ⟨members, htext, rfl⟩ := of_members gap hfields
        refine ⟨.mapping members, ?_, rfl⟩
        rw [hgap, htext]
        simp [Layout.text]
    · next tail =>
      split at h
      · next hskip =>
        obtain ⟨rfl, rfl⟩ := Prod.mk.inj (Except.ok.inj h)
        obtain ⟨gap, rfl⟩ := exists_gap_of_skipSpace hskip
        exact ⟨.emptyList gap, by simp [Layout.text], rfl⟩
      · obtain ⟨⟨vs, after⟩, hitems, h⟩ := bind_eq_ok_iff.1 h
        obtain ⟨rfl, rfl⟩ := Prod.mk.inj (Except.ok.inj h)
        obtain ⟨gap, hgap⟩ := exists_gap tail
        obtain ⟨items, htext, rfl⟩ := of_items gap hitems
        refine ⟨.list items, ?_, rfl⟩
        rw [hgap, htext]
        simp [Layout.text]
    · exact of_atom h

/-- What is read as items, behind a gap, has a layout. -/
theorem of_items : ∀ {fuel : ℕ} {cs rest : List Char} {vs : List Value} (before : Gap),
    items fuel cs = .ok (vs, rest) →
      ∃ items : Items, before.1 ++ cs = items.text ++ ']' :: rest ∧ vs = items.values
  | 0, _, _, _, _, h => by cases h
  | fuel + 1, cs, rest, vs, before, h => by
    rw [items] at h
    obtain ⟨⟨v, tail⟩, hv, h⟩ := bind_eq_ok_iff.1 h
    obtain ⟨t, rfl, rfl⟩ := of_value hv
    dsimp only at h
    split at h
    · next hskip =>
      obtain ⟨rfl, rfl⟩ := Prod.mk.inj (Except.ok.inj h)
      obtain ⟨after, rfl⟩ := exists_gap_of_skipSpace hskip
      exact ⟨.last before t after, by simp [Items.text], rfl⟩
    · next others hskip =>
      obtain ⟨⟨vs, tail⟩, hvs, h⟩ := bind_eq_ok_iff.1 h
      obtain ⟨rfl, rfl⟩ := Prod.mk.inj (Except.ok.inj h)
      obtain ⟨after, rfl⟩ := exists_gap_of_skipSpace hskip
      obtain ⟨gap, hgap⟩ := exists_gap others
      obtain ⟨items, htext, rfl⟩ := of_items gap hvs
      refine ⟨.more before t after items, ?_, rfl⟩
      rw [hgap, htext]
      simp [Items.text]
    · cases h

/-- What is read as members, behind a gap, has a layout. -/
theorem of_members : ∀ {fuel : ℕ} {cs rest : List Char} {fields : List (Scalar × Value)}
    (before : Gap), members fuel cs = .ok (fields, rest) →
      ∃ members : Members, before.1 ++ cs = members.text ++ '}' :: rest ∧ fields = members.fields
  | 0, _, _, _, _, h => by cases h
  | fuel + 1, cs, rest, fields, before, h => by
    rw [members.eq_def] at h
    dsimp only at h
    split at h
    · obtain ⟨⟨s, tail⟩, hkey, hmember⟩ := bind_eq_ok_iff.1 h
      clear h
      obtain ⟨ps, rfl, rfl⟩ := of_string hkey
      dsimp only at hmember
      split at hmember
      · next next hcolon =>
        obtain ⟨mid, rfl⟩ := exists_gap_of_skipSpace hcolon
        obtain ⟨⟨v, tail⟩, hv, h⟩ := bind_eq_ok_iff.1 hmember
        clear hmember
        obtain ⟨gap, hgap⟩ := exists_gap next
        obtain ⟨t, htext, rfl⟩ := of_value hv
        rw [hgap, htext]
        dsimp only at h
        split at h
        · next hskip =>
          obtain ⟨rfl, rfl⟩ := Prod.mk.inj (Except.ok.inj h)
          obtain ⟨after, rfl⟩ := exists_gap_of_skipSpace hskip
          exact ⟨.last ⟨before, ps, mid⟩ gap t after, by simp [Members.text, Key.text], rfl⟩
        · next others hskip =>
          obtain ⟨⟨fields, tail⟩, hfields, h⟩ := bind_eq_ok_iff.1 h
          obtain ⟨rfl, rfl⟩ := Prod.mk.inj (Except.ok.inj h)
          obtain ⟨after, rfl⟩ := exists_gap_of_skipSpace hskip
          obtain ⟨gap', hgap'⟩ := exists_gap others
          obtain ⟨members, hmembers, rfl⟩ := of_members gap' hfields
          refine ⟨.more ⟨before, ps, mid⟩ gap t after members, ?_, rfl⟩
          rw [hgap', hmembers]
          simp [Members.text, Key.text]
        · cases h
      · cases hmember
    · cases h

end

end

/-! ### Whole texts -/

/-- A value as it is written, with the gaps around it. -/
structure Page where
  before : Gap
  layout : Layout
  after : Gap

/-- The text of a page. -/
def Page.text (p : Page) : List Char := p.before.1 ++ (p.layout.text ++ p.after.1)

/-- The parts of a page. -/
def Page.parts (p : Page) : List Part := .gap p.before :: (p.layout.parts ++ [.gap p.after])

/-- No value begins with a byte order mark. -/
theorem Layout.head?_text_ne (t : Layout) : t.text.head? ≠ some '\uFEFF' := by
  intro hhead
  obtain ⟨tail, htail⟩ := List.head?_eq_some_iff.1 hhead
  have hread := t.reads.value_eq (Nat.le_succ (2 * t.text.length)) endsNumber_nil
  rw [htail] at hread
  cases hread

/-- The text of a page is read as the value on it. -/
theorem read_text (p : Page) : read p.text = .ok p.layout.value := by
  have hfuel : 2 * p.layout.text.length ≤ 2 * p.text.length + 2 := by
    simp only [Page.text, List.length_append]
    omega
  have hafter : EndsNumber p.after.1 := by
    have hends := endsNumber_append p.after.2 endsNumber_nil
    rwa [List.append_nil] at hends
  have hend : skipSpace p.after.1 = [] := List.dropWhile_eq_nil_iff.2 p.after.2
  have hvalue := p.layout.reads.value_eq hfuel hafter
  have hskip : skipSpace p.text = p.layout.text ++ p.after.1 :=
    p.layout.reads.skipSpace_eq p.before
  have hmark : p.text.head? ≠ some '\uFEFF' := by
    obtain ⟨⟨gap, hgap⟩, t, after⟩ := p
    cases gap with
    | nil =>
      obtain ⟨c, hhead, -⟩ := t.reads.begins
      have hfirst := t.head?_text_ne
      rw [hhead] at hfirst
      show (t.text ++ after.1).head? ≠ _
      rwa [head?_append hhead]
    | cons c gap =>
      intro hhead
      obtain rfl := Option.some.inj hhead
      exact absurd (hgap _ List.mem_cons_self) (by decide)
  unfold read
  split
  · next heq => exact absurd (congrArg List.head? heq) hmark
  · rw [hskip, hvalue]
    dsimp only
    rw [hend]

/-- What is read has a page. -/
theorem exists_page_of_read {cs : List Char} {v : Value} (h : read cs = .ok v) :
    ∃ p : Page, cs = p.text ∧ v = p.layout.value := by
  unfold read at h
  split at h
  · cases h
  · split at h
    · cases h
    · next v' rest hvalue =>
      split at h
      · next hend =>
        obtain rfl := Except.ok.inj h
        obtain ⟨before, hbefore⟩ := exists_gap cs
        obtain ⟨t, htext, rfl⟩ := of_value hvalue
        have hafter : ∀ c ∈ rest, isSpace c = true := List.dropWhile_eq_nil_iff.1 hend
        exact ⟨⟨before, t, rest, hafter⟩, by rw [hbefore, htext]; rfl, rfl⟩
      · cases h

end ApiShell.Json
