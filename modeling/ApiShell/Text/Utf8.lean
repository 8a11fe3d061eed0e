/-!
# UTF-8

Texts as bytes and back.  The strict reader refuses everything that is no text; the lenient one puts a
replacement character for every longest run of bytes that begins a character and does not finish it.
-/

namespace ApiShell.Text

/-- The bytes of a text. -/
def utf8 (cs : List Char) : List UInt8 := cs.flatMap String.utf8EncodeChar

/-- What stands at the beginning of a list of bytes: a character of `length` bytes, or `length` bytes
that are none. -/
structure FirstChar where
  char? : Option Char
  length : Nat

/-- The byte continues a character. -/
def isContinuation (b : UInt8) : Bool := 0x80 ≤ b && b ≤ 0xBF

/-- The second byte `b` may follow the first byte `a` of a character of three or four bytes. -/
def isSecond (a b : UInt8) : Bool :=
  if a == 0xE0 then 0xA0 ≤ b && b ≤ 0xBF
  else if a == 0xED then 0x80 ≤ b && b ≤ 0x9F
  else if a == 0xF0 then 0x90 ≤ b && b ≤ 0xBF
  else if a == 0xF4 then 0x80 ≤ b && b ≤ 0x8F
  else isContinuation b

/-- The low six bits of a byte. -/
def low6 (b : UInt8) : Nat := b.toNat % 64

/-- The character at the beginning of bytes whose first one is `a`. -/
def firstChar (a : UInt8) (rest : List UInt8) : FirstChar :=
  if a < 0x80 then ⟨some (Char.ofNat a.toNat), 1⟩
  else if a < 0xC2 || a > 0xF4 then ⟨none, 1⟩
  else if a < 0xE0 then
    match rest with
    | b :: _ =>
      if isContinuation b then ⟨some (Char.ofNat (a.toNat % 32 * 64 + low6 b)), 2⟩ else ⟨none, 1⟩
    | [] => ⟨none, 1⟩
  else
    match rest with
    | [] => ⟨none, 1⟩
    | b :: rest =>
      if !isSecond a b then ⟨none, 1⟩
      else match rest with
        | [] => ⟨none, 2⟩
        | c :: rest =>
          if !isContinuation c then ⟨none, 2⟩
          else if a < 0xF0 then
            ⟨some (Char.ofNat ((a.toNat % 16 * 64 + low6 b) * 64 + low6 c)), 3⟩
          else match rest with
            | d :: _ =>
              if isContinuation d then
                ⟨some (Char.ofNat (((a.toNat % 8 * 64 + low6 b) * 64 + low6 c) * 64 + low6 d)), 4⟩
              else ⟨none, 3⟩
            | [] => ⟨none, 3⟩

/-- The text that bytes write, if they write one. -/
def ofUtf8? (bs : List UInt8) : Option (List Char) :=
  match bs with
  | [] => some []
  | a :: rest =>
    let first := firstChar a rest
    first.char?.bind fun c => (ofUtf8? (rest.drop (first.length - 1))).map (c :: ·)
termination_by bs.length
decreasing_by simp only [List.length_drop, List.length_cons]; omega

/-- The text that bytes write, with replacement characters for what is no text. -/
def ofUtf8Lenient (bs : List UInt8) : List Char :=
  match bs with
  | [] => []
  | a :: rest =>
    let first := firstChar a rest
    first.char?.getD '\uFFFD' :: ofUtf8Lenient (rest.drop (first.length - 1))
termination_by bs.length
decreasing_by simp only [List.length_drop, List.length_cons]; omega

end ApiShell.Text
