/-!
# Punycode

A label of a host name that has characters beyond ASCII is written with letters, digits and hyphens: the
ASCII characters first, then for each other character, in the order of their codes, how far it is from
the one before.  The distances are numbers of base 36 whose last digit is recognised by a threshold
that adapts to the numbers seen so far.
-/

namespace ApiShell.Punycode

/-- A digit of base 36. -/
def digit (n : Nat) : Char := if n < 26 then Char.ofNat (97 + n) else Char.ofNat (22 + n)

/-- Below its threshold a digit is the last one of its number. -/
def threshold (place bias : Nat) : Nat := max 1 (min 26 (place - bias))

/-- The digits of a number, the lowest first; `place` grows by the base. -/
def digits (bias place n : Nat) : List Char :=
  let t := threshold place bias
  if n < t then [digit n]
  else digit (t + (n - t) % (36 - t)) :: digits bias (place + 36) ((n - t) / (36 - t))
termination_by n
decreasing_by
  have : 1 ≤ threshold place bias := Nat.le_max_left _ _
  exact Nat.lt_of_le_of_lt (Nat.div_le_self _ _) (by omega)

/-- Scale a distance down until it is small. -/
def scaleDown (bias delta : Nat) : Nat :=
  if 455 < delta then scaleDown (bias + 36) (delta / 35) else bias + 36 * delta / (delta + 38)
termination_by delta
decreasing_by omega

/-- The bias after a distance; `count` is the number of characters written. -/
def adapt (delta count : Nat) (isFirst : Bool) : Nat :=
  let delta := if isFirst then delta / 700 else delta / 2
  scaleDown 0 (delta + delta / count)

/-- Where the writing of a label stands. -/
structure Progress where
  written : List Char
  delta : Nat
  bias : Nat
  count : Nat

/-- Write the characters with a code `code`, in the order of the label. -/
def writeCode (basic code : Nat) (p : Progress) (c : Char) : Progress :=
  if c.toNat < code then { p with delta := p.delta + 1 }
  else if c.toNat = code then
    ⟨p.written ++ digits p.bias 36 p.delta, 0, adapt p.delta (p.count + 1) (p.count == basic),
     p.count + 1⟩
  else p

/-- Write the characters with the codes, which are in order; `start` is the first code not yet done. -/
def writeCodes (label : List Char) (basic start : Nat) (p : Progress) : List Nat → Progress
  | [] => p
  | code :: codes =>
    let p := { p with delta := p.delta + (code - start) * (p.count + 1) }
    let p := label.foldl (writeCode basic code) p
    writeCodes label basic (code + 1) { p with delta := p.delta + 1 } codes

/-- The written form of a label. -/
def encode (label : List Char) : List Char :=
  let basic := label.filter (·.toNat < 128)
  let codes := ((label.map Char.toNat).filter (128 ≤ ·)).eraseDups.mergeSort
  let start := if basic.isEmpty then [] else basic ++ ['-']
  start ++ (writeCodes label basic.length 128 ⟨[], 0, 72, basic.length⟩ codes).written

end ApiShell.Punycode
