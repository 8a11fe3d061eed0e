import ApiShell.Encoding.Base64

/-!
# Base 64 and back

Four characters hold the 24 bits of three bytes.  Reading them takes the bits that are over from one
character to the next, so every group gives its bytes back; a group that is filled up with equals signs
gives the one or two bytes that it was made of.
-/

namespace ApiShell.Base64

/-! ### Characters -/

/-- A character of the alphabet stands for its place, and is no equals sign. -/
theorem char_spec {n : Nat} (h : n < 64) :
    value? (char n) = some n ∧ char n ≠ '=' ∧ char n ∈ alphabet := by
  have hall : ∀ m : Fin 64,
      value? (char m) = some m.val ∧ char m ≠ '=' ∧ char m ∈ alphabet := by decide +kernel
  exact hall ⟨n, h⟩

section Reading

variable {v bits pads : Nat} (cs : List Char)

theorem decodeFrom_zero (hv : v < 64) :
    decodeFrom bits 0 pads (char v :: cs) = decodeFrom v 1 0 cs := by
  simp only [decodeFrom, if_neg (char_spec hv).2.1, (char_spec hv).1]

theorem decodeFrom_one (hv : v < 64) : decodeFrom bits 1 pads (char v :: cs) =
    (decodeFrom (v % 16) 2 0 cs).map (UInt8.ofNat (bits * 4 + v / 16) :: ·) := by
  simp only [decodeFrom, if_neg (char_spec hv).2.1, (char_spec hv).1]

theorem decodeFrom_two (hv : v < 64) : decodeFrom bits 2 pads (char v :: cs) =
    (decodeFrom (v % 4) 3 0 cs).map (UInt8.ofNat (bits * 16 + v / 4) :: ·) := by
  simp only [decodeFrom, if_neg (char_spec hv).2.1, (char_spec hv).1]

theorem decodeFrom_three (hv : v < 64) : decodeFrom bits 3 pads (char v :: cs) =
    (decodeFrom 0 0 0 cs).map (UInt8.ofNat (bits * 64 + v) :: ·) := by
  simp only [decodeFrom, if_neg (char_spec hv).2.1, (char_spec hv).1]

/-- Equals signs that fill up a group end the text. -/
theorem decodeFrom_equals : decodeFrom bits 2 0 ['=', '='] = some [] ∧
    decodeFrom bits 3 0 ['='] = some [] :=
  ⟨rfl, rfl⟩

end Reading

/-! ### Texts -/

/-- What is written is read back. -/
theorem decode?_encode (bs : List UInt8) : decode? (encode bs) = some bs := by
  unfold decode?
  induction bs using encode.induct with
  | case1 a b c rest ih =>
    have ha := a.toNat_lt
    have hb := b.toNat_lt
    have hc := c.toNat_lt
    rw [encode]
    generalize hn : a.toNat * 65536 + b.toNat * 256 + c.toNat = n
    have hfirst : n / 262144 * 4 + n / 4096 % 64 / 16 = a.toNat := by omega
    have hsecond : n / 4096 % 64 % 16 * 16 + n / 64 % 64 / 4 = b.toNat := by omega
    have hthird : n / 64 % 64 % 4 * 64 + n % 64 = c.toNat := by omega
    rw [decodeFrom_zero _ (by omega), decodeFrom_one _ (by omega), decodeFrom_two _ (by omega),
      decodeFrom_three _ (by omega), ih, hfirst, hsecond, hthird]
    simp only [Option.map_some, UInt8.ofNat_toNat]
  | case2 a b =>
    have ha := a.toNat_lt
    have hb := b.toNat_lt
    rw [encode]
    generalize hn : a.toNat * 65536 + b.toNat * 256 = n
    have hfirst : n / 262144 * 4 + n / 4096 % 64 / 16 = a.toNat := by omega
    have hsecond : n / 4096 % 64 % 16 * 16 + n / 64 % 64 / 4 = b.toNat := by omega
    rw [decodeFrom_zero _ (by omega), decodeFrom_one _ (by omega), decodeFrom_two _ (by omega),
      decodeFrom_equals.2, hfirst, hsecond]
    simp only [Option.map_some, UInt8.ofNat_toNat]
  | case3 a =>
    have ha := a.toNat_lt
    rw [encode]
    generalize hn : a.toNat * 65536 = n
    have hfirst : n / 262144 * 4 + n / 4096 % 64 / 16 = a.toNat := by omega
    rw [decodeFrom_zero _ (by omega), decodeFrom_one _ (by omega), decodeFrom_equals.1, hfirst]
    simp only [Option.map_some, UInt8.ofNat_toNat]
  | case4 => rfl

/-- Only the characters of the alphabet and equals signs are written. -/
theorem mem_encode {bs : List UInt8} {c : Char} (h : c ∈ encode bs) : c ∈ alphabet ∨ c = '=' := by
  have hchar {n : Nat} (hn : n < 64) : char n ∈ alphabet := (char_spec hn).2.2
  have hfirst {n : Nat} (hn : n < 16777216) : char (n / 262144) ∈ alphabet := hchar (by omega)
  have hlater (n : Nat) : char (n % 64) ∈ alphabet := hchar (Nat.mod_lt _ (by decide))
  induction bs using encode.induct with
  | case1 a b c' rest ih =>
    have := a.toNat_lt
    have := b.toNat_lt
    have := c'.toNat_lt
    simp only [encode, List.mem_cons] at h
    rcases h with rfl | rfl | rfl | rfl | h
    · exact .inl (hfirst (by omega))
    · exact .inl (hlater _)
    · exact .inl (hlater _)
    · exact .inl (hlater _)
    · exact ih h
  | case2 a b =>
    have := a.toNat_lt
    have := b.toNat_lt
    simp only [encode, List.mem_cons, List.not_mem_nil, or_false] at h
    rcases h with rfl | rfl | rfl | rfl
    · exact .inl (hfirst (by omega))
    · exact .inl (hlater _)
    · exact .inl (hlater _)
    · exact .inr rfl
  | case3 a =>
    have := a.toNat_lt
    simp only [encode, List.mem_cons, List.not_mem_nil, or_false] at h
    rcases h with rfl | rfl | rfl | rfl
    · exact .inl (hfirst (by omega))
    · exact .inl (hlater _)
    · exact .inr rfl
    · exact .inr rfl
  | case4 => cases h

end ApiShell.Base64
