import ApiShell.Text.Utf8

/-!
# Bytes of a text and back

The first byte of a character says how many follow, and the bytes of a character are read as this
character whatever stands behind them.  So the bytes of a text are read as this text, by the strict
reader and by the lenient one.
-/

namespace ApiShell.Text

variable {a b c d : UInt8} {rest : List UInt8}

/-! ### The first character -/

theorem isContinuation_iff : isContinuation b = true ↔ 0x80 ≤ b.toNat ∧ b.toNat ≤ 0xBF := by
  simp [isContinuation, UInt8.le_iff_toNat_le]

/-- What a second byte may be, by the first byte. -/
theorem isSecond_of (hb : isContinuation b = true) (he0 : a.toNat = 0xE0 → 0xA0 ≤ b.toNat)
    (hed : a.toNat = 0xED → b.toNat ≤ 0x9F) (hf0 : a.toNat = 0xF0 → 0x90 ≤ b.toNat)
    (hf4 : a.toNat = 0xF4 → b.toNat ≤ 0x8F) : isSecond a b = true := by
  have hrange := isContinuation_iff.1 hb
  unfold isSecond
  simp only [beq_iff_eq, ← UInt8.toNat_inj, UInt8.le_iff_toNat_le]
  split
  · simpa using ⟨he0 ‹_›, hrange.2⟩
  split
  · simpa using ⟨hrange.1, hed ‹_›⟩
  split
  · simpa using ⟨hf0 ‹_›, hrange.2⟩
  split
  · simpa using ⟨hrange.1, hf4 ‹_›⟩
  · exact hb

theorem firstChar_one (h : a.toNat < 0x80) : firstChar a rest = ⟨some (Char.ofNat a.toNat), 1⟩ := by
  have ha : a < 0x80 := UInt8.lt_iff_toNat_lt.2 h
  simp only [firstChar, ha, if_true]

theorem firstChar_two (hlow : 0xC2 ≤ a.toNat) (hhigh : a.toNat < 0xE0)
    (hb : isContinuation b = true) :
    firstChar a (b :: rest) = ⟨some (Char.ofNat (a.toNat % 32 * 64 + low6 b)), 2⟩ := by
  have h1 : ¬a < 0x80 := by rw [UInt8.lt_iff_toNat_lt]; simp; omega
  have h2 : ¬(a < 0xC2 ∨ a > 0xF4) := by simp [UInt8.lt_iff_toNat_lt]; omega
  have h3 : a < 0xE0 := UInt8.lt_iff_toNat_lt.2 hhigh
  simp only [firstChar, h1, if_false, Bool.or_eq_true, decide_eq_true_eq, h2, h3, if_true, hb]

theorem firstChar_three (hlow : 0xE0 ≤ a.toNat) (hhigh : a.toNat < 0xF0)
    (hb : isSecond a b = true) (hc : isContinuation c = true) :
    firstChar a (b :: c :: rest) =
      ⟨some (Char.ofNat ((a.toNat % 16 * 64 + low6 b) * 64 + low6 c)), 3⟩ := by
  have h1 : ¬a < 0x80 := by rw [UInt8.lt_iff_toNat_lt]; simp; omega
  have h2 : ¬(a < 0xC2 ∨ a > 0xF4) := by simp [UInt8.lt_iff_toNat_lt]; omega
  have h3 : ¬a < 0xE0 := by rw [UInt8.lt_iff_toNat_lt]; simp; omega
  have h4 : a < 0xF0 := UInt8.lt_iff_toNat_lt.2 hhigh
  simp only [firstChar, h1, if_false, Bool.or_eq_true, decide_eq_true_eq, h2, h3, hb, Bool.not_true,
    Bool.false_eq_true, hc, h4, if_true]

theorem firstChar_four (hlow : 0xF0 ≤ a.toNat) (hhigh : a.toNat ≤ 0xF4)
    (hb : isSecond a b = true) (hc : isContinuation c = true) (hd : isContinuation d = true) :
    firstChar a (b :: c :: d :: rest) =
      ⟨some (Char.ofNat (((a.toNat % 8 * 64 + low6 b) * 64 + low6 c) * 64 + low6 d)), 4⟩ := by
  have h1 : ¬a < 0x80 := by rw [UInt8.lt_iff_toNat_lt]; simp; omega
  have h2 : ¬(a < 0xC2 ∨ a > 0xF4) := by simp [UInt8.lt_iff_toNat_lt]; omega
  have h3 : ¬a < 0xE0 := by rw [UInt8.lt_iff_toNat_lt]; simp; omega
  have h4 : ¬a < 0xF0 := by rw [UInt8.lt_iff_toNat_lt]; simp; omega
  simp only [firstChar, h1, if_false, Bool.or_eq_true, decide_eq_true_eq, h2, h3, hb, Bool.not_true,
    Bool.false_eq_true, hc, h4, hd, if_true]

/-! ### Bytes behind the first one -/

theorem toNat_following (m : Nat) : (UInt8.ofNat (m % 64 + 128)).toNat = m % 64 + 128 :=
  UInt8.toNat_ofNat_of_lt' (by rw [UInt8.size]; omega)

theorem isContinuation_following (m : Nat) : isContinuation (UInt8.ofNat (m % 64 + 128)) = true := by
  rw [isContinuation_iff, toNat_following]
  omega

theorem low6_following (m : Nat) : low6 (UInt8.ofNat (m % 64 + 128)) = m % 64 := by
  rw [low6, toNat_following]
  omega

/-- The bytes of a character are read as this character, whatever stands behind them. -/
theorem firstChar_utf8EncodeChar (c : Char) :
    ∃ a tail, String.utf8EncodeChar c = a :: tail ∧
      ∀ rest, firstChar a (tail ++ rest) = ⟨some c, tail.length + 1⟩ := by
  have hvalid : c.toNat < 0xD800 ∨ 0xDFFF < c.toNat ∧ c.toNat < 0x110000 := c.valid
  have hsame : Char.ofNat c.toNat = c := Char.ofNat_toNat c
  have hval : c.val.toNat = c.toNat := rfl
  have hbyte {n : Nat} (h : n < 256) : (UInt8.ofNat n).toNat = n := UInt8.toNat_ofNat_of_lt' h
  unfold String.utf8EncodeChar
  dsimp only
  rw [hval]
  generalize c.toNat = n at hvalid hsame
  split
  · have ha : (UInt8.ofNat n).toNat = n := hbyte (by omega)
    refine ⟨_, _, rfl, fun rest => ?_⟩
    rw [List.nil_append, firstChar_one (by omega), ha, hsame]
    rfl
  split
  · have ha := hbyte (show n / 64 % 32 + 192 < 256 by omega)
    have hn : (n / 64 % 32 + 192) % 32 * 64 + n % 64 = n := by omega
    refine ⟨_, _, rfl, fun rest => ?_⟩
    rw [List.cons_append, firstChar_two (by omega) (by omega) (isContinuation_following n), ha,
      low6_following, hn, hsame]
    rfl
  split
  · have ha := hbyte (show n / 4096 % 16 + 224 < 256 by omega)
    have hb := toNat_following (n / 64)
    have hn : ((n / 4096 % 16 + 224) % 16 * 64 + n / 64 % 64) * 64 + n % 64 = n := by omega
    have hsecond : isSecond (UInt8.ofNat (n / 4096 % 16 + 224)) _ = true :=
      isSecond_of (isContinuation_following (n / 64)) (by omega) (by omega) (by omega) (by omega)
    refine ⟨_, _, rfl, fun rest => ?_⟩
    rw [List.cons_append, List.cons_append, firstChar_three (by omega) (by omega) hsecond
      (isContinuation_following n), ha, low6_following, low6_following, hn, hsame]
    rfl
  · have ha := hbyte (show n / 262144 % 8 + 240 < 256 by omega)
    have hb := toNat_following (n / 4096)
    have hn : (((n / 262144 % 8 + 240) % 8 * 64 + n / 4096 % 64) * 64 + n / 64 % 64) * 64 + n % 64 =
        n := by omega
    have hsecond : isSecond (UInt8.ofNat (n / 262144 % 8 + 240)) _ = true :=
      isSecond_of (isContinuation_following (n / 4096)) (by omega) (by omega) (by omega) (by omega)
    refine ⟨_, _, rfl, fun rest => ?_⟩
    rw [List.cons_append, List.cons_append, List.cons_append, firstChar_four (by omega) (by omega)
      hsecond (isContinuation_following (n / 64)) (isContinuation_following n), ha, low6_following,
      low6_following, low6_following, hn, hsame]
    rfl

/-! ### Whole texts -/

@[simp] theorem utf8_nil : utf8 [] = [] := rfl

@[simp] theorem utf8_cons (c : Char) (cs : List Char) :
    utf8 (c :: cs) = String.utf8EncodeChar c ++ utf8 cs := rfl

/-- The bytes of a text are read as this text. -/
theorem ofUtf8?_utf8 (cs : List Char) : ofUtf8? (utf8 cs) = some cs := by
  induction cs with
  | nil => rw [utf8_nil, ofUtf8?]
  | cons c cs ih =>
    obtain ⟨a, tail, hbytes, hfirst⟩ := firstChar_utf8EncodeChar c
    rw [utf8_cons, hbytes, List.cons_append, ofUtf8?]
    simp only [hfirst, Option.bind_some, Nat.add_sub_cancel, List.drop_left, ih, Option.map_some]

/-- The lenient reader has nothing to replace in the bytes of a text. -/
theorem ofUtf8Lenient_utf8 (cs : List Char) : ofUtf8Lenient (utf8 cs) = cs := by
  induction cs with
  | nil => rw [utf8_nil, ofUtf8Lenient]
  | cons c cs ih =>
    obtain ⟨a, tail, hbytes, hfirst⟩ := firstChar_utf8EncodeChar c
    rw [utf8_cons, hbytes, List.cons_append, ofUtf8Lenient]
    simp only [hfirst, Option.getD_some, Nat.add_sub_cancel, List.drop_left, ih]

end ApiShell.Text
