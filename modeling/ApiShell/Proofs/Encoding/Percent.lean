import ApiShell.Encoding.Percent
import ApiShell.Proofs.Text.Utf8

/-!
# Percent encoding and back

An encoded text has no characters but unreserved ones, those that are safe in its place and percent
signs.  So encoding it again changes nothing, and reading it gives the bytes of the text.
-/

namespace ApiShell.Percent

variable {safe : Char → Bool} {c : Char} {cs ds : List Char}

/-! ### Hexadecimal digits -/

theorem hexValue?_hexDigit {n : Nat} (h : n < 16) : Json.hexValue? (hexDigit n) = some n := by
  have hdigits : ∀ m : Fin 16, Json.hexValue? (hexDigit m) = some m.val := by decide
  exact hdigits ⟨n, h⟩

theorem isUnreserved_of_hexValue? (h : (Json.hexValue? c).isSome = true) :
    isUnreserved c = true := by
  have hbetween (low high : Char) (h : low ≤ c ∧ c ≤ high) :
      (decide (low.val ≤ c.val) && decide (c.val ≤ high.val)) = true :=
    Bool.and_eq_true_iff.2 ⟨decide_eq_true h.1, decide_eq_true h.2⟩
  have halphanum : (c.isUpper || c.isLower || c.isDigit) = true := by
    rw [Bool.or_eq_true, Bool.or_eq_true]
    simp only [Json.hexValue?, Bool.and_eq_true, decide_eq_true_eq] at h
    split at h
    · next hdigit => exact .inr (hbetween '0' '9' hdigit)
    split at h
    · next hlower =>
      exact .inl (.inr (hbetween 'a' 'z' ⟨hlower.1, Nat.le_trans hlower.2 (by decide)⟩))
    split at h
    · next hupper =>
      exact .inl (.inl (decide_eq_true ⟨hupper.1, Nat.le_trans hupper.2 (by decide)⟩))
    · cases h
  rw [isUnreserved]
  exact Bool.or_eq_true_iff.2 (.inl halphanum)

/-! ### Encoded texts -/

/-- The text is made of unreserved characters and of percent signs with two hexadecimal digits
behind them. -/
inductive IsEncoded : List Char → Prop
  | nil : IsEncoded []
  | unreserved {c : Char} {cs : List Char} :
      isUnreserved c = true → IsEncoded cs → IsEncoded (c :: cs)
  | triple {a b : Char} {cs : List Char} : (Json.hexValue? a).isSome = true →
      (Json.hexValue? b).isSome = true → IsEncoded cs → IsEncoded ('%' :: a :: b :: cs)

theorem IsEncoded.append (h : IsEncoded cs) (h' : IsEncoded ds) : IsEncoded (cs ++ ds) := by
  induction h with
  | nil => exact h'
  | unreserved hc _ ih => exact .unreserved hc ih
  | triple ha hb _ ih => exact .triple ha hb ih

theorem IsEncoded.mem (h : IsEncoded cs) (hc : c ∈ cs) : c = '%' ∨ isUnreserved c = true := by
  induction h with
  | nil => cases hc
  | unreserved hd _ ih =>
    rcases List.mem_cons.1 hc with rfl | hc
    · exact .inr hd
    · exact ih hc
  | triple ha hb _ ih =>
    rcases List.mem_cons.1 hc with rfl | hc
    · exact .inl rfl
    rcases List.mem_cons.1 hc with rfl | hc
    · exact .inr (isUnreserved_of_hexValue? ha)
    rcases List.mem_cons.1 hc with rfl | hc
    · exact .inr (isUnreserved_of_hexValue? hb)
    · exact ih hc

/-- The two digits of a byte are read as its halves. -/
theorem hexValue?_escapeByte (b : UInt8) :
    ∃ high low, escapeByte b = ['%', high, low] ∧ Json.hexValue? high = some (b.toNat / 16) ∧
      Json.hexValue? low = some (b.toNat % 16) := by
  have hhigh : b.toNat / 16 < 16 := by
    have := b.toNat_lt
    omega
  have hlow : b.toNat % 16 < 16 := Nat.mod_lt _ (by decide)
  exact ⟨_, _, rfl, hexValue?_hexDigit hhigh, hexValue?_hexDigit hlow⟩

theorem isEncoded_escape (cs : List Char) : IsEncoded (escape cs) := by
  unfold escape
  induction Text.utf8 cs with
  | nil => exact .nil
  | cons b bs ih =>
    obtain ⟨high, low, hbyte, hhigh, hlow⟩ := hexValue?_escapeByte b
    rw [List.flatMap_cons, hbyte]
    exact .triple (by rw [hhigh]; rfl) (by rw [hlow]; rfl) ih

/-! ### Encoding -/

theorem encode_cons (c : Char) (cs : List Char) :
    encode safe (c :: cs) = encode safe [c] ++ encode safe cs := by
  simp [encode]

theorem encode_append (cs ds : List Char) :
    encode safe (cs ++ ds) = encode safe cs ++ encode safe ds :=
  List.flatMap_append

theorem encode_singleton_of_safe (h : isUnreserved c = true ∨ safe c = true) :
    encode safe [c] = [c] := by
  simp [encode, h]

theorem encode_singleton_of_not_safe (h : ¬ (isUnreserved c = true ∨ safe c = true)) :
    encode safe [c] = escape [c] := by
  simp [encode, h]

theorem mem_encode (h : c ∈ encode safe cs) : c = '%' ∨ isUnreserved c = true ∨ safe c = true := by
  obtain ⟨d, -, hd⟩ := List.mem_flatMap.1 h
  split at hd
  · next hsafe =>
    obtain rfl := List.mem_singleton.1 hd
    exact .inr (Bool.or_eq_true_iff.1 hsafe)
  · exact ((isEncoded_escape [d]).mem hd).imp_right .inl

/-- A text that has only characters which stand for themselves is its own encoded form. -/
theorem encode_eq_self (h : ∀ c ∈ cs, isUnreserved c = true ∨ safe c = true) :
    encode safe cs = cs := by
  induction cs with
  | nil => rfl
  | cons c cs ih =>
    rw [encode_cons, encode_singleton_of_safe (h c List.mem_cons_self),
      ih fun d hd => h d (List.mem_cons_of_mem _ hd)]
    rfl

/-- A text is encoded without percent signs only if it is its own encoded form. -/
theorem encode_eq_self_of_notMem (h : '%' ∉ encode safe cs) : encode safe cs = cs := by
  refine encode_eq_self fun c hc => ?_
  by_cases hsafe : isUnreserved c || safe c
  · exact Bool.or_eq_true_iff.1 hsafe
  · refine absurd (List.mem_flatMap.2 ⟨c, hc, ?_⟩) h
    rw [if_neg hsafe, escape]
    obtain ⟨b, tail, hbytes, -⟩ := Text.firstChar_utf8EncodeChar c
    rw [Text.utf8_cons, hbytes]
    exact List.mem_cons_self

/-- Encoding twice is encoding once where a percent sign stands for itself. -/
theorem encode_encode (h : safe '%' = true) (cs : List Char) :
    encode safe (encode safe cs) = encode safe cs := by
  refine encode_eq_self fun c hc => ?_
  rcases mem_encode hc with rfl | hc
  · exact .inr h
  · exact hc

/-- Where percent signs stand for themselves, it makes no difference whether two digits follow. -/
theorem encodeOnce_eq_encode (h : safe '%' = true) (cs : List Char) :
    encodeOnce safe cs = encode safe cs := by
  have hpercent : encode safe ['%'] = ['%'] := encode_singleton_of_safe (.inr h)
  induction cs using encodeOnce.induct with
  | case1 a b cs hdigits ih =>
    rw [Bool.and_eq_true] at hdigits
    have ha : encode safe [a] = [a] :=
      encode_singleton_of_safe (.inl (isUnreserved_of_hexValue? hdigits.1))
    have hb : encode safe [b] = [b] :=
      encode_singleton_of_safe (.inl (isUnreserved_of_hexValue? hdigits.2))
    rw [encodeOnce, if_pos (Bool.and_eq_true_iff.2 hdigits), ih, encode_cons, encode_cons a,
      encode_cons b, hpercent, ha, hb]
    rfl
  | case2 a b cs hdigits ih => rw [encodeOnce, if_neg hdigits, ih, ← encode_cons]
  | case3 c cs hne ih => rw [encodeOnce, ih, ← encode_cons]; exact hne
  | case4 => rfl

/-- What is encoded for a place with unreserved characters only is encoded for every place in which a
percent sign stands for itself. -/
theorem encode_encodeAll (h : safe '%' = true) (cs : List Char) :
    encode safe (encodeAll cs) = encodeAll cs := by
  refine encode_eq_self fun c hc => ?_
  rcases mem_encode hc with rfl | hc | hc
  · exact .inr h
  · exact .inl hc
  · cases hc

/-- What is encoded for a place with unreserved characters only has no others, except in triples. -/
theorem isEncoded_encodeAll (cs : List Char) : IsEncoded (encodeAll cs) := by
  induction cs with
  | nil => exact .nil
  | cons c cs ih =>
    rw [encodeAll, encode_cons]
    refine .append ?_ ih
    by_cases hc : isUnreserved c = true
    · rw [encode_singleton_of_safe (.inl hc)]
      exact .unreserved hc .nil
    · rw [encode_singleton_of_not_safe (by simpa using hc)]
      exact isEncoded_escape [c]

/-! ### Reading -/

theorem decode_escapeByte (b : UInt8) (cs : List Char) :
    decode (escapeByte b ++ cs) = b :: decode cs := by
  obtain ⟨high, low, hbyte, hhigh, hlow⟩ := hexValue?_escapeByte b
  have hvalue : 16 * (b.toNat / 16) + b.toNat % 16 = b.toNat := Nat.div_add_mod _ _
  rw [hbyte]
  show decode ('%' :: high :: low :: cs) = _
  simp only [decode, hhigh, hlow, hvalue, UInt8.ofNat_toNat]

theorem decode_escape (cs ds : List Char) :
    decode (escape cs ++ ds) = Text.utf8 cs ++ decode ds := by
  unfold escape
  induction Text.utf8 cs with
  | nil => rfl
  | cons b bs ih =>
    rw [List.flatMap_cons, List.append_assoc, decode_escapeByte, ih]
    rfl

theorem decode_cons (h : c ≠ '%') (cs : List Char) :
    decode (c :: cs) = Text.utf8 [c] ++ decode cs := by
  rw [decode]
  rintro a b rest rfl
  exact absurd rfl h

theorem decode_encode_append (hsafe : safe '%' = false) (cs ds : List Char) :
    decode (encode safe cs ++ ds) = Text.utf8 cs ++ decode ds := by
  induction cs with
  | nil => rfl
  | cons c cs ih =>
    rw [encode_cons, List.append_assoc]
    by_cases hc : isUnreserved c = true ∨ safe c = true
    · have hne : c ≠ '%' := by
        rintro rfl
        rcases hc with hc | hc
        · exact absurd hc (by decide)
        · exact absurd hc (by rw [hsafe]; decide)
      rw [encode_singleton_of_safe hc, List.singleton_append, decode_cons hne, ih]
      simp
    · rw [encode_singleton_of_not_safe hc, decode_escape, ih]
      simp

/-- The bytes that an encoded text stands for are those of the text. -/
theorem decode_encode (hsafe : safe '%' = false) (cs : List Char) :
    decode (encode safe cs) = Text.utf8 cs := by
  have hdecode := decode_encode_append hsafe cs []
  rw [List.append_nil] at hdecode
  rw [hdecode, decode, List.append_nil]

/-! ### Parts of forms -/

/-- A plus sign stands for a space. -/
def plusAsSpace (cs : List Char) : List Char := cs.map fun c => if c = '+' then ' ' else c

theorem encodeForm_cons (c : Char) (cs : List Char) :
    encodeForm (c :: cs) = encodeForm [c] ++ encodeForm cs := by
  simp [encodeForm]

theorem mem_encodeForm (h : c ∈ encodeForm cs) : c = '+' ∨ c = '%' ∨ isUnreserved c = true := by
  obtain ⟨d, -, hd⟩ := List.mem_flatMap.1 h
  split at hd
  · exact .inl (List.mem_singleton.1 hd)
  · rcases mem_encode hd with hc | hc | hc
    · exact .inr (.inl hc)
    · exact .inr (.inr hc)
    · cases hc

/-- A part of a form has its spaces as plus signs and is otherwise encoded as elsewhere. -/
theorem plusAsSpace_encodeForm (cs : List Char) :
    plusAsSpace (encodeForm cs) = encode (· == ' ') cs := by
  induction cs with
  | nil => rfl
  | cons c cs ih =>
    rw [encodeForm_cons, encode_cons, ← ih]
    simp only [plusAsSpace, List.map_append]
    congr 1
    by_cases hc : c = ' '
    · rw [hc]
      decide
    · have hplain : encodeForm [c] = encode (· == ' ') [c] := by
        simp [encodeForm, encodeAll, encode, hc]
      have hkeep : ∀ d ∈ encode (· == ' ') [c], (if d = '+' then ' ' else d) = d := by
        intro d hd
        refine if_neg ?_
        rintro rfl
        have hplus := mem_encode hd
        revert hplus
        decide
      rw [hplain, List.map_congr_left hkeep, List.map_id']

end ApiShell.Percent
