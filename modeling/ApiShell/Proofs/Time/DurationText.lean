import ApiShell.Proofs.Decimal.Layout
import ApiShell.Proofs.Text.Blank
import ApiShell.Time.DurationText
import Mathlib.Data.List.TakeDrop

/-!
# Durations that are read back

A value that stands for a duration need not be one when it is shown as a text.  The text of a whole
number of seconds is read as the number.  The text of a floating-point number has a point or an
exponent, so it is not read as a number of seconds, and it has no unit, so it is no chain of parts
either; and the text of a truth value or of bytes begins with no part.
-/

namespace ApiShell.Time

/-! ### Texts without a unit -/

/-- The letters that units begin with. -/
def unitLetters : List Char := ['m', 's', 'h', 'd']

theorem takeUnit_eq_none {cs : List Char} (h : ∀ c ∈ cs, c ∉ unitLetters) : takeUnit cs = none := by
  unfold takeUnit
  split
  case h_6 => rfl
  all_goals exact absurd (by decide) (h _ List.mem_cons_self)

theorem subset_of_takeFraction {cs : List Char} : (takeFraction cs).2 ⊆ cs := by
  unfold takeFraction
  split
  · next rest =>
    rw [List.span_eq_takeWhile_dropWhile]
    split
    · exact List.Subset.refl _
    · exact fun c hc => List.mem_cons_of_mem '.' ((List.dropWhile_sublist _).mem hc)
  · exact List.Subset.refl _

/-- A part ends with its unit. -/
theorem takePart_eq_none {cs : List Char} (h : ∀ c ∈ cs, c ∉ unitLetters) : takePart cs = none := by
  have hrest : ∀ c ∈ (takeFraction (cs.dropWhile Text.isDecimal)).2, c ∉ unitLetters := by
    intro c hc
    exact h c ((List.dropWhile_sublist _).mem (subset_of_takeFraction hc))
  unfold takePart
  rw [List.span_eq_takeWhile_dropWhile]
  split
  · rfl
  · next heq =>
    obtain ⟨-, rfl⟩ := Prod.mk.inj heq
    simp only [takeUnit_eq_none hrest, Option.map_none]

/-- Only the empty text is a chain of parts without a unit. -/
theorem durationParts_eq_none {cs : List Char} (hsome : cs ≠ []) (h : takePart cs = none) :
    durationParts cs = none := by
  have hempty : cs.isEmpty = false := List.isEmpty_eq_false_iff.2 hsome
  simp only [durationParts, partsFrom, hempty, h, Bool.false_eq_true, if_false]
  rfl

/-- A text without blanks around it that does not consist of digits and begins with no part is no
duration. -/
theorem durationOfText_eq_malformed {s : String}
    (htrim : Text.trimOf Text.isBlank s.toList = s.toList)
    {c : Char} (hc : c ∈ s.toList) (hdigit : Text.isDigit c = false)
    (hpart : takePart s.toList = none) :
    durationOfText s = .error (.malformed (Text.quoted s)) := by
  have hsome : s.toList ≠ [] := List.ne_nil_of_mem hc
  have hall : s.toList.all Text.isDigit = false :=
    List.all_eq_false.2 ⟨c, hc, by rw [hdigit]; decide⟩
  simp only [durationOfText, htrim, List.isEmpty_eq_false_iff.2 hsome, hall,
    durationParts_eq_none hsome hpart, Bool.false_eq_true, if_false]

/-! ### The texts of numbers, truth values and bytes -/

theorem isBlank_of_isDigit {c : Char} (h : c.isDigit = true) : Text.isBlank c = false := by
  simp only [Char.isDigit, Bool.and_eq_true, decide_eq_true_eq, ge_iff_le,
    UInt32.le_iff_toNat_le] at h
  have hlow : 48 ≤ c.toNat := h.1
  have hhigh : c.toNat ≤ 57 := h.2
  simp [Text.isBlank, Text.inRanges, Text.blankRanges]
  omega

theorem isBlank_of_isNumberChar {c : Char} (h : Decimal.IsNumberChar c) :
    Text.isBlank c = false := by
  rcases h with h | h
  · exact isBlank_of_isDigit h
  · simp only [List.mem_cons, List.not_mem_nil, or_false] at h
    rcases h with rfl | rfl | rfl | rfl <;> decide

theorem notMem_unitLetters_of_isNumberChar {c : Char} (h : Decimal.IsNumberChar c) :
    c ∉ unitLetters := by
  intro hunit
  simp only [unitLetters, List.mem_cons, List.not_mem_nil, or_false] at hunit
  rcases hunit with rfl | rfl | rfl | rfl <;> exact absurd h (by simp [Decimal.IsNumberChar])

/-- The text of a finite floating-point number is no duration. -/
theorem durationOfText_floatText {x : Float} {d : Decimal.Dyadic} (h : Decimal.dyadic? x = some d) :
    durationOfText (floatText x) = .error (.malformed (Text.quoted (floatText x))) := by
  obtain ⟨hchars, hmark⟩ := Decimal.Layout.write_of_dyadic Decimal.displayLayout h
  have hlist : (floatText x).toList = Decimal.displayLayout.write x := String.toList_ofList
  rw [← hlist] at hchars hmark
  have htrim : Text.trimOf Text.isBlank (floatText x).toList = (floatText x).toList :=
    Text.trimOf_eq_self fun c hc => isBlank_of_isNumberChar (hchars c hc)
  have hpart : takePart (floatText x).toList = none :=
    takePart_eq_none fun c hc => notMem_unitLetters_of_isNumberChar (hchars c hc)
  rcases hmark with hpoint | hletter
  · exact durationOfText_eq_malformed htrim hpoint (by decide) hpart
  · exact durationOfText_eq_malformed htrim hletter (by decide) hpart

/-- The text of a truth value is no duration. -/
theorem durationOfText_boolText (b : Bool) :
    durationOfText (boolText b) = .error (.malformed (Text.quoted (boolText b))) := by
  have htrim : Text.trimOf Text.isBlank (boolText b).toList = (boolText b).toList := by
    cases b <;> decide
  cases b with
  | true => exact durationOfText_eq_malformed (c := 'T') htrim (by decide) (by decide) rfl
  | false => exact durationOfText_eq_malformed (c := 'F') htrim (by decide) (by decide) rfl

/-- The text of bytes is no duration. -/
theorem durationOfText_quotedBytes (bs : List UInt8) :
    durationOfText (Text.quotedBytes bs) =
      .error (.malformed (Text.quoted (Text.quotedBytes bs))) := by
  obtain ⟨quote, hquote, inner, hbytes⟩ : ∃ quote, (quote = '"' ∨ quote = '\'') ∧
      ∃ inner, (Text.quotedBytes bs).toList = 'b' :: inner ++ [quote] := by
    unfold Text.quotedBytes
    dsimp only
    refine ⟨_, ?_, _, String.toList_ofList⟩
    unfold Text.quoteFor
    split
    · exact .inl rfl
    · exact .inr rfl
  have hlast : Text.isBlank quote = false := by
    rcases hquote with rfl | rfl <;> decide
  have hletter : 'b' ∈ (Text.quotedBytes bs).toList := by
    rw [hbytes]
    exact List.mem_cons_self
  refine durationOfText_eq_malformed ?_ hletter (by decide) ?_
  · rw [hbytes]
    have hend : ∀ c ∈ ('b' :: inner ++ [quote]).getLast?, Text.isBlank c = false := by
      rw [List.getLast?_concat]
      rintro c ⟨⟩
      exact hlast
    exact Text.trimOf_eq_self_of_ends (by rintro c ⟨⟩; decide) hend
  · rw [hbytes]
    rfl

/-- The digits of a natural number are read as that many seconds. -/
theorem durationOfText_repr (n : Nat) :
    durationOfText (Nat.repr n) = (Duration.ofSeconds n).mapError .ofRange := by
  have hdigits : ∀ c ∈ Nat.toDigits 10 n, c.isDigit = true :=
    fun c hc => Nat.isDigit_of_mem_toDigits (by decide) (by decide) hc
  have htrim : Text.trimOf Text.isBlank (Nat.toDigits 10 n) = Nat.toDigits 10 n :=
    Text.trimOf_eq_self fun c hc => isBlank_of_isDigit (hdigits c hc)
  have hall : (Nat.toDigits 10 n).all Text.isDigit = true :=
    List.all_eq_true.2 fun c hc => by
      rw [Text.isDigit, Text.isDecimal_of_isDigit (hdigits c hc), Bool.true_or]
  have hsome : (Nat.toDigits 10 n).isEmpty = false :=
    List.isEmpty_eq_false_iff.2 Nat.toDigits_ne_nil
  simp only [durationOfText, Nat.toList_repr, htrim, hsome, hall, Text.decimalValue?_toDigits,
    Bool.false_eq_true, if_false, if_true]

/-! ### Values and their texts -/

/-- A value that stands for a duration is a truth value, a number that is finite and not negative,
a text, or bytes. -/
inductive IsDurationValue : Value → Prop where
  | bool (b : Bool) : IsDurationValue (.bool b)
  | int (n : Nat) : IsDurationValue (.int n)
  | float (x : Float) (d : Decimal.Dyadic) : Decimal.dyadic? x = some d → IsDurationValue (.float x)
  | text (s : String) : IsDurationValue (.text s)
  | bytes (bs : List UInt8) : IsDurationValue (.scalar (.bytes bs))

theorem isDurationValue_of_durationOf {v : Value} {d : Duration} (h : durationOf v = .ok d) :
    IsDurationValue v := by
  unfold durationOf at h
  split at h
  · exact .bool _
  · split at h
    · cases h
    · next n hn =>
      obtain ⟨k, rfl⟩ := Int.eq_ofNat_of_zero_le (Int.not_lt.1 hn)
      exact .int k
  · split at h
    · cases h
    · next x _ =>
      cases hx : Decimal.dyadic? x with
      | none =>
        rw [Duration.ofFloat, hx] at h
        cases h
      | some e => exact .float x e hx
  · exact .text _
  · exact .bytes _
  · cases h

/-- The text of a value is read as the value is, or not at all. -/
theorem durationOfText_display {v : Value} {d : Duration} (h : durationOf v = .ok d) :
    (durationOfText v.display = .ok d ∧ ((∃ s, v = .text s) ∨ ∃ n, v = .int n)) ∨
      (durationOfText v.display = .error (.malformed (Text.quoted v.display)) ∧
        ((∃ x, v = .float x) ∨ (∃ b, v = .bool b) ∨ ∃ bs, v = .scalar (.bytes bs))) := by
  cases isDurationValue_of_durationOf h with
  | bool b => exact .inr ⟨durationOfText_boolText b, .inr (.inl ⟨b, rfl⟩)⟩
  | int n => exact .inl ⟨(durationOfText_repr n).trans h, .inr ⟨n, rfl⟩⟩
  | float x e hx => exact .inr ⟨durationOfText_floatText hx, .inl ⟨x, rfl⟩⟩
  | text s => exact .inl ⟨h, .inl ⟨s, rfl⟩⟩
  | bytes bs => exact .inr ⟨durationOfText_quotedBytes bs, .inr (.inr ⟨bs, rfl⟩)⟩

end ApiShell.Time
