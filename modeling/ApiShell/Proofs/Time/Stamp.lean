import ApiShell.Proofs.Time.Calendar
import ApiShell.Time.Stamp
import Mathlib.Algebra.Order.Ring.Nat

/-!
# Moments that are read back

The short text of a moment of universal time is read as this moment.  Each reader of a part takes
the text of the part off the beginning and leaves what follows.
-/

namespace ApiShell.Time

/-! ### Numbers of a fixed width -/

theorem toList_padded (width n : Nat) :
    (padded width n).toList =
      List.replicate (width - (Nat.toDigits 10 n).length) '0' ++ Nat.toDigits 10 n := by
  rw [padded, String.toList_ofList, Nat.toList_repr]

theorem length_toList_padded {width n : Nat} (hwidth : 0 < width) (h : n < 10 ^ width) :
    (padded width n).toList.length = width := by
  have hle := (Nat.length_toDigits_le_iff (by decide) hwidth).2 h
  rw [toList_padded, List.length_append, List.length_replicate]
  omega

theorem isDigit_of_mem_padded {width n : Nat} {c : Char} (h : c ∈ (padded width n).toList) :
    c.isDigit = true := by
  rw [toList_padded] at h
  rcases List.mem_append.1 h with hzero | hdigit
  · rw [List.eq_of_mem_replicate hzero]
    decide
  · exact Nat.isDigit_of_mem_toDigits (by decide) (by decide) hdigit

/-- A padded number is read as the number. -/
theorem digitsValue?_padded (width n : Nat) : digitsValue? (padded width n).toList = some n := by
  have hall : (padded width n).toList.all Char.isDigit = true :=
    List.all_eq_true.2 fun c hc => isDigit_of_mem_padded hc
  have hsome : (padded width n).toList.isEmpty = false := by
    rw [toList_padded, List.isEmpty_eq_false_iff]
    exact List.append_ne_nil_of_right_ne_nil _ Nat.toDigits_ne_nil
  have hvalue : Nat.ofDigitChars 10 (padded width n).toList 0 = n := by
    rw [toList_padded, Nat.ofDigitChars_append, Nat.ofDigitChars_replicate_zero, Nat.mul_zero,
      Nat.ofDigitChars_ten_toDigits]
  rw [digitsValue?, hall, hsome]
  exact congrArg some hvalue

/-- A padded number is taken off the beginning. -/
theorem takeDigits?_padded {width n : Nat} (hwidth : 0 < width) (h : n < 10 ^ width)
    (rest : List Char) :
    takeDigits? width ((padded width n).toList ++ rest) = some (n, rest) := by
  have hlength := length_toList_padded hwidth h
  rw [takeDigits?, List.take_left' hlength, List.drop_left' hlength, if_pos hlength, digitsValue?_padded]
  rfl

/-! ### The parts of a moment -/

theorem Date.toList_text (d : Date) : d.text.toList =
    (padded 4 d.year).toList ++ '-' :: ((padded 2 d.month).toList ++ '-' ::
      (padded 2 d.day).toList) := by
  have htext : d.text = padded 4 d.year ++ "-" ++ padded 2 d.month ++ "-" ++ padded 2 d.day := rfl
  have hyphen : "-".toList = ['-'] := rfl
  rw [htext]
  simp only [String.toList_append, hyphen, List.append_assoc, List.cons_append, List.nil_append]

theorem daysInMonth_le (year month : Nat) : daysInMonth year month ≤ 31 := by
  unfold daysInMonth
  split
  · split <;> decide
  · split <;> decide

/-- A day is taken off the beginning. -/
theorem takeDate?_text {d : Date} (h : d.IsValid) (rest : List Char) :
    takeDate? (d.text.toList ++ rest) = some (d, rest) := by
  have hyear : d.year < 10 ^ 4 := Nat.lt_of_le_of_lt h.year_le (by decide)
  have hmonth : d.month < 10 ^ 2 := Nat.lt_of_le_of_lt h.month_le (by decide)
  have hday : d.day < 10 ^ 2 :=
    Nat.lt_of_le_of_lt (Nat.le_trans h.day_le (daysInMonth_le _ _)) (by decide)
  rw [Date.toList_text, takeDate?, List.append_assoc, takeDigits?_padded (by decide) hyear]
  simp only [Option.bind_eq_bind, Option.bind_some, List.cons_append, List.append_assoc, takeChar?,
    BEq.rfl, if_true, takeDigits?_padded (by decide : 0 < 2) hmonth,
    takeDigits?_padded (by decide : 0 < 2) hday, h.make_eq]

/-- The fraction of a second in a text, where there is one. -/
def fractionText (micro : Nat) : String := if micro = 0 then "" else s!".{padded 6 micro}"

/-- Seconds with their fraction are taken off the beginning of a text that ends with a letter. -/
theorem takeSeconds?_clock {second micro : Nat} (hsecond : second < 60) (hmicro : micro < 1000000) :
    takeSeconds? (':' :: ((padded 2 second).toList ++ ((fractionText micro).toList ++ ['Z']))) =
      some ((second, micro), ['Z']) := by
  have htake (rest : List Char) :
      takeDigits? 2 ((padded 2 second).toList ++ rest) = some (second, rest) :=
    takeDigits?_padded (by decide) (by omega) rest
  rw [takeSeconds?]
  simp only [takeChar?, BEq.rfl, if_true, htake, Option.bind_eq_bind, Option.bind_some]
  by_cases hzero : micro = 0
  · rw [fractionText, if_pos hzero, hzero]
    rfl
  · have hfraction : (fractionText micro).toList = '.' :: (padded 6 micro).toList := by
      rw [fractionText, if_neg hzero]
      exact String.toList_append
    have hlength : (padded 6 micro).toList.length = 6 :=
      length_toList_padded (by decide) (by omega)
    have hdigits : ((padded 6 micro).toList ++ ['Z']).takeWhile Char.isDigit =
        (padded 6 micro).toList := by
      rw [List.takeWhile_append_of_pos fun c hc => isDigit_of_mem_padded hc,
        List.takeWhile_cons_of_neg (by decide), List.append_nil]
    have hsome : (padded 6 micro).toList.isEmpty = false := by
      rw [List.isEmpty_eq_false_iff, ← List.length_pos_iff, hlength]
      decide
    have hwhole : (padded 6 micro).toList.take 6 ++
        List.replicate (6 - (padded 6 micro).toList.length) '0' = (padded 6 micro).toList := by
      rw [hlength, List.take_of_length_le (Nat.le_of_eq hlength), Nat.sub_self, List.replicate_zero,
        List.append_nil]
    rw [hfraction]
    simp only [List.cons_append, hdigits, hwhole, digitsValue?_padded, hsome, List.drop_left, BEq.rfl,
      Bool.true_or, if_true, Option.bind_some]
    rfl

/-- A moment of universal time as a text. -/
theorem Moment.IsUniversal.toList_shortText {m : Moment} (h : m.IsUniversal) : m.shortText.toList =
    m.date.text.toList ++ 'T' :: ((padded 2 m.hour).toList ++ ':' ::
      ((padded 2 m.minute).toList ++ ':' ::
        ((padded 2 m.second).toList ++ ((fractionText m.micro).toList ++ ['Z'])))) := by
  have htext : m.shortText = m.date.text ++ "T" ++ (padded 2 m.hour ++ ":" ++ padded 2 m.minute ++
      ":" ++ padded 2 m.second ++ fractionText m.micro) ++ "Z" := by
    rw [Moment.shortText, h.offset]
    rfl
  have hdate : "T".toList = ['T'] := rfl
  have hclock : ":".toList = [':'] := rfl
  have hzone : "Z".toList = ['Z'] := rfl
  rw [htext]
  simp only [String.toList_append, hdate, hclock, hzone, List.append_assoc, List.cons_append,
    List.nil_append]

/-- The short text of a moment of universal time writes this moment. -/
theorem Moment.IsUniversal.momentOfText?_shortText {m : Moment} (h : m.IsUniversal) :
    momentOfText? m.shortText.toList = some m := by
  have hmake : Moment.make m.date m.hour m.minute m.second m.micro (some 0) = .ok m := by
    have hhour : ¬ m.hour > 23 := by have := h.hour_lt; omega
    have hminute : ¬ m.minute > 59 := by have := h.minute_lt; omega
    have hsecond : ¬ m.second > 59 := by have := h.second_lt; omega
    rw [Moment.make, if_neg hhour, if_neg hminute, if_neg hsecond, ← h.offset]
  have hhour (rest : List Char) :
      takeDigits? 2 ((padded 2 m.hour).toList ++ rest) = some (m.hour, rest) :=
    takeDigits?_padded (by decide) (by have := h.hour_lt; omega) rest
  have hminute (rest : List Char) :
      takeDigits? 2 ((padded 2 m.minute).toList ++ rest) = some (m.minute, rest) :=
    takeDigits?_padded (by decide) (by have := h.minute_lt; omega) rest
  have hstamp : stampOf? m.shortText.toList = some m := by
    have hletter : ['T', 't', ' ', '_'].contains 'T' = true := rfl
    have hzone : offsetOf? ['Z'] = some (some 0) := rfl
    rw [h.toList_shortText, stampOf?]
    simp only [takeDate?_text h.date, Option.bind_eq_bind, Option.bind_some, takeChar?, hletter, hhour,
      hminute, BEq.rfl, if_true, takeSeconds?_clock h.second_lt h.micro_lt, hzone, hmake]
  rw [momentOfText?, hstamp]

end ApiShell.Time
