import ApiShell.Proofs.Decimal.Magnitude
import ApiShell.Proofs.Text.Digit
import ApiShell.Proofs.Time.DurationText

/-!
# The grammar of durations

The text of a duration is a numeral, or one or more parts with nothing between them: a numeral, maybe a
point and another numeral, and a unit.  Reading takes one part after the other from the front, and each
time it takes as much as it can.  It never takes too much: behind a part the text ends or goes on with
a digit, and no unit and no point is a digit (`takePart_append`).  So every text of the grammar is read,
and what is read is of the grammar (`exists_durationParts_iff`).

Each part is worth a magnitude, and so is their sum.  It may be too large for a duration, but it is
never a value that is no number (`isMagnitude_chainSeconds`).  So reading a text of the grammar gives a
duration or overflows.
-/

namespace ApiShell.Time

variable {cs rest : List Char}

/-! ### The grammar -/

/-- One or more decimal digits. -/
def IsNumeral (cs : List Char) : Prop := cs ≠ [] ∧ ∀ c ∈ cs, Text.isDecimal c = true

/-- The names of the units. -/
def unitNames : List (List Char) := [['m', 's'], ['s'], ['m'], ['h'], ['d']]

/-- A numeral, maybe with a fraction, and a unit. -/
inductive IsPart : List Char → Prop
  | whole {digits name : List Char} (hdigits : IsNumeral digits) (hname : name ∈ unitNames) :
      IsPart (digits ++ name)
  | fractional {digits decimals name : List Char} (hdigits : IsNumeral digits)
      (hdecimals : IsNumeral decimals) (hname : name ∈ unitNames) :
      IsPart (digits ++ '.' :: (decimals ++ name))

/-- One or more parts with nothing between them. -/
def IsChain (cs : List Char) : Prop :=
  ∃ parts : List (List Char), parts ≠ [] ∧ (∀ part ∈ parts, IsPart part) ∧ parts.flatten = cs

/-- What the text of a duration looks like, without blanks around it. -/
def IsDurationForm (cs : List Char) : Prop := IsNumeral cs ∨ IsChain cs

theorem IsPart.startsWithDigit {part : List Char} (h : IsPart part) :
    ∃ c tail, part = c :: tail ∧ Text.isDecimal c = true := by
  cases h with
  | whole hdigits =>
    obtain ⟨c, tail, rfl⟩ := List.exists_cons_of_ne_nil hdigits.1
    exact ⟨c, _, rfl, hdigits.2 c List.mem_cons_self⟩
  | fractional hdigits =>
    obtain ⟨c, tail, rfl⟩ := List.exists_cons_of_ne_nil hdigits.1
    exact ⟨c, _, rfl, hdigits.2 c List.mem_cons_self⟩

theorem head?_flatten_of_isPart {parts : List (List Char)} (h : ∀ part ∈ parts, IsPart part) :
    ∀ c ∈ parts.flatten.head?, Text.isDecimal c = true := by
  intro c hc
  cases parts with
  | nil => cases hc
  | cons part parts =>
    obtain ⟨d, tail, rfl, hd⟩ := (h part List.mem_cons_self).startsWithDigit
    obtain rfl : d = c := Option.some.inj hc
    exact hd

/-! ### Taking a part -/

/-- A run of digits is taken as a whole where no digit follows. -/
theorem span_isDecimal_append {digits : List Char} (h : IsNumeral digits)
    (hrest : ∀ c ∈ rest.head?, Text.isDecimal c = false) :
    (digits ++ rest).span Text.isDecimal = (digits, rest) := by
  rw [List.span_eq_takeWhile_dropWhile, List.takeWhile_append_of_pos h.2, List.dropWhile_append_of_pos h.2]
  cases rest with
  | nil => simp
  | cons c rest =>
    have hc : Text.isDecimal c = false := hrest c rfl
    simp [hc]

/-- The name of a unit is taken, and only the name. -/
theorem takeUnit_append {name : List Char} (hname : name ∈ unitNames)
    (hrest : ∀ c ∈ rest.head?, Text.isDecimal c = true) :
    ∃ unit, takeUnit (name ++ rest) = some (unit, rest) := by
  simp only [unitNames, List.mem_cons, List.not_mem_nil, or_false] at hname
  rcases hname with rfl | rfl | rfl | rfl | rfl
  · exact ⟨.millisecond, rfl⟩
  · exact ⟨.second, rfl⟩
  · -- Minutes are not taken for milliseconds, since no digit is an `s`.
    refine ⟨.minute, ?_⟩
    show takeUnit ('m' :: rest) = _
    unfold takeUnit
    split
    · next heq =>
      obtain rfl := (List.cons.inj heq).2
      exact absurd (hrest 's' rfl) (by decide)
    all_goals simp_all
  · exact ⟨.hour, rfl⟩
  · exact ⟨.day, rfl⟩

theorem of_takeUnit {unit : DurationUnit} (h : takeUnit cs = some (unit, rest)) :
    ∃ name ∈ unitNames, cs = name ++ rest := by
  unfold takeUnit at h
  split at h
  case h_1 =>
    obtain ⟨rfl, rfl⟩ := Prod.mk.inj (Option.some.inj h)
    exact ⟨['m', 's'], by decide, rfl⟩
  case h_2 =>
    obtain ⟨rfl, rfl⟩ := Prod.mk.inj (Option.some.inj h)
    exact ⟨['s'], by decide, rfl⟩
  case h_3 =>
    obtain ⟨rfl, rfl⟩ := Prod.mk.inj (Option.some.inj h)
    exact ⟨['m'], by decide, rfl⟩
  case h_4 =>
    obtain ⟨rfl, rfl⟩ := Prod.mk.inj (Option.some.inj h)
    exact ⟨['h'], by decide, rfl⟩
  case h_5 =>
    obtain ⟨rfl, rfl⟩ := Prod.mk.inj (Option.some.inj h)
    exact ⟨['d'], by decide, rfl⟩
  case h_6 => cases h

/-- A unit begins with neither a digit nor a point. -/
theorem head_of_mem_unitNames {name : List Char} (h : name ∈ unitNames) :
    ∃ c tail, name = c :: tail ∧ Text.isDecimal c = false ∧ c ≠ '.' := by
  simp only [unitNames, List.mem_cons, List.not_mem_nil, or_false] at h
  rcases h with rfl | rfl | rfl | rfl | rfl <;> exact ⟨_, _, rfl, by decide, by decide⟩

theorem takePart_eq {digits : List Char} (h : (cs.span Text.isDecimal) = (digits, rest))
    (hdigits : digits ≠ []) :
    takePart cs = (takeUnit (takeFraction rest).2).map
      fun r => (⟨digits, (takeFraction rest).1, r.1⟩, r.2) := by
  unfold takePart
  rw [h]
  cases digits with
  | nil => exact absurd rfl hdigits
  | cons c digits => rfl

theorem takePart_whole {digits name : List Char} (hdigits : IsNumeral digits)
    (hname : name ∈ unitNames) (hrest : ∀ c ∈ rest.head?, Text.isDecimal c = true) :
    ∃ p, takePart ((digits ++ name) ++ rest) = some (p, rest) := by
  obtain ⟨unit, hunit⟩ := takeUnit_append hname hrest
  obtain ⟨c, tail, rfl, hc, hpoint⟩ := head_of_mem_unitNames hname
  have hspan : ((digits ++ c :: tail) ++ rest).span Text.isDecimal = (digits, (c :: tail) ++ rest) := by
    rw [List.append_assoc]
    apply span_isDecimal_append hdigits
    rintro d ⟨⟩
    exact hc
  have hfraction : takeFraction ((c :: tail) ++ rest) = ([], (c :: tail) ++ rest) := by
    unfold takeFraction
    split
    · next heq => exact absurd (List.cons.inj heq).1 hpoint
    · rfl
  rw [takePart_eq hspan hdigits.1, hfraction, hunit]
  exact ⟨_, rfl⟩

theorem takePart_fractional {digits decimals name : List Char} (hdigits : IsNumeral digits)
    (hdecimals : IsNumeral decimals) (hname : name ∈ unitNames)
    (hrest : ∀ c ∈ rest.head?, Text.isDecimal c = true) :
    ∃ p, takePart ((digits ++ '.' :: (decimals ++ name)) ++ rest) = some (p, rest) := by
  obtain ⟨unit, hunit⟩ := takeUnit_append hname hrest
  obtain ⟨c, tail, rfl, hc, -⟩ := head_of_mem_unitNames hname
  have hspan : ((digits ++ '.' :: (decimals ++ c :: tail)) ++ rest).span Text.isDecimal =
      (digits, '.' :: (decimals ++ (c :: tail) ++ rest)) := by
    rw [List.append_assoc]
    apply span_isDecimal_append hdigits
    rintro d ⟨⟩
    decide
  have hdecimalSpan : (decimals ++ (c :: tail) ++ rest).span Text.isDecimal =
      (decimals, (c :: tail) ++ rest) := by
    rw [List.append_assoc]
    apply span_isDecimal_append hdecimals
    rintro d ⟨⟩
    exact hc
  have hfraction : takeFraction ('.' :: (decimals ++ (c :: tail) ++ rest)) =
      (decimals, (c :: tail) ++ rest) := by
    rw [takeFraction, hdecimalSpan]
    cases decimals with
    | nil => exact absurd rfl hdecimals.1
    | cons d decimals => rfl
  rw [takePart_eq hspan hdigits.1, hfraction, hunit]
  exact ⟨_, rfl⟩

/-- A part is taken as a whole where the text ends or goes on with a digit. -/
theorem takePart_append {part : List Char} (h : IsPart part)
    (hrest : ∀ c ∈ rest.head?, Text.isDecimal c = true) :
    ∃ p, takePart (part ++ rest) = some (p, rest) := by
  cases h with
  | whole hdigits hname => exact takePart_whole hdigits hname hrest
  | fractional hdigits hdecimals hname => exact takePart_fractional hdigits hdecimals hname hrest

theorem isNumeral_of_span {digits : List Char} (h : cs.span Text.isDecimal = (digits, rest))
    (hsome : digits ≠ []) : IsNumeral digits ∧ cs = digits ++ rest := by
  rw [List.span_eq_takeWhile_dropWhile] at h
  obtain ⟨rfl, rfl⟩ := Prod.mk.inj h
  exact ⟨⟨hsome, fun c hc => List.mem_takeWhile_imp hc⟩, List.takeWhile_append_dropWhile.symm⟩

/-- What is taken is a part. -/
theorem of_takePart {p : DurationPart} (h : takePart cs = some (p, rest)) :
    ∃ part, IsPart part ∧ cs = part ++ rest := by
  cases hspan : cs.span Text.isDecimal with
  | mk digits tail =>
    have hsome : digits ≠ [] := by
      rintro rfl
      unfold takePart at h
      rw [hspan] at h
      cases h
    obtain ⟨hdigits, rfl⟩ := isNumeral_of_span hspan hsome
    rw [takePart_eq hspan hsome] at h
    obtain ⟨⟨unit, after⟩, hunit, heq⟩ := Option.map_eq_some_iff.1 h
    obtain ⟨-, rfl⟩ := Prod.mk.inj heq
    obtain ⟨name, hname, htail⟩ := of_takeUnit hunit
    unfold takeFraction at htail
    split at htail
    · next behind =>
      split at htail
      · exact ⟨_, .whole hdigits hname, by rw [List.append_assoc, ← htail]⟩
      · next hdecimals =>
        cases hfraction : behind.span Text.isDecimal with
        | mk decimals beyond =>
          have hnonempty : decimals ≠ [] := by
            rintro rfl
            exact hdecimals _ hfraction
          obtain ⟨hnumeral, rfl⟩ := isNumeral_of_span hfraction hnonempty
          rw [hfraction] at htail
          obtain rfl : beyond = name ++ after := htail
          refine ⟨_, .fractional hdigits hnumeral hname, ?_⟩
          simp
    · exact ⟨_, .whole hdigits hname, by rw [List.append_assoc, ← htail]⟩

/-! ### Taking the parts one after the other -/

theorem of_partsFrom {fuel : ℕ} {parts : List DurationPart} (h : partsFrom fuel cs = some parts) :
    ∃ pieces : List (List Char), (∀ piece ∈ pieces, IsPart piece) ∧ pieces.flatten = cs := by
  induction fuel generalizing cs parts with
  | zero => cases h
  | succ fuel ih =>
    rw [partsFrom] at h
    split at h
    · next hempty =>
      obtain rfl := List.isEmpty_iff.1 hempty
      exact ⟨[], List.forall_mem_nil _, rfl⟩
    · obtain ⟨⟨part, rest⟩, hpart, h⟩ := Option.bind_eq_some_iff.1 h
      obtain ⟨following, hfollowing, -⟩ := Option.bind_eq_some_iff.1 h
      obtain ⟨piece, hpiece, rfl⟩ := of_takePart hpart
      obtain ⟨pieces, hpieces, rfl⟩ := ih hfollowing
      exact ⟨piece :: pieces, List.forall_mem_cons.2 ⟨hpiece, hpieces⟩, rfl⟩

theorem exists_partsFrom {pieces : List (List Char)} (h : ∀ piece ∈ pieces, IsPart piece) {fuel : ℕ}
    (hfuel : pieces.flatten.length < fuel) : ∃ parts, partsFrom fuel pieces.flatten = some parts := by
  induction pieces generalizing fuel with
  | nil =>
    obtain ⟨fuel, rfl⟩ := Nat.exists_eq_succ_of_ne_zero (Nat.ne_of_gt hfuel)
    exact ⟨[], rfl⟩
  | cons piece pieces ih =>
    obtain ⟨hpiece, hpieces⟩ := List.forall_mem_cons.1 h
    obtain ⟨fuel, rfl⟩ := Nat.exists_eq_succ_of_ne_zero (Nat.ne_of_gt (Nat.zero_lt_of_lt hfuel))
    obtain ⟨part, hpart⟩ := takePart_append hpiece (head?_flatten_of_isPart hpieces)
    obtain ⟨c, tail, rfl, -⟩ := hpiece.startsWithDigit
    have hless : pieces.flatten.length < fuel := by
      rw [List.flatten_cons, List.length_append, List.length_cons] at hfuel
      omega
    obtain ⟨following, hfollowing⟩ := ih hpieces hless
    refine ⟨part :: following, ?_⟩
    rw [List.flatten_cons, partsFrom, if_neg (by simp), hpart]
    simp [hfollowing]

/-- A text is read as a chain of parts if and only if it is empty or one. -/
theorem exists_durationParts_iff (hsome : cs ≠ []) :
    (∃ parts, durationParts cs = some parts) ↔ IsChain cs := by
  constructor
  · rintro ⟨parts, h⟩
    obtain ⟨pieces, hpieces, rfl⟩ := of_partsFrom h
    refine ⟨pieces, ?_, hpieces, rfl⟩
    rintro rfl
    exact hsome rfl
  · rintro ⟨pieces, -, hpieces, rfl⟩
    exact exists_partsFrom hpieces (Nat.lt_succ_self _)

/-! ### Seconds -/

theorem isPositive_seconds (unit : DurationUnit) : Decimal.IsPositive unit.seconds := by
  cases unit <;> exact ⟨_, _, _, rfl⟩

theorem isMagnitude_chainSeconds (parts : List DurationPart) :
    Decimal.IsMagnitude (chainSeconds parts) := by
  unfold chainSeconds
  have hzero : Decimal.IsMagnitude 0.0 := rfl
  generalize (0.0 : Float) = sum at hzero ⊢
  induction parts generalizing sum with
  | nil => exact hzero
  | cons part parts ih =>
    apply ih
    apply hzero.add
    apply Decimal.IsMagnitude.mul _ (isPositive_seconds part.unit)
    exact Decimal.isMagnitude_ofDecimal _ _

theorem ofMicros_ok_or_tooLong (n : ℕ) :
    (∃ d, Duration.ofMicros n = .ok d) ∨ Duration.ofMicros n = .error .tooLong := by
  unfold Duration.ofMicros
  split
  · exact .inl ⟨_, rfl⟩
  · exact .inr rfl

/-- A whole number of seconds is a duration, or it is too long for one. -/
theorem ofSeconds_ok_or_tooLong (n : ℕ) :
    (∃ d, Duration.ofSeconds n = .ok d) ∨ Duration.ofSeconds n = .error .tooLong :=
  ofMicros_ok_or_tooLong _

/-- A magnitude of seconds is a duration, or it is too long for one. -/
theorem ofFloat_ok_or_tooLong {x : Float} (h : Decimal.IsMagnitude x) :
    (∃ d, Duration.ofFloat x = .ok d) ∨ Duration.ofFloat x = .error .tooLong := by
  unfold Duration.ofFloat
  split
  · rw [h.isNotANumber]
    exact .inr rfl
  · exact ofMicros_ok_or_tooLong _

theorem mapError_ok_or_tooLong {answer : Except Duration.RangeError Duration}
    (h : (∃ d, answer = .ok d) ∨ answer = .error .tooLong) :
    (∃ d, answer.mapError DurationError.ofRange = .ok d) ∨
      answer.mapError DurationError.ofRange = .error .tooLong := by
  rcases h with ⟨d, rfl⟩ | rfl
  · exact .inl ⟨d, rfl⟩
  · exact .inr rfl

/-! ### Texts -/

theorem decimalValue?_of_isDecimal (h : ∀ c ∈ cs, Text.isDecimal c = true) :
    ∃ n, Text.decimalValue? cs = some n := by
  unfold Text.decimalValue?
  generalize 0 = start
  induction cs generalizing start with
  | nil => exact ⟨start, rfl⟩
  | cons c cs ih =>
    obtain ⟨hc, hcs⟩ := List.forall_mem_cons.1 h
    obtain ⟨digit, hdigit⟩ := Option.isSome_iff_exists.1 hc
    obtain ⟨n, hn⟩ := ih hcs (10 * start + digit)
    refine ⟨n, ?_⟩
    rw [List.foldl_cons, ← hn, hdigit]
    rfl

theorem IsChain.ne_nil (h : IsChain cs) : cs ≠ [] := by
  obtain ⟨parts, hparts, hall, rfl⟩ := h
  obtain ⟨part, parts, rfl⟩ := List.exists_cons_of_ne_nil hparts
  obtain ⟨c, tail, rfl, -⟩ := (hall part List.mem_cons_self).startsWithDigit
  simp

/-- A chain has a unit, and no unit is a digit of any kind. -/
theorem IsChain.all_isDigit (h : IsChain cs) : cs.all Text.isDigit = false := by
  obtain ⟨parts, hparts, hall, rfl⟩ := h
  obtain ⟨part, parts, rfl⟩ := List.exists_cons_of_ne_nil hparts
  obtain ⟨name, hname, hsub⟩ : ∃ name ∈ unitNames, name ⊆ part := by
    cases hall part List.mem_cons_self with
    | whole _ hname => exact ⟨_, hname, fun c hc => by simp [hc]⟩
    | fractional _ _ hname => exact ⟨_, hname, fun c hc => by simp [hc]⟩
  have hletter : ∃ c ∈ name, Text.isDigit c = false := by
    simp only [unitNames, List.mem_cons, List.not_mem_nil, or_false] at hname
    rcases hname with rfl | rfl | rfl | rfl | rfl <;> exact ⟨_, List.mem_cons_self, by decide⟩
  obtain ⟨c, hc, hdigit⟩ := hletter
  apply List.all_eq_false.2
  refine ⟨c, ?_, by simp [hdigit]⟩
  rw [List.flatten_cons]
  exact List.mem_append_left _ (hsub hc)

theorem IsNumeral.all_isDigit (h : IsNumeral cs) : cs.all Text.isDigit = true := by
  apply List.all_eq_true.2
  intro c hc
  rw [Text.isDigit, h.2 c hc]
  rfl

/-- A text of the grammar is a duration, or it overflows. -/
theorem durationOfText_of_isDurationForm {s : String}
    (h : IsDurationForm (Text.trimOf Text.isBlank s.toList)) :
    (∃ d, durationOfText s = .ok d) ∨ durationOfText s = .error .tooLong := by
  unfold durationOfText
  generalize Text.trimOf Text.isBlank s.toList = cs at h ⊢
  dsimp only
  rcases h with h | h
  · obtain ⟨n, hn⟩ := decimalValue?_of_isDecimal h.2
    rw [if_neg (by simp [h.1]), if_pos h.all_isDigit, hn]
    exact mapError_ok_or_tooLong (ofSeconds_ok_or_tooLong n)
  · obtain ⟨parts, hparts⟩ := (exists_durationParts_iff h.ne_nil).2 h
    rw [if_neg (by simp [h.ne_nil]), h.all_isDigit, if_neg Bool.false_ne_true, hparts]
    exact mapError_ok_or_tooLong (ofFloat_ok_or_tooLong (isMagnitude_chainSeconds parts))

/-- Any other text is a bad value. -/
theorem durationOfText_of_not_isDurationForm {s : String}
    (h : ¬ IsDurationForm (Text.trimOf Text.isBlank s.toList)) :
    ∃ error message, durationOfText s = .error error ∧ error.defect = .badValue message := by
  unfold durationOfText
  generalize Text.trimOf Text.isBlank s.toList = cs at h ⊢
  dsimp only
  split
  · exact ⟨_, _, rfl, rfl⟩
  next hempty =>
  have hsome : cs ≠ [] := fun hnil => hempty (List.isEmpty_iff.2 hnil)
  split
  · split
    · next n hn => exact absurd (.inl ⟨hsome, Text.isDecimal_of_decimalValue? hn⟩) h
    · exact ⟨_, _, rfl, rfl⟩
  · split
    · next parts hparts => exact absurd (.inr ((exists_durationParts_iff hsome).1 ⟨parts, hparts⟩)) h
    · exact ⟨_, _, rfl, rfl⟩

/-- A text is accepted, which is to say that it is a duration or overflows, if it belongs to the grammar
when the blanks around it are dropped, and only then.  Any other text is a bad value. -/
theorem durationOf_text_outcome (s : String) :
    let answer := (durationOf (.text s)).mapError DurationError.defect
    let cs := Text.trimOf Text.isBlank s.toList
    ((∃ d, answer = .ok d) ∨ answer = .error .outOfRange → IsDurationForm cs) ∧
      (IsDurationForm cs → (∀ run ∈ Text.runs Text.isDecimal cs, run.length ≤ 300) →
        (∃ d, answer = .ok d) ∨ answer = .error .outOfRange) ∧
      (¬ IsDurationForm cs → ∃ message, answer = .error (.badValue message)) := by
  intro answer cs
  have haccepted (h : IsDurationForm cs) : (∃ d, answer = .ok d) ∨ answer = .error .outOfRange := by
    rcases durationOfText_of_isDurationForm h with ⟨d, hd⟩ | hd
    · exact .inl ⟨d, by simp [answer, durationOf, hd, Except.mapError]⟩
    · exact .inr (by simp [answer, durationOf, hd, Except.mapError, DurationError.defect])
  have hrefused (h : ¬ IsDurationForm cs) : ∃ message, answer = .error (.badValue message) := by
    obtain ⟨error, message, herror, hmessage⟩ := durationOfText_of_not_isDurationForm h
    exact ⟨message, by simp [answer, durationOf, herror, Except.mapError, hmessage]⟩
  refine ⟨?_, fun h _ => haccepted h, hrefused⟩
  intro h
  by_contra hform
  obtain ⟨message, hmessage⟩ := hrefused hform
  rcases h with ⟨d, hd⟩ | hd
  · rw [hmessage] at hd
    cases hd
  · rw [hmessage] at hd
    cases hd

/-- An hour and a half is accepted when it is written without a gap, and it is refused with one. -/
theorem durationOf_text_outcome_halfPast :
    (IsDurationForm (Text.trimOf Text.isBlank " 1h30.5m".toList) ∧
      ((∃ d, (durationOf (.text " 1h30.5m")).mapError DurationError.defect = .ok d) ∨
        (durationOf (.text " 1h30.5m")).mapError DurationError.defect = .error .outOfRange)) ∧
    (¬ IsDurationForm (Text.trimOf Text.isBlank "1h 30m".toList) ∧
      ∃ message, (durationOf (.text "1h 30m")).mapError DurationError.defect =
        .error (.badValue message)) := by
  have hnumeral {cs : List Char} (hsome : cs ≠ []) (hall : cs.all Text.isDecimal = true) :
      IsNumeral cs := ⟨hsome, List.all_eq_true.1 hall⟩
  have hform : IsDurationForm (Text.trimOf Text.isBlank " 1h30.5m".toList) := by
    refine .inr ⟨[['1'] ++ ['h'], ['3', '0'] ++ '.' :: (['5'] ++ ['m'])], by decide, ?_, by decide⟩
    intro part hpart
    rcases List.mem_cons.1 hpart with rfl | hpart
    · exact .whole (hnumeral (by decide) (by decide)) (by decide)
    · obtain rfl := List.mem_singleton.1 hpart
      exact .fractional (hnumeral (by decide) (by decide)) (hnumeral (by decide) (by decide)) (by decide)
  have hgap : ¬ IsDurationForm (Text.trimOf Text.isBlank "1h 30m".toList) := by
    rintro (h | h)
    · exact absurd (h.2 'h' (by decide)) (by decide)
    · obtain ⟨parts, hparts⟩ := (exists_durationParts_iff h.ne_nil).2 h
      have hnone : durationParts (Text.trimOf Text.isBlank "1h 30m".toList) = none := by decide
      rw [hnone] at hparts
      cases hparts
  exact ⟨⟨hform, (durationOf_text_outcome " 1h30.5m").2.1 hform (by decide)⟩,
    hgap, (durationOf_text_outcome "1h 30m").2.2 hgap⟩

end ApiShell.Time
