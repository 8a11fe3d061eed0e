import ApiShell.Cache.Provider
import ApiShell.Time.Calendar

/-!
# Days and moments by their numbers

The day with a number is found in two steps: a search over thirty years from a guess that is never
too late, and a walk through the months of the year that was found.  Both steps keep what is needed
to say that the day found is a day of the calendar and has the number that was looked for.

A moment that is made from a place on the line of universal time lies at that place.
-/

namespace ApiShell.Time

/-! ### Lengths of months and years -/

/-- A day of the calendar. -/
structure Date.IsValid (d : Date) : Prop where
  one_le_year : 1 ≤ d.year
  year_le : d.year ≤ 9999
  one_le_month : 1 ≤ d.month
  month_le : d.month ≤ 12
  one_le_day : 1 ≤ d.day
  day_le : d.day ≤ daysInMonth d.year d.month

/-- The numbers of a day of the calendar pass their check. -/
theorem Date.IsValid.make_eq {d : Date} (h : d.IsValid) :
    Date.make d.year d.month d.day = .ok d := by
  have hyear : (decide (d.year < 1) || decide (d.year > 9999)) = false := by
    have := h.one_le_year
    have := h.year_le
    simp only [Bool.or_eq_false_iff, decide_eq_false_iff_not]
    omega
  have hmonth : (decide (d.month < 1) || decide (d.month > 12)) = false := by
    have := h.one_le_month
    have := h.month_le
    simp only [Bool.or_eq_false_iff, decide_eq_false_iff_not]
    omega
  have hday : (decide (d.day < 1) || decide (d.day > daysInMonth d.year d.month)) = false := by
    have := h.one_le_day
    have := h.day_le
    simp only [Bool.or_eq_false_iff, decide_eq_false_iff_not]
    omega
  rw [Date.make, hyear, hmonth, hday]
  rfl

/-- The number of days of a year. -/
def daysInYear (year : Nat) : Nat := if isLeap year then 366 else 365

theorem daysBeforeMonth_one (year : Nat) : daysBeforeMonth year 1 = 0 := rfl

theorem daysBeforeMonth_succ (year : Nat) {month : Nat} (h : 1 ≤ month) :
    daysBeforeMonth year (month + 1) = daysBeforeMonth year month + daysInMonth year month := by
  obtain ⟨m, rfl⟩ := Nat.exists_eq_add_of_le' h
  unfold daysBeforeMonth
  rw [Nat.add_sub_cancel, Nat.add_sub_cancel, List.range_succ, List.foldl_append, List.foldl_cons,
    List.foldl_nil]

/-- The months of a year make up the year. -/
theorem daysBeforeMonth_thirteen (year : Nat) : daysBeforeMonth year 13 = daysInYear year := by
  have hsum : daysBeforeMonth year 13 =
      31 + (if isLeap year then 29 else 28) + 31 + 30 + 31 + 30 + 31 + 31 + 30 + 31 + 30 + 31 := by
    cases hleap : isLeap year <;> simp [daysBeforeMonth, daysInMonth, List.range_succ, hleap]
  rw [hsum, daysInYear]
  split <;> rfl

theorem isLeap_iff (year : Nat) : isLeap year = true ↔ 4 ∣ year ∧ (¬ 100 ∣ year ∨ 400 ∣ year) := by
  unfold isLeap
  rw [Bool.and_eq_true, Bool.or_eq_true, beq_iff_eq, bne_iff_ne, beq_iff_eq, ← Nat.dvd_iff_mod_eq_zero,
    ← Nat.dvd_iff_mod_eq_zero, Ne, ← Nat.dvd_iff_mod_eq_zero]

/-- A year follows the one before it: the leap days of the calendar count its fourth years, less its
hundredth, and its four-hundredth once more. -/
theorem daysBeforeYear_succ {year : Nat} (h : 1 ≤ year) :
    daysBeforeYear (year + 1) = daysBeforeYear year + daysInYear year := by
  obtain ⟨y, rfl⟩ := Nat.exists_eq_add_of_le' h
  have hfew : y / 100 ≤ y / 4 := Nat.div_le_div_left (by decide) (by decide)
  have hhundred : 400 ∣ y + 1 → 100 ∣ y + 1 := Nat.dvd_trans (by decide)
  have hfour : 100 ∣ y + 1 → 4 ∣ y + 1 := Nat.dvd_trans (by decide)
  have hleap := isLeap_iff (y + 1)
  unfold daysInYear daysBeforeYear
  rw [Nat.add_sub_cancel, Nat.add_sub_cancel]
  dsimp only
  rw [Nat.succ_div, Nat.succ_div, Nat.succ_div]
  generalize y / 4 = fourths at hfew ⊢
  generalize y / 100 = hundredths at hfew ⊢
  by_cases h4 : 4 ∣ y + 1 <;> by_cases h100 : 100 ∣ y + 1 <;> by_cases h400 : 400 ∣ y + 1 <;>
    simp only [h4, h100, h400, hleap, if_true, if_false, not_true_eq_false, not_false_eq_true,
      and_self, or_self, and_true, or_true, true_and, or_false, forall_const, imp_false]
      at hhundred hfour ⊢ <;> omega

/-! ### The day with a number -/

/-- The walk through the months ends in a month of the year, at a day that the month has, and the
day it stops at lies as many days behind the beginning of the first month as were to go. -/
theorem monthOfDay_spec {year : Nat} (fuel : Nat) {month rest : Nat} (hmonth : 1 ≤ month)
    (hrest : daysBeforeMonth year month + rest < daysBeforeMonth year (month + fuel + 1)) :
    month ≤ (monthOfDay year rest fuel month).1 ∧
      (monthOfDay year rest fuel month).1 ≤ month + fuel ∧
      1 ≤ (monthOfDay year rest fuel month).2 ∧
      (monthOfDay year rest fuel month).2 ≤
        daysInMonth year (monthOfDay year rest fuel month).1 ∧
      daysBeforeMonth year (monthOfDay year rest fuel month).1 +
        ((monthOfDay year rest fuel month).2 - 1) = daysBeforeMonth year month + rest := by
  induction fuel generalizing month rest with
  | zero =>
    rw [Nat.add_zero, daysBeforeMonth_succ year hmonth] at hrest
    rw [monthOfDay]
    dsimp only
    omega
  | succ fuel ih =>
    rw [monthOfDay]
    split
    · dsimp only
      omega
    · rename_i hlong
      have hnext := daysBeforeMonth_succ year hmonth
      have hleft : daysBeforeMonth year (month + 1) + (rest - daysInMonth year month) =
          daysBeforeMonth year month + rest := by omega
      have hbound : daysBeforeMonth year (month + 1) + (rest - daysInMonth year month) <
          daysBeforeMonth year (month + 1 + fuel + 1) := by
        rw [hleft, Nat.add_right_comm month 1 fuel]
        exact hrest
      obtain ⟨hfrom, hto, hpos, hle, heq⟩ := ih (Nat.le_add_left 1 month) hbound
      exact ⟨by omega, by omega, hpos, hle, heq.trans hleft⟩

/-- The search over the years from `guess` on that follow each other: it stops at the last of them
that does not begin behind the day. -/
theorem yearSearch_spec (n guess count : Nat) (hguess : daysBeforeYear guess ≤ n) :
    let year := ((List.range (count + 1)).map (guess + ·)).foldl
      (fun y k => if daysBeforeYear k ≤ n then k else y) guess
    guess ≤ year ∧ year ≤ guess + count ∧ daysBeforeYear year ≤ n ∧
      (year < guess + count → n < daysBeforeYear (year + 1)) := by
  induction count with
  | zero =>
    have hstay : ((List.range (0 + 1)).map (guess + ·)).foldl
        (fun y k => if daysBeforeYear k ≤ n then k else y) guess = guess :=
      if_pos hguess
    rw [hstay]
    exact ⟨Nat.le_refl guess, Nat.le_refl guess, hguess, fun hlt => absurd hlt (Nat.lt_irrefl guess)⟩
  | succ count ih =>
    rw [List.range_succ, List.map_append, List.foldl_append, List.map_singleton, List.foldl_cons,
      List.foldl_nil]
    generalize ((List.range (count + 1)).map (guess + ·)).foldl
      (fun y k => if daysBeforeYear k ≤ n then k else y) guess = year at ih ⊢
    obtain ⟨hfrom, hto, hbefore, hafter⟩ := ih
    by_cases hlater : daysBeforeYear (guess + (count + 1)) ≤ n
    · rw [if_pos hlater]
      exact ⟨by omega, by omega, hlater, fun hlt => absurd hlt (Nat.lt_irrefl _)⟩
    · rw [if_neg hlater]
      refine ⟨hfrom, by omega, hbefore, fun _ => ?_⟩
      rcases Nat.lt_or_eq_of_le hto with hlt | heq
      · exact hafter hlt
      · rw [heq]
        exact Nat.lt_of_not_le hlater

/-- The day that is found is a day of the calendar and has the number. -/
theorem Date.of_ofNumber? {n : Nat} {d : Date} (h : Date.ofNumber? n = some d) :
    d.IsValid ∧ d.number = n := by
  have hguess : daysBeforeYear (n / 366 + 1) ≤ n := by
    unfold daysBeforeYear
    dsimp only
    omega
  obtain ⟨hfrom, hto, hbefore, hafter⟩ := yearSearch_spec n (n / 366 + 1) 29 hguess
  unfold Date.ofNumber? at h
  dsimp only at h hfrom hto hbefore hafter
  generalize ((List.range 30).map (n / 366 + 1 + ·)).foldl
    (fun y k => if daysBeforeYear k ≤ n then k else y) (n / 366 + 1) = year at h hfrom hto hbefore hafter
  split at h
  · cases h
  · rename_i hyear
    have hnext : n < daysBeforeYear (year + 1) := by
      rcases Nat.lt_or_eq_of_le hto with hlt | heq
      · exact hafter hlt
      · -- thirty years behind the guess the calendar has left every day of the guess behind
        unfold daysBeforeYear
        dsimp only
        omega
    have hpos : 1 ≤ year := Nat.le_trans (Nat.le_add_left 1 _) hfrom
    have hrest : daysBeforeMonth year 1 + (n - daysBeforeYear year) <
        daysBeforeMonth year (1 + 11 + 1) := by
      have hlength := daysBeforeYear_succ hpos
      rw [daysBeforeMonth_one, daysBeforeMonth_thirteen]
      omega
    obtain ⟨hmonth, hmonthLe, hday, hdayLe, hsum⟩ := monthOfDay_spec 11 (Nat.le_refl 1) hrest
    obtain rfl := Option.some.inj h
    refine ⟨⟨hpos, by dsimp only; omega, hmonth, hmonthLe, hday, hdayLe⟩, ?_⟩
    rw [daysBeforeMonth_one, Nat.zero_add] at hsum
    rw [Date.number]
    dsimp only
    omega

/-! ### Moments of universal time -/

/-- A moment that the line of universal time has. -/
structure Moment.IsUniversal (m : Moment) : Prop where
  date : m.date.IsValid
  hour_lt : m.hour < 24
  minute_lt : m.minute < 60
  second_lt : m.second < 60
  micro_lt : m.micro < 1000000
  offset : m.offset = some 0

/-- The moment at a place lies at that place. -/
theorem Moment.of_ofInstant? {micros : Int} {m : Moment} (h : Moment.ofInstant? micros = some m) :
    m.IsUniversal ∧ m.instant = micros := by
  unfold Moment.ofInstant? at h
  split at h
  · cases h
  · rename_i hpos
    obtain ⟨date, hdate, rfl⟩ := Option.map_eq_some_iff.1 h
    obtain ⟨hvalid, hnumber⟩ := Date.of_ofNumber? hdate
    refine ⟨⟨hvalid, Nat.mod_lt _ (by decide), Nat.mod_lt _ (by decide), Nat.mod_lt _ (by decide),
      Nat.mod_lt _ (by decide), rfl⟩, ?_⟩
    rw [Moment.instant, Moment.localMicros, hnumber]
    dsimp only [Option.getD_some]
    omega

end ApiShell.Time

/-!
### Clocks

A clock that shows universal time goes on showing universal time, and it never goes back.
-/

namespace ApiShell.Clock

variable {clock clock' : Clock}

/-- A clock that is advanced shows universal time at the place to which it was advanced. -/
theorem of_advance {micros : Int} (h : clock.advance micros = .ok clock') :
    clock'.now.IsUniversal ∧ clock'.now.instant = clock.now.instant + micros := by
  unfold advance at h
  split at h
  · rename_i now hnow
    obtain rfl := Except.ok.inj h
    exact Time.Moment.of_ofInstant? hnow
  · cases h

/-- Reading a clock does not set it back. -/
theorem of_tick (h : clock.now.IsUniversal) :
    clock.tick.now.IsUniversal ∧ clock.now.instant ≤ clock.tick.now.instant := by
  unfold tick
  split
  · rename_i clock' hadvance
    obtain ⟨huniversal, hinstant⟩ := of_advance hadvance
    exact ⟨huniversal, by omega⟩
  · exact ⟨h, Int.le_refl _⟩

/-- A clock at the beginning of a day. -/
def morning : Clock := ⟨⟨⟨2024, 1, 2⟩, 0, 0, 0, 0, some 0⟩, 0⟩

theorem isUniversal_morning : morning.now.IsUniversal :=
  ⟨⟨by decide, by decide, by decide, by decide, by decide, by decide⟩, by decide, by decide,
    by decide, by decide, rfl⟩

end ApiShell.Clock
