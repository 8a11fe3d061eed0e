import ApiShell.Text.Blank
import ApiShell.Text.Lower
import Mathlib.Data.List.TakeWhile

/-!
# Trimming and runs

Trimming takes the characters of a class off the ends of a text.  What stands around a text and belongs
to the class makes no difference, and what is taken off is all of that kind.

The runs of a class in a text are cut by all other characters.  Characters of ASCII are the simple case
of classes and forms that are made for every script.
-/

namespace ApiShell.Text

variable {p q : Char → Bool} {cs ds before after : List Char}

theorem trimLeftOf_eq_self (h : ∀ c ∈ cs.head?, p c = false) : trimLeftOf p cs = cs := by
  cases cs with
  | nil => rfl
  | cons c cs => exact List.dropWhile_cons_of_neg (by simp [h c rfl])

theorem trimRightOf_eq_self (h : ∀ c ∈ cs.getLast?, p c = false) : trimRightOf p cs = cs := by
  have hreverse : trimLeftOf p cs.reverse = cs.reverse :=
    trimLeftOf_eq_self (by rwa [List.head?_reverse])
  rw [trimRightOf, ← trimLeftOf, hreverse, List.reverse_reverse]

/-- A text that neither begins nor ends with what is trimmed stays as it is. -/
theorem trimOf_eq_self_of_ends (hfirst : ∀ c ∈ cs.head?, p c = false)
    (hlast : ∀ c ∈ cs.getLast?, p c = false) : trimOf p cs = cs := by
  rw [trimOf, trimLeftOf_eq_self hfirst, trimRightOf_eq_self hlast]

/-- A text that has nothing to trim stays as it is. -/
theorem trimOf_eq_self (h : ∀ c ∈ cs, p c = false) : trimOf p cs = cs :=
  trimOf_eq_self_of_ends (fun c hc => h c (List.mem_of_mem_head? hc))
    fun c hc => h c (List.mem_of_mem_getLast? hc)

/-- What follows is dropped if all of it belongs to the class. -/
theorem trimRightOf_append_of_forall (h : ∀ c ∈ ds, p c = true) :
    trimRightOf p (cs ++ ds) = trimRightOf p cs := by
  have hreverse : ∀ c ∈ ds.reverse, p c = true := fun c hc => h c (List.mem_reverse.1 hc)
  simp only [trimRightOf, List.reverse_append, List.dropWhile_append_of_pos hreverse]

/-- What follows keeps what stands before if not all of it belongs to the class. -/
theorem trimRightOf_append_of_not_forall (h : ¬ ∀ c ∈ ds, p c = true) :
    trimRightOf p (cs ++ ds) = cs ++ trimRightOf p ds := by
  have hne : (ds.reverse.dropWhile p).isEmpty = false := by
    refine List.isEmpty_eq_false_iff.2 fun hnil => h fun c hc => ?_
    exact List.dropWhile_eq_nil_iff.1 hnil c (List.mem_reverse.2 hc)
  simp only [trimRightOf, List.reverse_append, List.dropWhile_append, hne, Bool.false_eq_true,
    if_false, List.reverse_reverse]

/-- Characters of the class around a text make no difference. -/
theorem trimOf_append_append (hbefore : ∀ c ∈ before, p c = true) (hafter : ∀ c ∈ after, p c = true) :
    trimOf p (before ++ (cs ++ after)) = trimOf p cs := by
  rw [trimOf, trimOf, trimLeftOf, trimLeftOf, List.dropWhile_append_of_pos hbefore,
    List.dropWhile_append]
  split
  · next hnil =>
    rw [List.isEmpty_iff.1 hnil, List.dropWhile_eq_nil_iff.2 hafter]
  · exact trimRightOf_append_of_forall hafter

theorem eq_trimRightOf_append (p : Char → Bool) (cs : List Char) :
    cs = trimRightOf p cs ++ (cs.reverse.takeWhile p).reverse := by
  rw [trimRightOf, ← List.reverse_append, List.takeWhile_append_dropWhile, List.reverse_reverse]

/-- A front that nothing of what is trimmed belongs to stays. -/
theorem takeWhile_trimRightOf (h : ∀ c, p c = true → q c = false) :
    (trimRightOf p cs).takeWhile q = cs.takeWhile q := by
  have hafter : ((cs.reverse.takeWhile p).reverse).takeWhile q = [] := by
    have hall : ∀ c ∈ (cs.reverse.takeWhile p).reverse, p c = true :=
      fun c hc => List.all_eq_true.1 List.all_takeWhile c (List.mem_reverse.1 hc)
    generalize (cs.reverse.takeWhile p).reverse = after at hall
    cases after with
    | nil => rfl
    | cons c after => exact List.takeWhile_cons_of_neg (by simp [h c (hall c List.mem_cons_self)])
  have hcs := congrArg (List.takeWhile q) (eq_trimRightOf_append p cs)
  rw [hcs, List.takeWhile_append, hafter, List.append_nil]
  split
  · next hlength => exact (List.takeWhile_prefix q).eq_of_length hlength
  · rfl

/-- What is trimmed off a text belongs to the class. -/
theorem exists_eq_append_trimOf (p : Char → Bool) (cs : List Char) :
    ∃ before after, cs = before ++ (trimOf p cs ++ after) ∧ (∀ c ∈ before, p c = true) ∧
      ∀ c ∈ after, p c = true := by
  refine ⟨cs.takeWhile p, ((cs.dropWhile p).reverse.takeWhile p).reverse, ?_,
    List.all_eq_true.1 List.all_takeWhile, fun c hc => ?_⟩
  · rw [trimOf, trimLeftOf, ← eq_trimRightOf_append, List.takeWhile_append_dropWhile]
  · exact List.all_eq_true.1 List.all_takeWhile c (List.mem_reverse.1 hc)

/-- A text of which nothing is left consists of the class. -/
theorem trimOf_eq_nil_iff : trimOf p cs = [] ↔ ∀ c ∈ cs, p c = true := by
  constructor
  · intro h c hc
    obtain ⟨before, after, hsplit, hbefore, hafter⟩ := exists_eq_append_trimOf p cs
    rw [h, List.nil_append] at hsplit
    rw [hsplit] at hc
    exact (List.mem_append.1 hc).elim (hbefore c) (hafter c)
  · intro h
    have hnone : trimOf p (cs ++ ([] ++ [])) = trimOf p [] :=
      trimOf_append_append h (List.forall_mem_nil (p · = true))
    rwa [List.append_nil, List.append_nil] at hnone

/-! ### Runs of characters -/

theorem of_mem_runsFrom {p : Char → Bool} {run cs r : List Char} (hrun : ∀ c ∈ run, p c)
    (hr : r ∈ runsFrom p run cs) : r ≠ [] ∧ ∀ c ∈ r, p c := by
  induction cs generalizing run with
  | nil =>
    rw [runsFrom] at hr
    split at hr
    · cases hr
    · next hne =>
      rw [List.mem_singleton.1 hr]
      refine ⟨fun hnil => hne ?_, fun c hc => hrun c (List.mem_reverse.1 hc)⟩
      rw [List.reverse_eq_nil_iff.1 hnil]
      rfl
  | cons c cs ih =>
    rw [runsFrom] at hr
    by_cases hc : p c
    · rw [if_pos hc] at hr
      refine ih (fun d hd => ?_) hr
      rcases List.mem_cons.1 hd with rfl | hd
      · exact hc
      · exact hrun d hd
    · rw [if_neg hc] at hr
      have hnone : ∀ d ∈ ([] : List Char), p d := fun d hd => absurd hd List.not_mem_nil
      split at hr
      · exact ih hnone hr
      · next hne =>
        rcases List.mem_cons.1 hr with rfl | hr
        · refine ⟨fun hnil => hne ?_, fun d hd => hrun d (List.mem_reverse.1 hd)⟩
          rw [List.reverse_eq_nil_iff.1 hnil]
          rfl
        · exact ih hnone hr

/-- A run is not empty and has characters of its class only. -/
theorem of_mem_runs {p : Char → Bool} {cs r : List Char} (hr : r ∈ runs p cs) :
    r ≠ [] ∧ ∀ c ∈ r, p c :=
  of_mem_runsFrom (fun _ hc => absurd hc List.not_mem_nil) hr

theorem runsFrom_of_forall {p : Char → Bool} (h : ∀ c ∈ cs, p c = true) (run : List Char) :
    runsFrom p run cs = if (run.reverse ++ cs).isEmpty then [] else [run.reverse ++ cs] := by
  induction cs generalizing run with
  | nil => cases run <;> simp [runsFrom]
  | cons c cs ih =>
    rw [runsFrom, if_pos (h c List.mem_cons_self),
      ih (fun d hd => h d (List.mem_cons_of_mem c hd)), List.reverse_cons, List.append_assoc]
    rfl

/-- A run ends where a character of another class stands. -/
theorem runsFrom_append_cons {d : Char} (h : ∀ c ∈ cs, p c = true) (hd : p d = false)
    (run ds : List Char) : runsFrom p run (cs ++ d :: ds) =
      if (run.reverse ++ cs).isEmpty then runs p ds else (run.reverse ++ cs) :: runs p ds := by
  induction cs generalizing run with
  | nil => simp [runsFrom, runs, hd]
  | cons c cs ih =>
    rw [List.cons_append, runsFrom, if_pos (h c List.mem_cons_self),
      ih (fun d hd => h d (List.mem_cons_of_mem c hd)), List.reverse_cons, List.append_assoc]
    rfl

/-- A character of another class at the end ends no new run. -/
theorem runsFrom_append_singleton {d : Char} (hd : p d = false) (run cs : List Char) :
    runsFrom p run (cs ++ [d]) = runsFrom p run cs := by
  induction cs generalizing run with
  | nil => simp [runsFrom, hd]
  | cons c cs ih =>
    rw [List.cons_append, runsFrom, runsFrom]
    split
    · exact ih _
    · rw [ih]

/-! ### ASCII -/

/-- ASCII letters are lowered one by one. -/
theorem lowerChars_of_ascii {cs : List Char} (h : ∀ c ∈ cs, c.toNat < 128) :
    lowerChars cs = cs.map Char.toLower := by
  unfold lowerChars
  generalize [] = before
  induction cs generalizing before with
  | nil => rfl
  | cons c cs ih =>
    have hc : c.toNat < 128 := h c List.mem_cons_self
    have hsigma : c ≠ capitalSigma := by
      rintro rfl
      exact absurd hc (by decide)
    rw [lowerAfter, if_neg hsigma, lowerChar, if_pos hc,
      ih (fun d hd => h d (List.mem_cons_of_mem c hd)), List.map_cons, List.singleton_append]

/-- The codes of letters and digits. -/
theorem toNat_of_isAlphanum {c : Char} (h : c.isAlphanum = true) : 48 ≤ c.toNat ∧ c.toNat ≤ 122 := by
  have hcode : c.val.toNat = c.toNat := rfl
  have hranges : (decide (65 ≤ c.val ∧ c.val ≤ 90) || (97 ≤ c.val && c.val ≤ 122) ||
      (48 ≤ c.val && c.val ≤ 57)) = true := h
  simp only [Bool.or_eq_true, Bool.and_eq_true, decide_eq_true_eq, UInt32.le_iff_toNat_le, hcode,
    UInt32.toNat_ofNat] at hranges
  omega

theorem isBlank_of_isAlphanum {c : Char} (h : c.isAlphanum = true) : isBlank c = false := by
  have hrange := toNat_of_isAlphanum h
  simp [isBlank, inRanges, blankRanges]
  omega

theorem trim_eq_empty_iff {s : String} : trim s = "" ↔ ∀ c ∈ s.toList, isBlank c = true := by
  rw [trim, ← trimOf_eq_nil_iff, ← String.ofList_nil, String.ofList_inj]

end ApiShell.Text
