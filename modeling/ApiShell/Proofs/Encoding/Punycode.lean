import ApiShell.Encoding.Percent
import ApiShell.Encoding.Punycode

/-!
# The characters of a written label

A label is written with its own ASCII characters, letters, digits and hyphens.
-/

namespace ApiShell.Punycode

variable {c : Char}

/-- The digits of base 36 stand for themselves everywhere in an address. -/
theorem isUnreserved_digit {n : Nat} (h : n < 36) : Percent.isUnreserved (digit n) = true := by
  have hdigits : ∀ m : Fin 36, Percent.isUnreserved (digit m) = true := by decide
  exact hdigits ⟨n, h⟩

theorem threshold_lt (place bias : Nat) : threshold place bias < 36 := by
  unfold threshold
  omega

theorem isUnreserved_of_mem_digits {bias place n : Nat} (h : c ∈ digits bias place n) :
    Percent.isUnreserved c = true := by
  induction place, n using digits.induct bias with
  | case1 place n t hlast =>
    rw [digits, if_pos hlast, List.mem_singleton] at h
    rw [h]
    exact isUnreserved_digit (Nat.lt_trans hlast (threshold_lt place bias))
  | case2 place n t hmore ih =>
    rw [digits, if_neg hmore, List.mem_cons] at h
    rcases h with rfl | h
    · have hlt : t < 36 := threshold_lt place bias
      have hrest : (n - t) % (36 - t) < 36 - t := Nat.mod_lt _ (by omega)
      have hdigit : t + (n - t) % (36 - t) < 36 := by omega
      exact isUnreserved_digit hdigit
    · exact ih h

/-- A step writes digits only. -/
theorem mem_written_writeCode {basic code : Nat} {p : Progress} {d : Char}
    (h : c ∈ (writeCode basic code p d).written) :
    c ∈ p.written ∨ Percent.isUnreserved c = true := by
  unfold writeCode at h
  split at h
  · exact .inl h
  · split at h
    · exact (List.mem_append.1 h).imp_right isUnreserved_of_mem_digits
    · exact .inl h

theorem mem_written_foldl {basic code : Nat} {label : List Char} {p : Progress}
    (h : c ∈ (label.foldl (writeCode basic code) p).written) :
    c ∈ p.written ∨ Percent.isUnreserved c = true := by
  induction label generalizing p with
  | nil => exact .inl h
  | cons d label ih =>
    rcases ih h with h | h
    · exact mem_written_writeCode h
    · exact .inr h

theorem mem_written_writeCodes {basic start : Nat} {label : List Char} {p : Progress}
    {codes : List Nat} (h : c ∈ (writeCodes label basic start p codes).written) :
    c ∈ p.written ∨ Percent.isUnreserved c = true := by
  induction codes generalizing start p with
  | nil => exact .inl h
  | cons code codes ih =>
    rcases ih h with h | h
    · exact mem_written_foldl (p := { p with delta := p.delta + (code - start) * (p.count + 1) }) h
    · exact .inr h

/-- What is written of a label. -/
theorem mem_encode {label : List Char} (h : c ∈ encode label) :
    c ∈ label ∧ c.toNat < 128 ∨ Percent.isUnreserved c = true := by
  rcases List.mem_append.1 h with h | h
  · split at h
    · cases h
    · rcases List.mem_append.1 h with h | h
      · exact .inl ⟨(List.mem_filter.1 h).1, by simpa using (List.mem_filter.1 h).2⟩
      · obtain rfl := List.mem_singleton.1 h
        exact .inr (by decide)
  · exact .inr ((mem_written_writeCodes h).resolve_left List.not_mem_nil)

end ApiShell.Punycode
