import ApiShell.Pointer

/-!
# What pointers lead to

A pointer goes down into parts of the document, so what holds of a value and passes on to the items
of lists and the values of fields holds of everything that a pointer leads to.  A pointer that leads
nowhere is a failure of the description, unless it goes into a list by digits that stand for no
decimal place.
-/

namespace ApiShell.Pointer

/-- The property passes on from lists to their items and from mappings to their values. -/
structure PassesOn (P : Value → Prop) : Prop where
  item : ∀ {items : List Value} {v : Value}, P (.list items) → v ∈ items → P v
  field : ∀ {fields : List (Scalar × Value)} {f : Scalar × Value},
    P (.mapping fields) → f ∈ fields → P f.2

variable {P : Value → Prop}

/-- What passes on holds of what a segment leads to. -/
theorem PassesOn.step {node next : Value} {segment : String} (hP : PassesOn P) (hnode : P node)
    (h : step node segment = .ok (some next)) : P next := by
  unfold Pointer.step at h
  split at h
  · obtain ⟨f, hf, rfl⟩ := Option.map_eq_some_iff.1 (Except.ok.inj h)
    exact hP.field hnode (List.mem_of_find?_eq_some hf)
  · cases hp : position? segment with
    | error d => rw [hp] at h; cases h
    | ok p =>
      rw [hp] at h
      obtain ⟨n, -, hn⟩ := Option.bind_eq_some_iff.1 (Except.ok.inj h)
      exact hP.item hnode (List.mem_of_getElem? hn)
  · cases h

/-- What passes on holds of what a path leads to. -/
theorem PassesOn.follow {ref : String} {node target : Value} {path : List String}
    (hP : PassesOn P) (hnode : P node) (h : follow ref node path = .ok target) : P target := by
  induction path generalizing node with
  | nil => exact Except.ok.inj h ▸ hnode
  | cons segment rest ih =>
    rw [Pointer.follow] at h
    split at h
    · cases h
    · cases h
    · next next hstep => exact ih (hP.step hnode hstep) h

/-- What passes on holds of what a pointer leads to. -/
theorem PassesOn.lookup {ref : String} {document target : Value} (hP : PassesOn P)
    (hdocument : P document) (h : lookup document ref = .ok target) : P target := by
  unfold Pointer.lookup at h
  split at h
  · exact hP.follow hdocument h
  · cases h

/-! ### Pointers that lead nowhere -/

/-- A list position is refused as a defect only if its digits do not all stand for decimal places. -/
theorem position?_eq_error_iff {segment : String} {defect : Defect} :
    position? segment = .error defect ↔
      (segment.toList ≠ [] ∧ segment.toList.all Text.isDigit ∧
        Text.decimalValue? segment.toList = none) ∧
      defect = .badValue ("invalid literal for int() with base 10: " ++ Text.quoted segment) := by
  unfold position?
  dsimp only
  by_cases hempty : segment.toList = []
  · simp [hempty]
  by_cases hdigits : segment.toList.all Text.isDigit = true
  · have hif : ¬ (segment.toList.isEmpty || !segment.toList.all Text.isDigit) = true := by
      simp [hempty, hdigits]
    rw [if_neg hif]
    cases Text.decimalValue? segment.toList with
    | none => simp [hempty, hdigits, eq_comm]
    | some n => simp
  · have hif : (segment.toList.isEmpty || !segment.toList.all Text.isDigit) = true := by
      rw [Bool.not_eq_true] at hdigits
      rw [hdigits, Bool.not_false, Bool.or_true]
    rw [if_pos hif]
    constructor
    · intro h
      cases h
    · rintro ⟨⟨-, hall, -⟩, -⟩
      exact absurd hall hdigits

/-- Why a pointer leads nowhere. -/
inductive Misleads : Fault → Prop
  /-- The description is at fault. -/
  | failure (e : SpecError) : Misleads (.failure (.spec e))
  /-- A segment is no list position although it has only digits. -/
  | position {segment : String} {defect : Defect} (h : position? segment = .error defect) :
    Misleads (.defect defect)

theorem misleads_of_follow {ref : String} {node : Value} {path : List String} {fault : Fault}
    (h : follow ref node path = .error fault) : Misleads fault := by
  induction path generalizing node with
  | nil => cases h
  | cons segment rest ih =>
    rw [follow] at h
    split at h
    · next defect hstep =>
      obtain rfl := Except.error.inj h
      unfold Pointer.step at hstep
      split at hstep
      · cases hstep
      · cases hp : position? segment with
        | error d =>
          rw [hp] at hstep
          exact Except.error.inj hstep ▸ .position hp
        | ok p =>
          rw [hp] at hstep
          cases hstep
      · cases hstep
    · exact Except.error.inj h ▸ .failure _
    · exact ih h

theorem misleads_of_lookup {ref : String} {document : Value} {fault : Fault}
    (h : lookup document ref = .error fault) : Misleads fault := by
  unfold lookup at h
  split at h
  · exact misleads_of_follow h
  · exact Except.error.inj h ▸ .failure _

end ApiShell.Pointer
