import ApiShell.Proofs.Config.Loading
import ApiShell.Spec.Content

/-!
# What a text is read as

The content of a description is JSON or YAML.  Reading it gives a mapping, fails in a way that is
foreseen, or runs into a defect, and that only where the text is read as YAML whose values cannot be
made (`Misreads`).
-/

namespace ApiShell.Spec

/-- There is a mapping, or the description has failed. -/
def IsForeseen (answer : Except Fault Value) : Prop :=
  (∃ fields, answer = .ok (.mapping fields)) ∨ ∃ e, answer = .error (.failure (.spec e))

theorem not_isForeseen_defect (d : Defect) : ¬ IsForeseen (.error (.defect d)) := by
  rintro (⟨fields, h⟩ | ⟨e, h⟩) <;> cases h

theorem isForeseen_spec (e : SpecError) : IsForeseen (.error e) := .inr ⟨e, rfl⟩

/-! ### YAML and JSON -/

/-- The text is read as YAML, and its values cannot be made. -/
inductive Misreads (hint : Hint) (content : String) : Defect → Prop where
  | yaml {trouble : Yaml.Trouble} {d : Defect}
      (notJson : hint = .yaml ∨ hint = .either ∧ ∀ v, Json.readText content ≠ .ok v)
      (fails : Yaml.read content.toList = .error trouble) (isDefect : trouble.defect? = some d) :
      Misreads hint content d

variable {hint : Hint} {content source : String} {d : Defect}

theorem isForeseen_requireMapping (v : Value) (source : String) :
    IsForeseen (requireMapping v source) := by
  unfold requireMapping
  split
  · exact .inl ⟨_, rfl⟩
  · exact isForeseen_spec _
  · exact isForeseen_spec _

/-- Reading YAML ends as foreseen, or with a defect of its own. -/
theorem parseYaml_cases (content source : String) :
    (IsForeseen (parseYaml content source) ∧
        ∀ trouble, Yaml.read content.toList = .error trouble → trouble.defect? = none) ∨
      ∃ trouble d, Yaml.read content.toList = .error trouble ∧ trouble.defect? = some d ∧
        parseYaml content source = .error (.defect d) := by
  unfold parseYaml
  cases Yaml.read content.toList with
  | ok v => exact .inl ⟨isForeseen_requireMapping v source, nofun⟩
  | error trouble =>
    dsimp only
    rcases trouble.fault_cases fun problem => SpecError.invalidYaml source problem with
      ⟨hnone, problem, h⟩ | ⟨d, hsome, h⟩
    · rw [h]
      exact .inl ⟨isForeseen_spec _, fun _ heq => Except.error.inj heq ▸ hnone⟩
    · rw [h]
      exact .inr ⟨trouble, d, rfl, hsome, rfl⟩

/-- A text is read as YAML if the hint says so, or if it leaves that open and the text is no JSON. -/
theorem parseContent_cases (content : String) (hint : Hint) (source : String) :
    (parseContent content hint source = parseYaml content source ∧
        (hint = .yaml ∨ hint = .either ∧ ∀ v, Json.readText content ≠ .ok v)) ∨
      (IsForeseen (parseContent content hint source) ∧
        ¬ (hint = .yaml ∨ hint = .either ∧ ∀ v, Json.readText content ≠ .ok v)) := by
  unfold parseContent
  split
  · next hyaml => exact .inl ⟨rfl, .inl hyaml⟩
  · next hyaml =>
    cases hjson : Json.readText content with
    | ok v =>
      refine .inr ⟨isForeseen_requireMapping v source, ?_⟩
      rintro (h | ⟨-, h⟩)
      · exact hyaml h
      · exact h v rfl
    | error problem =>
      dsimp only
      split
      · next h =>
        refine .inr ⟨isForeseen_spec _, ?_⟩
        rintro (h' | ⟨h', -⟩)
        · exact hyaml h'
        · rw [h] at h'
          cases h'
      · next h =>
        refine .inl ⟨rfl, .inr ⟨?_, nofun⟩⟩
        cases hint with
        | json => exact absurd rfl h
        | yaml => exact absurd rfl hyaml
        | either => rfl

/-- A text ends as foreseen, or with a defect. -/
theorem parseContent_foreseen_or (content : String) (hint : Hint) (source : String) :
    IsForeseen (parseContent content hint source) ∨
      ∃ d, parseContent content hint source = .error (.defect d) := by
  rcases parseContent_cases content hint source with ⟨h, -⟩ | ⟨h, -⟩
  · rw [h]
    rcases parseYaml_cases content source with ⟨hforeseen, -⟩ | ⟨_, d, -, -, hd⟩
    · exact .inl hforeseen
    · exact .inr ⟨d, hd⟩
  · exact .inl h

theorem parseContent_eq_defect_iff :
    parseContent content hint source = .error (.defect d) ↔ Misreads hint content d := by
  rcases parseContent_cases content hint source with ⟨h, hnotJson⟩ | ⟨h, hnotYaml⟩
  · rw [h]
    rcases parseYaml_cases content source with ⟨hforeseen, hnone⟩ | ⟨trouble, d', hfails, hd', hread⟩
    · constructor
      · intro hd
        rw [hd] at hforeseen
        exact absurd hforeseen (not_isForeseen_defect d)
      · rintro ⟨-, hfails, hd⟩
        rw [hnone _ hfails] at hd
        cases hd
    · rw [hread]
      constructor
      · intro hd
        cases hd
        exact .yaml hnotJson hfails hd'
      · rintro ⟨-, hfails', hd⟩
        cases hfails.symm.trans hfails'
        rw [hd'] at hd
        rw [Option.some.inj hd]
  · constructor
    · intro hd
      rw [hd] at h
      exact absurd h (not_isForeseen_defect d)
    · rintro ⟨hnotJson, -, -⟩
      exact absurd hnotJson hnotYaml

end ApiShell.Spec
