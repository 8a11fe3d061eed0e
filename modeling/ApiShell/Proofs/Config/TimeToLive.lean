import ApiShell.Config.Basic
import ApiShell.Proofs.Run
import ApiShell.Proofs.Time.DurationText

/-!
# Times to live that stay usable

The time to live of an API is checked as it is given, but kept, and later read, as its text.
Whether the settings that were accepted can still be used thus depends on the kind of the value:
`ttl_of_check` says that texts and integers are read as what they were checked to be, and that
floating-point numbers, truth values and bytes are not read at all.
-/

namespace ApiShell.ApiConfig

variable {fields : List (Scalar × Value)} {location : List String} {c : ApiConfig} {v : Value}

/-- The settings that are accepted keep the time to live that is given as its text. -/
theorem cacheTtl_of_check (h : check location (.mapping fields) = .ok c) :
    ttlSetting fields location = .ok c.cacheTtl := by
  obtain ⟨_, _, hkey, -, rfl⟩ := Checked.next_eq_ok_iff.1 h
  obtain ⟨_, _, hheaders, -, rfl⟩ := Checked.next_eq_ok_iff.1 hkey
  obtain ⟨_, _, houtput, -, rfl⟩ := Checked.next_eq_ok_iff.1 hheaders
  obtain ⟨_, _, hbefore, -, rfl⟩ := Checked.next_eq_ok_iff.1 houtput
  obtain ⟨_, _, hauth, httl, rfl⟩ := Checked.next_eq_ok_iff.1 hbefore
  obtain ⟨_, _, hurl, -, rfl⟩ := Checked.next_eq_ok_iff.1 hauth
  obtain ⟨_, _, hspec, -, rfl⟩ := Checked.next_eq_ok_iff.1 hurl
  obtain ⟨_, -, rfl⟩ := map_eq_ok_iff.1 hspec
  exact httl

theorem of_ttlSetting {text : String} (hv : Value.field? fields "cache_ttl" = some v)
    (h : ttlSetting fields location = .ok text) :
    text = v.display ∧ ∃ d, Time.durationOf v = .ok d := by
  rw [ttlSetting, hv] at h
  cases hd : Time.durationOf v with
  | error e =>
    simp only [hd] at h
    cases h
  | ok d =>
    simp only [hd] at h
    exact ⟨(Except.ok.inj h).symm, d, rfl⟩

/-- **A time to live that is accepted stays usable if it is a text or an integer, and not
otherwise.** The value that was accepted is a duration, and reading the time to live of the settings
gives this duration if the value is a text or an integer; a floating-point number, a truth value or
bytes, and nothing else, make every reading fail. -/
theorem ttl_of_check (h : check location (.mapping fields) = .ok c)
    (hv : Value.field? fields "cache_ttl" = some v) :
    ∃ d, Time.durationOf v = .ok d ∧
      (c.ttl = .ok d ↔ (∃ s, v = .text s) ∨ ∃ n, v = .int n) ∧
      (c.ttl = .error (Time.DurationError.malformed (Text.quoted v.display)).defect ↔
        (∃ x, v = .float x) ∨ (∃ b, v = .bool b) ∨ ∃ bs, v = .scalar (.bytes bs)) := by
  obtain ⟨htext, d, hd⟩ := of_ttlSetting hv (cacheTtl_of_check h)
  have httl : c.ttl = (Time.durationOfText v.display).mapError Time.DurationError.defect := by
    rw [ttl, htext]
  refine ⟨d, hd, ?_⟩
  rcases Time.durationOfText_display hd with ⟨hread, hkind⟩ | ⟨hread, hkind⟩
  · rw [httl, hread]
    refine ⟨iff_of_true rfl hkind, iff_of_false nofun ?_⟩
    rintro (⟨x, rfl⟩ | ⟨b, rfl⟩ | ⟨bs, rfl⟩) <;>
      rcases hkind with ⟨_, hother⟩ | ⟨_, hother⟩ <;> cases hother
  · rw [httl, hread]
    refine ⟨iff_of_false nofun ?_, iff_of_true rfl hkind⟩
    rintro (⟨s, rfl⟩ | ⟨n, rfl⟩) <;>
      rcases hkind with ⟨_, hother⟩ | ⟨_, hother⟩ | ⟨_, hother⟩ <;> cases hother

/-- Settings with a time to live. -/
def withTtl (v : Value) : List (Scalar × Value) :=
  [(.text "apispec", .text "shop.yaml"), (.text "cache_ttl", v)]

theorem field?_withTtl (v : Value) : Value.field? (withTtl v) "cache_ttl" = some v := rfl

/-- The settings that are kept of these. -/
def keepingTtl (text : String) : ApiConfig :=
  { apispec := "shop.yaml", url := "", auth := "", cacheTtl := text, output := "json",
    headers := [], apiKeyHeader := defaultKeyHeader, extra := [] }

/-- A duration is accepted as their time to live. -/
theorem check_withTtl {d : Time.Duration} (h : Time.durationOf v = .ok d) (location : List String) :
    check location (.mapping (withTtl v)) = .ok (keepingTtl v.display) := by
  have httl : ttlSetting (withTtl v) location = .ok v.display := by
    simp only [ttlSetting, field?_withTtl, h]
  simp only [check, httl]
  rfl

theorem ttl_of_check_ninety :
    check ["apis", "shop"] (.mapping (withTtl (.int 90))) = .ok (keepingTtl "90") ∧
      Value.field? (withTtl (.int 90)) "cache_ttl" = some (.int 90) ∧
      (keepingTtl "90").ttl = .ok ⟨90000000⟩ := by
  have hninety : Time.durationOf (.int 90) = .ok ⟨90000000⟩ := rfl
  have hcheck : check ["apis", "shop"] (.mapping (withTtl (.int 90))) = .ok (keepingTtl "90") :=
    check_withTtl hninety _
  obtain ⟨d, hd, hread, -⟩ := ttl_of_check hcheck (v := .int 90) rfl
  obtain rfl := Except.ok.inj (hninety.symm.trans hd)
  exact ⟨hcheck, rfl, hread.2 (.inr ⟨90, rfl⟩)⟩

/-- One second and a half is accepted, and then it cannot be read. -/
theorem not_forall_ttl_eq_durationOf :
    ¬ ∀ fields location c v, check location (.mapping fields) = .ok c →
      Value.field? fields "cache_ttl" = some v →
        ∃ d, Time.durationOf v = .ok d ∧ c.ttl = .ok d := by
  intro h
  have hvalid : (Time.durationOf (.float 1.5)).toOption = some ⟨1500000⟩ := by decide +kernel
  have hduration : Time.durationOf (.float 1.5) = .ok ⟨1500000⟩ := by
    cases hd : Time.durationOf (.float 1.5) with
    | error e =>
      rw [hd] at hvalid
      cases hvalid
    | ok d =>
      rw [hd] at hvalid
      exact congrArg _ (Option.some.inj hvalid)
  obtain ⟨d, -, hread⟩ := h _ _ _ _ (check_withTtl hduration ["apis", "shop"]) rfl
  rcases Time.durationOfText_display hduration with ⟨-, ⟨s, hs⟩ | ⟨n, hn⟩⟩ | ⟨hmalformed, -⟩
  · cases hs
  · cases hn
  · rw [ttl, keepingTtl, hmalformed] at hread
    cases hread

end ApiShell.ApiConfig
