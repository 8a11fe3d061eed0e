import ApiShell.Proofs.Yaml.LayoutValues
import ApiShell.Spec.Content

/-!
# The hint of a format

JSON is tried first unless the hint says YAML, so a text that is JSON is read as JSON with the hint for
JSON and without a hint.  The hint for YAML has the text read as YAML 1.1, which is not quite a larger
language than JSON: tabs between tokens, keys that are far from their colon and a few characters are
refused, and some numbers are texts.  `Yaml.IsShared` says of a JSON text that it has nothing of this.
On the texts of mappings without repeated keys it is exactly the condition under which no hint makes a
difference (`parseContent_hints`).
-/

namespace ApiShell.Spec

open Json (Gap Key Layout Members Numeral Exponent Page Piece)
open Yaml (IsShared)

/-! ### JSON texts -/

/-- The page of a mapping. -/
def isMapping : Layout → Bool
  | .emptyMapping _ | .mapping _ => true
  | .word _ _ | .number _ | .string _ | .emptyList _ | .list _ => false

theorem isBracketed_of_isMapping {t : Layout} (h : isMapping t = true) : Yaml.isBracketed t = true := by
  cases t with
  | emptyMapping | mapping => rfl
  | word | number | string | emptyList | list => cases h

theorem exists_fields_iff (t : Layout) : (∃ fields, t.value = .mapping fields) ↔ isMapping t = true := by
  cases t with
  | emptyMapping | mapping => exact iff_of_true ⟨_, rfl⟩ rfl
  | word w hw =>
    refine iff_of_false ?_ Bool.false_ne_true
    rintro ⟨fields, h⟩
    simp only [Json.wordValues, List.mem_cons, List.not_mem_nil, or_false] at hw
    rcases hw with rfl | rfl | rfl | rfl | rfl | rfl <;> cases h
  | number | string | emptyList | list =>
    refine iff_of_false ?_ Bool.false_ne_true
    rintro ⟨fields, h⟩
    cases h

theorem readText_page (p : Page) : Json.readText (String.ofList p.text) = .ok p.layout.value := by
  rw [Json.readText, String.toList_ofList, Json.read_text]

/-- A text that is read as JSON is the text of a page. -/
theorem exists_page_of_readText {content : String} {v : Value} (h : Json.readText content = .ok v) :
    ∃ p : Page, content = String.ofList p.text ∧ v = p.layout.value := by
  unfold Json.readText at h
  split at h
  · next v' hread =>
    obtain rfl := Except.ok.inj h
    obtain ⟨p, htext, rfl⟩ := Json.exists_page_of_read hread
    exact ⟨p, by rw [← htext, String.ofList_toList], rfl⟩
  · cases h

/-! ### Mappings -/

section

variable {source : String}

/-- What is a mapping is given back as it is. -/
theorem requireMapping_eq_ok_iff {v document : Value} :
    requireMapping v source = .ok document ↔ v = document ∧ ∃ fields, v = .mapping fields := by
  unfold requireMapping
  split
  · next fields =>
    rw [Except.ok.injEq]
    exact ⟨fun h => ⟨h, fields, rfl⟩, fun h => h.1⟩
  · exact iff_of_false (fun h => nomatch h) fun ⟨_, _, h⟩ => nomatch h
  · next v hmapping _ => exact iff_of_false (fun h => nomatch h) fun ⟨_, fields, h⟩ => hmapping fields h

theorem parseYaml_eq_ok_iff {content : String} {document : Value} :
    parseYaml content source = .ok document ↔
      Yaml.read content.toList = .ok document ∧ ∃ fields, document = .mapping fields := by
  unfold parseYaml
  cases Yaml.read content.toList with
  | error t => exact iff_of_false (fun h => nomatch h) fun h => nomatch h.1
  | ok v =>
    rw [Except.ok.injEq]
    refine requireMapping_eq_ok_iff.trans ⟨?_, ?_⟩
    · rintro ⟨rfl, h⟩
      exact ⟨rfl, h⟩
    · rintro ⟨rfl, h⟩
      exact ⟨rfl, h⟩

/-- Without the hint for YAML a JSON mapping is read as JSON. -/
theorem parseContent_of_readText {content : String} {hint : Hint} {document : Value}
    (hjson : Json.readText content = .ok document) (hmapping : ∃ fields, document = .mapping fields)
    (hhint : hint ≠ .yaml) : parseContent content hint source = .ok document := by
  rw [parseContent, if_neg hhint, hjson]
  exact requireMapping_eq_ok_iff.2 ⟨rfl, hmapping⟩

/-- With the hint for YAML a JSON mapping is read as what it is in JSON if YAML shares its text. -/
theorem parseContent_yaml_iff {p : Page} (hmapping : isMapping p.layout = true)
    (hdistinct : p.layout.HasDistinctKeys) :
    parseContent (String.ofList p.text) .yaml source = .ok p.layout.value ↔ IsShared p := by
  rw [parseContent, if_pos rfl, parseYaml_eq_ok_iff, String.toList_ofList,
    Yaml.read_text_iff p (isBracketed_of_isMapping hmapping) hdistinct,
    and_iff_left ((exists_fields_iff p.layout).2 hmapping)]

/-- What the hint for JSON gives is on a page. -/
theorem exists_page_of_parseContent {content : String} {document : Value}
    (h : parseContent content .json source = .ok document) :
    ∃ p : Page, isMapping p.layout = true ∧ content = String.ofList p.text ∧ document = p.layout.value := by
  rw [parseContent, if_neg (by decide)] at h
  cases hjson : Json.readText content with
  | error problem =>
    rw [hjson] at h
    cases h
  | ok v =>
    rw [hjson] at h
    obtain ⟨rfl, hmapping⟩ := requireMapping_eq_ok_iff.1 h
    obtain ⟨p, htext, rfl⟩ := exists_page_of_readText hjson
    exact ⟨p, (exists_fields_iff p.layout).1 hmapping, htext, rfl⟩

end

/-! ### Documents -/

def noGap : Gap := ⟨[], List.forall_mem_nil _⟩

def oneSpace : Gap := ⟨[' '], List.forall_mem_singleton.2 rfl⟩

/-- The page of a mapping with the key `a`. -/
def pageOf (t : Layout) : Page :=
  let key : Key := ⟨noGap, [.plain 'a' (by decide) (by decide) (by decide)], noGap⟩
  ⟨noGap, .mapping (.last key oneSpace t noGap), noGap⟩

theorem isExponentLetter_e : 'e' = 'e' ∨ 'e' = 'E' := .inl rfl

/-- The number `-1.5e+3`. -/
def signedNumeral : Numeral where
  negative := true
  whole := ['1']
  fraction := ['5']
  exponent := some ⟨'e', some false, ['3'], isExponentLetter_e, List.forall_mem_singleton.2 rfl,
    List.cons_ne_nil _ _⟩
  isDigit_whole := List.forall_mem_singleton.2 rfl
  whole_ne_nil := List.cons_ne_nil _ _
  whole_eq_zero := fun h => absurd h (by decide)
  isDigit_fraction := List.forall_mem_singleton.2 rfl

/-- A list of a number, null and a text with a space. -/
def sharedList : Layout :=
  .list (.more noGap (.number signedNumeral) noGap
    (.more oneSpace (.word ("null", .null) (by simp [Json.wordValues])) noGap
      (.last oneSpace (.string [.plain 'x' (by decide) (by decide) (by decide),
        .plain ' ' (by decide) (by decide) (by decide),
        .plain 'y' (by decide) (by decide) (by decide)]) noGap)))

def sharedContent : String := "\x7b\"a\": [-1.5e+3, null, \"x y\"]\x7d"

def sharedDocument : Value := .mapping [(.text "a", .list [.float (-1500), .null, .text "x y"])]

/-- The number `1e3`. -/
def unsignedNumeral : Numeral where
  negative := false
  whole := ['1']
  fraction := []
  exponent := some ⟨'e', none, ['3'], isExponentLetter_e, List.forall_mem_singleton.2 rfl,
    List.cons_ne_nil _ _⟩
  isDigit_whole := List.forall_mem_singleton.2 rfl
  whole_ne_nil := List.cons_ne_nil _ _
  whole_eq_zero := fun h => absurd h (by decide)
  isDigit_fraction := List.forall_mem_nil _

end ApiShell.Spec
