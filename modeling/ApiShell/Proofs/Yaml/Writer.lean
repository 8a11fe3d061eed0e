import ApiShell.Proofs.Decimal.Layout
import ApiShell.Proofs.Json.Plain
import ApiShell.Proofs.Json.Token
import ApiShell.Text.Split
import ApiShell.Yaml.Writer

/-!
# The characters of a YAML text

Without leave to use other characters, a value that JSON has is written in printable ASCII and line
feeds.  Every step of the pen keeps what is written so (`Pen.IsAscii`), and the writer follows the parts
of the value.  In particular the text has the line breaks of this system only, and it is read from a
file as it was written.
-/

namespace ApiShell

/-- A text without carriage returns has the line breaks of this system. -/
theorem Text.plainBreaks_eq_self {cs : List Char} (h : '\r' ∉ cs) : Text.plainBreaks cs = cs := by
  induction cs with
  | nil => rfl
  | cons c cs ih =>
    rw [List.mem_cons, not_or] at h
    have hc : c ≠ '\r' := Ne.symm h.1
    rw [Text.plainBreaks.eq_3 _ _ (fun _ heq _ => hc heq) hc, ih h.2]

namespace Yaml

/-- Characters that need no code, not even in ASCII. -/
def AreAscii (cs : List Char) : Prop := ∀ c ∈ cs, isWritable false c = true

theorem isWritable_iff {c : Char} :
    isWritable false c = true ↔ c = '\n' ∨ (0x20 ≤ c.toNat ∧ c.toNat ≤ 0x7E) := by
  simp [isWritable]

section Chars

variable {c : Char} {cs ds : List Char}

theorem areAscii_nil : AreAscii [] := fun _ h => absurd h List.not_mem_nil

theorem areAscii_cons : AreAscii (c :: cs) ↔ isWritable false c = true ∧ AreAscii cs :=
  List.forall_mem_cons

theorem areAscii_append : AreAscii (cs ++ ds) ↔ AreAscii cs ∧ AreAscii ds :=
  List.forall_mem_append

theorem areAscii_reverse : AreAscii cs.reverse ↔ AreAscii cs :=
  forall_congr' fun _ => imp_congr_left List.mem_reverse

theorem isWritable_of_isNumberChar (h : Decimal.IsNumberChar c) : isWritable false c = true := by
  rw [isWritable_iff]
  rcases h with hdigit | hother
  · obtain ⟨hlow, hhigh⟩ : 48 ≤ c.toNat ∧ c.toNat ≤ 57 := Char.isDigit_iff_toNat.1 hdigit
    exact .inr ⟨by omega, by omega⟩
  · simp only [List.mem_cons, List.not_mem_nil, or_false] at hother
    rcases hother with rfl | rfl | rfl | rfl <;> decide

/-! ### Codes -/

theorem isWritable_upperHex {width n : Nat} : AreAscii (upperHex width n) := by
  have hdigit : ∀ d < 16, isWritable false (Text.hexDigit d).toUpper = true := by decide
  have hpadded : ∀ width n, AreAscii ((Text.hexPadded width n).map Char.toUpper) := by
    intro width
    induction width with
    | zero => exact fun _ => areAscii_nil
    | succ width ih =>
      intro n
      rw [Text.hexPadded, List.map_append, areAscii_append]
      exact ⟨ih _, areAscii_cons.2 ⟨hdigit _ (Nat.mod_lt n (by decide)), areAscii_nil⟩⟩
  exact hpadded width n

theorem isWritable_escapeLetter {letter : Char} (h : escapeLetter? c = some letter) :
    isWritable false letter = true := by
  unfold escapeLetter? at h
  obtain ⟨entry, hentry, rfl⟩ := Option.map_eq_some_iff.1 h
  exact (List.all_eq_true (p := fun e => isWritable false e.2)).1 (by decide) entry
    (List.mem_of_find?_eq_some hentry)

theorem areAscii_escapeCode (c : Char) : AreAscii (escapeCode c) := by
  unfold escapeCode
  split
  · next letter hletter =>
    exact areAscii_cons.2 ⟨by decide, areAscii_cons.2 ⟨isWritable_escapeLetter hletter, areAscii_nil⟩⟩
  · split
    · exact areAscii_cons.2 ⟨by decide, areAscii_cons.2 ⟨by decide, isWritable_upperHex⟩⟩
    · split
      · exact areAscii_cons.2 ⟨by decide, areAscii_cons.2 ⟨by decide, isWritable_upperHex⟩⟩
      · exact areAscii_cons.2 ⟨by decide, areAscii_cons.2 ⟨by decide, isWritable_upperHex⟩⟩

theorem isWritable_of_standsInDoubleQuotes (h : standsInDoubleQuotes false c = true) :
    isWritable false c = true := by
  simp only [standsInDoubleQuotes, Bool.false_and, Bool.or_false, Bool.and_eq_true,
    decide_eq_true_eq] at h
  exact isWritable_iff.2 (.inr h.2)

/-! ### Runs -/

/-- A run has the characters of its scalar. -/
theorem areAscii_of_mem_scalarRuns (h : AreAscii cs) : ∀ run ∈ scalarRuns cs, AreAscii run := by
  induction cs with
  | nil => exact fun _ hrun => absurd hrun List.not_mem_nil
  | cons c cs ih =>
    obtain ⟨hc, hcs⟩ := areAscii_cons.1 h
    have hruns := ih hcs
    rw [scalarRuns]
    split
    · next d run runs heq =>
      rw [heq] at hruns
      obtain ⟨hrun, hrest⟩ := List.forall_mem_cons.1 hruns
      split
      · exact List.forall_mem_cons.2 ⟨areAscii_cons.2 ⟨hc, hrun⟩, hrest⟩
      · exact List.forall_mem_cons.2 ⟨areAscii_cons.2 ⟨hc, areAscii_nil⟩, hruns⟩
    · exact List.forall_mem_cons.2 ⟨areAscii_cons.2 ⟨hc, areAscii_nil⟩, hruns⟩

end Chars

/-! ### The pen -/

namespace Pen

/-- What has been written so far needs no code. -/
def IsAscii (p : Pen) : Prop := AreAscii p.written

namespace IsAscii

variable {p : Pen} {cs : List Char} {runs : List (List Char)} {c : Char} {indent : Nat}
  {split : Bool}

theorem put (h : p.IsAscii) (hcs : AreAscii cs) : (p.put cs).IsAscii :=
  areAscii_append.2 ⟨areAscii_reverse.2 hcs, h⟩

theorem lineBreak (h : p.IsAscii) (hc : isWritable false c = true) : (p.lineBreak c).IsAscii :=
  areAscii_cons.2 ⟨hc, h⟩

theorem indentTo (h : p.IsAscii) (n : Nat) : (p.indentTo n).IsAscii := by
  have hspaces : ∀ count, AreAscii (List.replicate count ' ') := fun count c hc => by
    rw [List.eq_of_mem_replicate hc]
    decide
  have hfill : ∀ q : Pen, q.IsAscii → IsAscii (if q.column < n then
      { q.put (List.replicate (n - q.column) ' ') with blank := true } else q) := by
    intro q hq
    split
    · exact hq.put (hspaces _)
    · exact hq
  refine hfill _ ?_
  split
  · exact h.lineBreak (by decide)
  · exact h

theorem indicator {needsBlank blankAfter keepsFresh : Bool} (h : p.IsAscii)
    (hc : isWritable false c = true) :
    (p.indicator c needsBlank blankAfter keepsFresh).IsAscii := by
  have hmark : AreAscii (if p.blank || !needsBlank then [c] else [' ', c]) := by
    split
    · exact areAscii_cons.2 ⟨hc, areAscii_nil⟩
    · exact areAscii_cons.2 ⟨by decide, areAscii_cons.2 ⟨hc, areAscii_nil⟩⟩
  exact h.put hmark

theorem plainRuns (h : p.IsAscii) (hruns : ∀ run ∈ runs, AreAscii run) :
    (Pen.plainRuns split indent p runs).IsAscii := by
  induction runs generalizing p with
  | nil => exact h
  | cons run runs ih =>
    obtain ⟨hrun, hrest⟩ := List.forall_mem_cons.1 hruns
    rw [Pen.plainRuns]
    split
    · exact ih (h.indentTo indent) hrest
    · exact ih (h.put hrun) hrest

/-- The line breaks of a run are written one after the other. -/
theorem foldl_lineBreak (h : p.IsAscii) (hcs : AreAscii cs) :
    (cs.foldl Pen.lineBreak p).IsAscii := by
  induction cs generalizing p with
  | nil => exact h
  | cons c cs ih =>
    obtain ⟨hc, hrest⟩ := areAscii_cons.1 hcs
    exact ih (h.lineBreak hc) hrest

theorem quotedRuns {inner : Bool} (h : p.IsAscii) (hruns : ∀ run ∈ runs, AreAscii run) :
    (Pen.quotedRuns split indent inner p runs).IsAscii := by
  induction runs generalizing p inner with
  | nil => exact h
  | cons run runs ih =>
    obtain ⟨hrun, hrest⟩ := List.forall_mem_cons.1 hruns
    rw [Pen.quotedRuns.eq_def]
    dsimp only
    split
    · exact ih (h.indentTo indent) hrest
    · split
      · split
        · refine ih (indentTo (foldl_lineBreak ?_ hrun) indent) hrest
          split
          · exact h.lineBreak (by decide)
          · exact h
        · refine ih (h.put fun d hd => ?_) hrest
          obtain ⟨e, he, hd⟩ := List.mem_flatMap.1 hd
          split at hd
          · obtain rfl : d = '\'' := by simpa using hd
            decide
          · rw [List.mem_singleton.1 hd]
            exact hrun e he
      · exact ih h hrest

theorem foldQuoted (h : p.IsAscii) (next : Option Char) : (p.foldQuoted indent next).IsAscii := by
  have hslash : AreAscii ['\\'] := areAscii_cons.2 ⟨by decide, areAscii_nil⟩
  unfold Pen.foldQuoted
  dsimp only
  split
  · exact ((h.put hslash).indentTo indent).put hslash
  · exact (h.put hslash).indentTo indent

theorem doubleQuotedChars {inner coded : Bool} (h : p.IsAscii) (cs : List Char) :
    (doubleQuotedChars false split indent inner coded p cs).IsAscii := by
  induction cs generalizing p inner coded with
  | nil => exact h
  | cons c cs ih =>
    rw [Yaml.doubleQuotedChars]
    dsimp only
    split
    · next hstands =>
      have hc : AreAscii [c] :=
        areAscii_cons.2 ⟨isWritable_of_standsInDoubleQuotes hstands, areAscii_nil⟩
      refine ih (put ?_ hc)
      split
      · exact h.foldQuoted _
      · exact h
    · have hcode := h.put (areAscii_escapeCode c)
      refine ih ?_
      split
      · exact hcode.foldQuoted _
      · exact hcode

theorem plain (h : p.IsAscii) (hcs : AreAscii cs) (isRoot : Bool) :
    (p.plain split isRoot indent cs).IsAscii := by
  unfold Pen.plain
  dsimp only
  split
  · exact h
  · have hblank : IsAscii (if p.blank then { p with openEnded := p.openEnded || isRoot }
        else Pen.put { p with openEnded := p.openEnded || isRoot } [' ']) := by
      split
      · exact h
      · exact put (p := { p with openEnded := p.openEnded || isRoot }) h
          (areAscii_cons.2 ⟨by decide, areAscii_nil⟩)
    exact plainRuns (p := { (if p.blank then _ else _ : Pen) with blank := false, fresh := false })
      hblank (areAscii_of_mem_scalarRuns hcs)

end IsAscii

end Pen

/-! ### Values -/

/-- A text that is not written in double quotes needs no code. -/
theorem areAscii_of_textStyle {isKey : Bool} {s : String}
    (h : textStyle false isKey s ≠ .doubleQuoted) : AreAscii s.toList := by
  have hsingle : allowsSingleQuotes false s.toList = true → AreAscii s.toList := by
    intro hallows
    rw [allowsSingleQuotes, Bool.and_eq_true, List.all_eq_true] at hallows
    exact hallows.1
  unfold textStyle at h
  dsimp only at h
  split at h
  · next hplain =>
    simp only [allowsPlain, Bool.and_eq_true] at hplain
    exact hsingle hplain.1.2.1.1.1.1
  · split at h
    · next hquotes =>
      rw [Bool.and_eq_true] at hquotes
      exact hsingle hquotes.1
    · exact absurd rfl h

theorem Pen.IsAscii.text {p : Pen} (h : p.IsAscii) (isKey isRoot : Bool) (indent : Nat)
    (s : String) : (p.text false isKey isRoot indent s).IsAscii := by
  have hquote : isWritable false '\'' = true := by decide
  have hdouble : isWritable false '"' = true := by decide
  unfold Pen.text
  split
  · next hstyle => exact h.plain (areAscii_of_textStyle (by rw [hstyle]; exact nofun)) isRoot
  · next hstyle =>
    have hruns := areAscii_of_mem_scalarRuns (areAscii_of_textStyle (by rw [hstyle]; exact nofun))
    exact ((h.indicator hquote).quotedRuns hruns).indicator hquote
  · exact ((h.indicator hdouble).doubleQuotedChars _).indicator hdouble

theorem areAscii_floatSpelling {x : Float} (h : (Decimal.dyadic? x).isSome = true) :
    AreAscii (floatSpelling x).toList := by
  obtain ⟨d, hd⟩ := Option.isSome_iff_exists.1 h
  have hwrite : AreAscii (Decimal.Layout.write ⟨-3, 16, false, ".nan", ".inf", "-.inf"⟩ x) :=
    fun c hc => isWritable_of_isNumberChar ((Decimal.Layout.write_of_dyadic _ hd).1 c hc)
  unfold floatSpelling
  dsimp only
  split
  · rw [String.toList_ofList]
    exact hwrite
  · rw [String.toList_ofList]
    intro c hc
    obtain ⟨e, he, hc⟩ := List.mem_flatMap.1 hc
    split at hc
    · have hpoint : AreAscii ['.', '0', 'e'] := by simp [AreAscii, isWritable_iff]
      exact hpoint c hc
    · rw [List.mem_singleton.1 hc]
      exact hwrite e he

/-- The spelling of a scalar that JSON has needs no code, unless the scalar is a text. -/
theorem areAscii_scalarSpelling {s : Scalar} (h : s.IsJson) (hs : ∀ t, s ≠ .text t) :
    AreAscii (scalarSpelling s).1.toList := by
  cases s with
  | null => exact (List.all_eq_true (p := isWritable false)).1 (by decide)
  | bool b => cases b <;> exact (List.all_eq_true (p := isWritable false)).1 (by decide)
  | int n =>
    show AreAscii (toString n).toList
    rw [Json.toList_toString, areAscii_append]
    constructor
    · split
      · exact areAscii_cons.2 ⟨by decide, areAscii_nil⟩
      · exact areAscii_nil
    · intro c hc
      exact isWritable_of_isNumberChar (.inl (Nat.isDigit_of_mem_toDigits (by decide) (by decide) hc))
  | float x => exact areAscii_floatSpelling h
  | text t => exact absurd rfl (hs t)
  | _ => exact h.elim

theorem Pen.IsAscii.scalar {p : Pen} (h : p.IsAscii) (isKey isRoot : Bool) (indent : Nat)
    {s : Scalar} (hs : s.IsJson) : (p.scalar false isKey isRoot indent s).IsAscii := by
  unfold Pen.scalar
  split
  · exact h.text isKey isRoot indent _
  · next hother => exact h.plain (areAscii_scalarSpelling hs hother) isRoot

mutual

/-- A value that JSON has is written without codes. -/
theorem Pen.IsAscii.value : ∀ {v : Value} {p : Pen}, p.IsAscii → v.IsJson →
    ∀ (indent : Option Nat) (inField : Bool), (p.value false indent inField v).IsAscii
  | .scalar s, p, h, hv, indent, inField => by
    rw [Pen.value]
    exact h.scalar false _ _ hv
  | .set _, _, _, hv, _, _ => hv.elim
  | .pair _ _, _, _, hv, _, _ => hv.elim
  | .list items, p, h, hv, indent, inField => by
    rw [Pen.value]
    split
    · exact (h.indicator (by decide)).indicator (by decide)
    · exact Pen.IsAscii.items h hv _
  | .mapping fields, p, h, hv, indent, inField => by
    rw [Pen.value]
    split
    · exact (h.indicator (by decide)).indicator (by decide)
    · exact Pen.IsAscii.fields h hv.2 _

theorem Pen.IsAscii.items : ∀ {items : List Value} {p : Pen}, p.IsAscii → Value.AreJson items →
    ∀ depth, (p.items false depth items).IsAscii
  | [], _, h, _, _ => h
  | v :: vs, p, h, ⟨hv, hvs⟩, depth => by
    rw [Pen.items]
    exact Pen.IsAscii.items
      (Pen.IsAscii.value ((h.indentTo depth).indicator (by decide)) hv _ _) hvs depth

theorem Pen.IsAscii.fields : ∀ {fields : List (Scalar × Value)} {p : Pen}, p.IsAscii →
    Value.HaveJson fields → ∀ depth, (p.fields false depth fields).IsAscii
  | [], _, h, _, _ => h
  | (k, v) :: fs, p, h, ⟨⟨key, hkey⟩, hv, hfs⟩, depth => by
    have hk : k.IsJson := by
      rw [hkey]
      trivial
    rw [Pen.fields]
    refine Pen.IsAscii.fields (Pen.IsAscii.value ?_ hv _ _) hfs depth
    split
    · exact ((h.indentTo depth).scalar true false _ hk).indicator (by decide)
    · refine (indentTo (scalar ?_ false false _ hk) depth).indicator (by decide)
      exact (h.indentTo depth).indicator (by decide)

end

/-- **A value that JSON has is written in printable ASCII and line feeds.** -/
theorem areAscii_write {v : Value} (h : v.IsJson) : AreAscii (write false v).toList := by
  have hvalue := Pen.IsAscii.value (p := {}) areAscii_nil h none false
  unfold write
  dsimp only
  rw [String.toList_ofList, areAscii_reverse]
  split
  · have hdots : AreAscii ['.', '.', '.'] := by simp [AreAscii, isWritable_iff]
    exact ((hvalue.indentTo 0).put hdots).lineBreak (by decide)
  · exact hvalue.indentTo 0

/-- What is written is read from a file as it was written. -/
theorem plainBreaks_write {v : Value} (h : v.IsJson) :
    Text.plainBreaks (write false v).toList = (write false v).toList := by
  refine Text.plainBreaks_eq_self fun hmem => ?_
  exact absurd (areAscii_write h _ hmem) (by decide)

end Yaml

end ApiShell
