import ApiShell.Proofs.Json.Token
import ApiShell.Proofs.Json.Tree
import ApiShell.Proofs.Text.Split

/-!
# Values that are read back

A value that was read from a JSON text is written to a text that is read as this value again, in
every style that leaves characters beyond ASCII as they are (`readText_write`).  The text of a value
is read up to what follows it (`Reads`), which may be space, a comma or a closing bracket; from this
the texts of lists and mappings are put together.
-/

namespace ApiShell.Json

open Value (IsTree textFields)

/-! ### Space between tokens -/

/-- Space is passed over. -/
theorem skipSpace_append {space cs : List Char} (hspace : ∀ c ∈ space, isSpace c = true) :
    skipSpace (space ++ cs) = skipSpace cs :=
  List.dropWhile_append_of_pos hspace

theorem skipSpace_cons {c : Char} (hc : isSpace c = false) (cs : List Char) :
    skipSpace (c :: cs) = c :: cs :=
  List.dropWhile_cons_of_neg (Bool.eq_false_iff.1 hc)

/-- Nothing is passed over where a text begins with another character. -/
theorem skipSpace_of_head? {cs : List Char} {c : Char} (hhead : cs.head? = some c)
    (hc : isSpace c = false) : skipSpace cs = cs := by
  obtain ⟨tail, rfl⟩ := List.head?_eq_some_iff.1 hhead
  exact skipSpace_cons hc tail

theorem head?_append {cs : List Char} {c : Char} (hhead : cs.head? = some c) (rest : List Char) :
    (cs ++ rest).head? = some c := by
  rw [List.head?_append, hhead]
  rfl

/-- A text joined from others begins like the first of them. -/
theorem head?_joinWith_append {sep text : List Char} {c : Char} (hhead : text.head? = some c)
    (parts : List (List Char)) (rest : List Char) :
    (Text.joinWith sep (text :: parts) ++ rest).head? = some c := by
  have hne : text ≠ [] := List.ne_nil_of_mem (List.mem_of_mem_head? hhead)
  exact head?_append ((Text.head?_joinWith hne).trans hhead) rest

theorem endsNumber_nil : EndsNumber [] := by
  intro c hc
  cases hc

theorem endsNumber_cons {c : Char} (hc : isAsciiDigit c = false ∧ c ≠ '.' ∧ c ≠ 'e' ∧ c ≠ 'E')
    (cs : List Char) : EndsNumber (c :: cs) := by
  intro d hd
  obtain rfl : c = d := Option.some.inj hd
  exact hc

/-- Space does not continue a number. -/
theorem endsNumber_append {space : List Char} (hspace : ∀ c ∈ space, isSpace c = true)
    {cs : List Char} (hcs : EndsNumber cs) : EndsNumber (space ++ cs) := by
  cases space with
  | nil => exact hcs
  | cons s space =>
    intro d hd
    obtain rfl : s = d := Option.some.inj hd
    have hs := hspace s List.mem_cons_self
    simp only [isSpace, Bool.or_eq_true, beq_iff_eq] at hs
    rcases hs with ((rfl | rfl) | rfl) | rfl <;> decide

/-! ### The texts of values -/

/-- A text of a value is read as this value, whatever follows. -/
structure Reads (text : List Char) (v : Value) : Prop where
  begins : ∃ c, text.head? = some c ∧ isSpace c = false ∧ c ≠ ']'
  value_eq : ∀ {fuel : ℕ} {rest : List Char}, 2 * text.length ≤ fuel → EndsNumber rest →
    value fuel (text ++ rest) = .ok (v, rest)

theorem Reads.length_pos {text : List Char} {v : Value} (h : Reads text v) : 0 < text.length := by
  obtain ⟨c, hhead, -⟩ := h.begins
  exact List.length_pos_of_mem (List.mem_of_mem_head? hhead)

/-- A text that is not empty leaves fuel for one call. -/
theorem reads_intro {text : List Char} {v : Value}
    (hbegins : ∃ c, text.head? = some c ∧ isSpace c = false ∧ c ≠ ']')
    (h : ∀ {fuel : ℕ} {rest : List Char}, 2 * text.length ≤ fuel + 1 → EndsNumber rest →
      value (fuel + 1) (text ++ rest) = .ok (v, rest)) : Reads text v := by
  refine ⟨hbegins, fun {fuel rest} hfuel hrest => ?_⟩
  obtain ⟨c, hhead, -⟩ := hbegins
  have hlength := List.length_pos_of_mem (List.mem_of_mem_head? hhead)
  obtain ⟨fuel, rfl⟩ : ∃ n, fuel = n + 1 := Nat.exists_eq_succ_of_ne_zero (by omega)
  exact h hfuel hrest

/-- A number is not taken for a word. -/
theorem atom_of_number? {cs : List Char} {r : Value × List Char} (h : number? cs = some r) :
    atom cs = .ok r := by
  have hword : (wordValues.findSome? fun w =>
      (Text.dropStart? w.1.toList cs).map fun rest => (w.2, rest)) = none := by
    rw [List.findSome?_eq_none_iff]
    intro w hw
    rw [Option.map_eq_none_iff, Option.eq_none_iff_forall_ne_some]
    intro rest hrest
    rw [Text.dropStart?_eq_some_iff.1 hrest] at h
    simp only [wordValues, List.mem_cons, List.not_mem_nil, or_false] at hw
    rcases hw with rfl | rfl | rfl | rfl | rfl | rfl <;> cases h
  rw [atom, hword, h]

/-- A number is read by its first character. -/
theorem value_of_number? {cs : List Char} {r : Value × List Char} (h : number? cs = some r)
    (fuel : ℕ) : value (fuel + 1) cs = .ok r := by
  rw [value.eq_def]
  dsimp only
  split
  · cases h
  · cases h
  · cases h
  · exact atom_of_number? h

theorem begins_of_number? {cs : List Char} {r : Value × List Char} (h : number? cs = some r) :
    ∃ c, cs.head? = some c ∧ isSpace c = false ∧ c ≠ ']' := by
  cases cs with
  | nil => cases h
  | cons c tail =>
    refine ⟨c, rfl, Bool.eq_false_iff.2 fun hspace => ?_, ?_⟩
    · simp only [isSpace, Bool.or_eq_true, beq_iff_eq] at hspace
      rcases hspace with ((rfl | rfl) | rfl) | rfl <;> cases h
    · rintro rfl
      cases h

theorem reads_of_number? {text : List Char} {v : Value}
    (h : ∀ {rest}, EndsNumber rest → number? (text ++ rest) = some (v, rest)) : Reads text v := by
  have hbegins := begins_of_number? (h endsNumber_nil)
  rw [List.append_nil] at hbegins
  exact reads_intro hbegins fun _ hrest => value_of_number? (h hrest) _

theorem reads_stringText (s : String) : Reads (stringText false s.toList) (.text s) := by
  refine reads_intro ⟨'"', rfl, rfl, by decide⟩ fun {fuel rest} _ _ => ?_
  have hread := string_stringText s rest
  show (string (s.toList.flatMap (stringChar false) ++ ['"'] ++ rest) >>= _) = _
  rw [List.append_assoc, List.singleton_append, hread]
  rfl

theorem reads_word {w : String × Value} (hw : w ∈ wordValues) : Reads w.1.toList w.2 := by
  simp only [wordValues, List.mem_cons, List.not_mem_nil, or_false] at hw
  rcases hw with rfl | rfl | rfl | rfl | rfl | rfl <;>
    exact reads_intro ⟨_, rfl, rfl, by decide⟩ fun _ _ => rfl

/-! ### Items and fields -/

section

variable {fuel : ℕ} {cs mid next after rest : List Char} {key : String} {v : Value}

theorem items_last (hv : value fuel cs = .ok (v, after)) (hafter : skipSpace after = ']' :: rest) :
    items (fuel + 1) cs = .ok ([v], rest) := by
  rw [items, hv]
  dsimp only [bind, Except.bind]
  rw [hafter]
  rfl

theorem items_more {vs : List Value} (hv : value fuel cs = .ok (v, after))
    (hafter : skipSpace after = ',' :: next) (hvs : items fuel (skipSpace next) = .ok (vs, rest)) :
    items (fuel + 1) cs = .ok (v :: vs, rest) := by
  rw [items, hv]
  dsimp only [bind, Except.bind]
  rw [hafter]
  show (items fuel (skipSpace next) >>= _) = _
  rw [hvs]
  rfl

theorem members_last (hkey : string cs = .ok (key, mid)) (hmid : skipSpace mid = ':' :: next)
    (hv : value fuel (skipSpace next) = .ok (v, after)) (hafter : skipSpace after = '}' :: rest) :
    members (fuel + 1) ('"' :: cs) = .ok ([(.text key, v)], rest) := by
  show (string cs >>= _) = _
  rw [hkey]
  dsimp only [bind, Except.bind]
  rw [hmid]
  show (value fuel (skipSpace next) >>= _) = _
  rw [hv]
  dsimp only [bind, Except.bind]
  rw [hafter]
  rfl

theorem members_more {others : List Char} {fields : List (Scalar × Value)}
    (hkey : string cs = .ok (key, mid)) (hmid : skipSpace mid = ':' :: next)
    (hv : value fuel (skipSpace next) = .ok (v, after)) (hafter : skipSpace after = ',' :: others)
    (hfields : members fuel (skipSpace others) = .ok (fields, rest)) :
    members (fuel + 1) ('"' :: cs) = .ok ((.text key, v) :: fields, rest) := by
  show (string cs >>= _) = _
  rw [hkey]
  dsimp only [bind, Except.bind]
  rw [hmid]
  show (value fuel (skipSpace next) >>= _) = _
  rw [hv]
  dsimp only [bind, Except.bind]
  rw [hafter]
  show (members fuel (skipSpace others) >>= _) = _
  rw [hfields]
  rfl

theorem value_list {vs : List Value} (hne : next.head? ≠ some ']')
    (hcs : skipSpace cs = next) (hvs : items fuel next = .ok (vs, rest)) :
    value (fuel + 1) ('[' :: cs) = .ok (.list vs, rest) := by
  rw [value, hcs]
  split
  · exact absurd rfl hne
  · rw [hvs]
    rfl

theorem value_mapping {fields : List (Scalar × Value)} (hne : next.head? ≠ some '}')
    (hcs : skipSpace cs = next) (hfields : members fuel next = .ok (fields, rest)) :
    value (fuel + 1) ('{' :: cs) = .ok (.mapping (Value.fieldsOf fields), rest) := by
  rw [value, hcs]
  split
  · exact absurd rfl hne
  · rw [hfields]
    rfl

end

/-! ### Joined texts of items and fields -/

section

variable {space closing : List Char} {parts : List (List Char)}

/-- The items of a list are read one after the other. -/
theorem items_joinWith (hspace : ∀ c ∈ space, isSpace c = true)
    (hclosing : ∀ c ∈ closing, isSpace c = true) {vs : List Value}
    (h : List.Forall₂ Reads parts vs) (hne : parts ≠ []) {fuel : ℕ} {rest : List Char}
    (hfuel : 2 * (Text.joinWith (',' :: space) parts).length + 1 ≤ fuel) :
    items fuel (Text.joinWith (',' :: space) parts ++ (closing ++ ']' :: rest)) = .ok (vs, rest) := by
  induction h generalizing fuel with
  | nil => exact absurd rfl hne
  | @cons text v parts vs htext hparts ih =>
    obtain ⟨fuel, rfl⟩ : ∃ n, fuel = n + 1 := Nat.exists_eq_succ_of_ne_zero (by omega)
    have hlength := htext.length_pos
    cases hparts with
    | nil =>
      rw [Text.joinWith] at hfuel ⊢
      apply items_last (htext.value_eq (by omega)
        (endsNumber_append hclosing (endsNumber_cons (by decide) rest)))
      rw [skipSpace_append hclosing, skipSpace_cons (by decide)]
    | @cons next w parts vs hnext hparts =>
      obtain ⟨c, hhead, hc, -⟩ := hnext.begins
      rw [Text.joinWith_cons_cons] at hfuel ⊢
      rw [List.append_assoc, List.append_assoc, List.cons_append]
      simp only [List.length_append, List.length_cons] at hfuel
      refine items_more (htext.value_eq (by omega) (endsNumber_cons (c := ',') (by decide) _))
        (skipSpace_cons (by decide) _) ?_
      rw [skipSpace_append hspace,
        skipSpace_of_head? (head?_joinWith_append hhead parts _) hc]
      exact ih (List.cons_ne_nil _ _) (by omega)

/-- A text of a field: its key between quotes, a colon and a text of its value. -/
def ReadsField (gap part : List Char) (e : String × Value) : Prop :=
  ∃ text, part = stringText false e.1.toList ++ ':' :: (gap ++ text) ∧ Reads text e.2

theorem ReadsField.head?_eq {gap part : List Char} {e : String × Value}
    (h : ReadsField gap part e) : part.head? = some '"' := by
  obtain ⟨text, rfl, -⟩ := h
  rfl

/-- The text of a field is read up to its value. -/
theorem ReadsField.append_eq {gap part : List Char} {e : String × Value}
    (hgap : ∀ c ∈ gap, isSpace c = true) (h : ReadsField gap part e) {fuel : ℕ} {rest : List Char}
    (hfuel : 2 * part.length ≤ fuel) (hrest : EndsNumber rest) :
    ∃ cs mid next, part ++ rest = '"' :: cs ∧ string cs = .ok (e.1, mid) ∧
      skipSpace mid = ':' :: next ∧ value fuel (skipSpace next) = .ok (e.2, rest) := by
  obtain ⟨text, rfl, htext⟩ := h
  obtain ⟨c, hhead, hc, -⟩ := htext.begins
  refine ⟨e.1.toList.flatMap (stringChar false) ++ '"' :: ':' :: (gap ++ text ++ rest),
    ':' :: (gap ++ text ++ rest), gap ++ text ++ rest, by simp [stringText], string_stringText _ _,
    skipSpace_cons (by decide) _, ?_⟩
  rw [List.append_assoc, skipSpace_append hgap, skipSpace_of_head? (head?_append hhead rest) hc]
  exact htext.value_eq (by simp at hfuel; omega) hrest

/-- The fields of a mapping are read one after the other. -/
theorem members_joinWith {gap : List Char} (hgap : ∀ c ∈ gap, isSpace c = true)
    (hspace : ∀ c ∈ space, isSpace c = true)
    (hclosing : ∀ c ∈ closing, isSpace c = true) {entries : List (String × Value)}
    (h : List.Forall₂ (ReadsField gap) parts entries) (hne : parts ≠ []) {fuel : ℕ}
    {rest : List Char} (hfuel : 2 * (Text.joinWith (',' :: space) parts).length + 1 ≤ fuel) :
    members fuel (Text.joinWith (',' :: space) parts ++ (closing ++ '}' :: rest)) =
      .ok (textFields entries, rest) := by
  induction h generalizing fuel with
  | nil => exact absurd rfl hne
  | @cons part e parts entries hpart hparts ih =>
    obtain ⟨fuel, rfl⟩ : ∃ n, fuel = n + 1 := Nat.exists_eq_succ_of_ne_zero (by omega)
    cases hparts with
    | nil =>
      rw [Text.joinWith] at hfuel ⊢
      have hlength : 2 * part.length ≤ fuel := by omega
      obtain ⟨cs, mid, next, htext, hkey, hmid, hvalue⟩ := hpart.append_eq hgap hlength
        (endsNumber_append hclosing (endsNumber_cons (c := '}') (by decide) rest))
      rw [htext]
      refine members_last hkey hmid hvalue ?_
      rw [skipSpace_append hclosing, skipSpace_cons (by decide)]
    | @cons next f parts entries hnext hparts =>
      rw [Text.joinWith_cons_cons] at hfuel ⊢
      rw [List.append_assoc, List.append_assoc, List.cons_append]
      simp only [List.length_append, List.length_cons] at hfuel
      have hlength : 2 * part.length ≤ fuel := by omega
      obtain ⟨cs, mid, next', htext, hkey, hmid, hvalue⟩ := hpart.append_eq hgap hlength
        (endsNumber_cons (c := ',') (by decide) _)
      rw [htext]
      refine members_more hkey hmid hvalue (skipSpace_cons (by decide) _) ?_
      rw [skipSpace_append hspace,
        skipSpace_of_head? (head?_joinWith_append hnext.head?_eq parts _) (by decide)]
      exact ih (List.cons_ne_nil _ _) (by omega)

end

/-! ### Styles -/

/-- A style in which what is written can be read back by characters: those beyond ASCII are left as
they are, and a comma or colon has nothing but space behind it. -/
structure Style.IsReadable (style : Style) : Prop where
  asciiOnly_eq : style.asciiOnly = false
  comma_eq : ∃ space, style.comma.toList = ',' :: space ∧ ∀ c ∈ space, isSpace c = true
  colon_eq : ∃ space, style.colon.toList = ':' :: space ∧ ∀ c ∈ space, isSpace c = true

theorem isReadable_compact : compact.IsReadable :=
  ⟨rfl, ⟨[], rfl, nofun⟩, [], rfl, nofun⟩

theorem isReadable_pretty : pretty.IsReadable :=
  ⟨rfl, ⟨[], rfl, nofun⟩, [' '], rfl, List.forall_mem_singleton.2 rfl⟩

namespace Style

variable {style : Style} {depth : ℕ} {parts : List (List Char)}

theorem isSpace_of_mem_newLine {c : Char} (h : c ∈ style.newLine depth) : isSpace c = true := by
  unfold newLine at h
  split at h
  · cases h
  · rcases List.mem_cons.1 h with rfl | h
    · rfl
    · rw [List.eq_of_mem_replicate h]
      rfl

/-- The parts between brackets, with what follows the closing one. -/
theorem enclose_append (depth : ℕ) {space : List Char} (hcomma : style.comma.toList = ',' :: space)
    (opening closing : Char) (part : List Char) (parts : List (List Char)) (rest : List Char) :
    style.enclose depth opening closing (part :: parts) ++ rest =
      opening :: (style.newLine (depth + 1) ++
        (Text.joinWith (',' :: (space ++ style.newLine (depth + 1))) (part :: parts) ++
          (style.newLine depth ++ closing :: rest))) := by
  unfold enclose
  rw [List.isEmpty_cons, if_neg (by decide), hcomma]
  simp only [List.cons_append, List.append_assoc, List.nil_append]

theorem length_joinWith_lt (depth : ℕ) {space : List Char}
    (hcomma : style.comma.toList = ',' :: space) (opening closing : Char) (part : List Char)
    (parts : List (List Char)) :
    (Text.joinWith (',' :: (space ++ style.newLine (depth + 1))) (part :: parts)).length + 1 <
      (style.enclose depth opening closing (part :: parts)).length := by
  have htext := enclose_append depth hcomma opening closing part parts []
  rw [List.append_nil] at htext
  rw [htext]
  simp only [List.length_cons, List.length_append, List.length_nil]
  omega

/-- A text of a list is put together from texts of its items. -/
theorem reads_list (hstyle : style.IsReadable) {vs : List Value} (h : List.Forall₂ Reads parts vs) :
    Reads (style.enclose depth '[' ']' parts) (.list vs) := by
  refine reads_intro ⟨'[', ?_, rfl, by decide⟩ fun {fuel rest} hfuel _ => ?_
  · cases h <;> rfl
  · cases h with
    | nil => rfl
    | @cons part v parts vs hpart hparts =>
      obtain ⟨space, hcomma, hspace⟩ := hstyle.comma_eq
      obtain ⟨c, hhead, hc, hbracket⟩ := hpart.begins
      have hlength := length_joinWith_lt depth hcomma '[' ']' part parts
      have hgap : ∀ c ∈ space ++ style.newLine (depth + 1), isSpace c = true :=
        List.forall_mem_append.2 ⟨hspace, fun _ => isSpace_of_mem_newLine⟩
      have hfirst : (Text.joinWith (',' :: (space ++ style.newLine (depth + 1))) (part :: parts) ++
          (style.newLine depth ++ ']' :: rest)).head? = some c := head?_joinWith_append hhead _ _
      rw [enclose_append depth hcomma]
      refine value_list ?_ ((skipSpace_append fun _ => isSpace_of_mem_newLine).trans
        (skipSpace_of_head? hfirst hc)) ?_
      · rw [hfirst]
        simpa using hbracket
      · exact items_joinWith hgap (fun _ => isSpace_of_mem_newLine) (.cons hpart hparts)
          (List.cons_ne_nil _ _) (by omega)

/-- A text of a mapping is put together from texts of its fields. -/
theorem reads_ofFields (hstyle : style.IsReadable) {gap : List Char}
    (hgap : ∀ c ∈ gap, isSpace c = true) {entries : List (String × Value)}
    (h : List.Forall₂ (ReadsField gap) parts entries) (hkeys : (entries.map Prod.fst).Nodup) :
    Reads (style.enclose depth '{' '}' parts) (.ofFields entries) := by
  refine reads_intro ⟨'{', ?_, rfl, by decide⟩ fun {fuel rest} hfuel _ => ?_
  · cases h <;> rfl
  · cases h with
    | nil => rfl
    | @cons part e parts entries hpart hparts =>
      obtain ⟨space, hcomma, hspace⟩ := hstyle.comma_eq
      have hlength := length_joinWith_lt depth hcomma '{' '}' part parts
      have hspace' : ∀ c ∈ space ++ style.newLine (depth + 1), isSpace c = true :=
        List.forall_mem_append.2 ⟨hspace, fun _ => isSpace_of_mem_newLine⟩
      have hfirst : (Text.joinWith (',' :: (space ++ style.newLine (depth + 1))) (part :: parts) ++
          (style.newLine depth ++ '}' :: rest)).head? = some '"' :=
        head?_joinWith_append hpart.head?_eq _ _
      rw [enclose_append depth hcomma, Value.ofFields_eq, ← Entries.ofList_of_nodup hkeys,
        ← Value.fieldsOf_textFields]
      refine value_mapping ?_ ((skipSpace_append fun _ => isSpace_of_mem_newLine).trans
        (skipSpace_of_head? hfirst (by decide))) ?_
      · rw [hfirst]
        decide
      · exact members_joinWith hgap hspace' (fun _ => isSpace_of_mem_newLine) (.cons hpart hparts)
          (List.cons_ne_nil _ _) (by omega)

/-- The style writes a number so that it is read back. -/
def ReadsBack (style : Style) (x : Float) : Prop :=
  ∃ text, style.number x = .ok text ∧ Reads text (.float x)

/-- A finite number is read back. -/
theorem readsBack_of_isSome (style : Style) {x : Float} (h : (Decimal.dyadic? x).isSome = true) :
    style.ReadsBack x := by
  refine ⟨numberLayout.write x, if_pos ?_, reads_of_number? (number?_write h)⟩
  rw [h, Bool.or_true]

theorem exists_reads_scalar (hstyle : style.IsReadable) {s : Scalar} (hs : s.IsWritable)
    (hfloats : ∀ x ∈ s.floats, style.ReadsBack x) :
    ∃ text, style.scalar s = .ok text ∧ Reads text (.scalar s) := by
  cases s with
  | null => exact ⟨_, rfl, reads_word (w := ("null", .null)) (by simp [wordValues])⟩
  | bool b =>
    cases b with
    | true => exact ⟨_, rfl, reads_word (w := ("true", .bool true)) (by simp [wordValues])⟩
    | false => exact ⟨_, rfl, reads_word (w := ("false", .bool false)) (by simp [wordValues])⟩
  | int n => exact ⟨_, rfl, reads_of_number? (number?_toString n)⟩
  | float x => exact hfloats x (List.mem_singleton_self x)
  | text t =>
    refine ⟨_, rfl, ?_⟩
    rw [hstyle.asciiOnly_eq]
    exact reads_stringText t
  | date d => exact hs.elim
  | moment m => exact hs.elim
  | bytes bs => exact hs.elim

theorem exists_reads_values {items : List Value}
    (h : ∀ v ∈ items, ∃ text, style.value depth v = .ok text ∧ Reads text v) :
    ∃ parts, style.values depth items = .ok parts ∧ List.Forall₂ Reads parts items := by
  induction items with
  | nil => exact ⟨[], rfl, .nil⟩
  | cons v vs ih =>
    obtain ⟨⟨text, htext, hreads⟩, hvs⟩ := List.forall_mem_cons.1 h
    obtain ⟨parts, hparts, hall⟩ := ih hvs
    refine ⟨text :: parts, ?_, .cons hreads hall⟩
    rw [values, htext, hparts]
    rfl

theorem exists_reads_members (hstyle : style.IsReadable) {gap : List Char}
    (hcolon : style.colon.toList = ':' :: gap) {entries : List (String × Value)}
    (h : ∀ e ∈ entries, ∃ text, style.value depth e.2 = .ok text ∧ Reads text e.2) :
    ∃ parts, style.members depth (textFields entries) = .ok parts ∧
      List.Forall₂ (ReadsField gap) parts entries := by
  induction entries with
  | nil => exact ⟨[], rfl, .nil⟩
  | cons e entries ih =>
    obtain ⟨⟨text, htext, hreads⟩, hentries⟩ := List.forall_mem_cons.1 h
    obtain ⟨parts, hparts, hall⟩ := ih hentries
    refine ⟨(stringText false e.1.toList ++ ':' :: (gap ++ text)) :: parts, ?_,
      .cons ⟨text, rfl, hreads⟩ hall⟩
    rw [Value.textFields_cons, members, htext, hparts, hcolon, hstyle.asciiOnly_eq]
    show Except.ok ((stringText false e.1.toList ++ ':' :: gap ++ text) :: parts) = _
    rw [List.append_assoc, List.cons_append]

/-- Every tree whose numbers are read back has a text that is read as this tree. -/
theorem exists_reads (hstyle : style.IsReadable) {v : Value} (hv : v.IsTree)
    (hfloats : ∀ x ∈ v.floats, style.ReadsBack x) (depth : ℕ) :
    ∃ text, style.value depth v = .ok text ∧ Reads text v := by
  induction hv generalizing depth with
  | scalar hs => exact exists_reads_scalar hstyle hs hfloats
  | list _ ih =>
    obtain ⟨parts, hparts, hreads⟩ := exists_reads_values fun v hv =>
      ih v hv (fun x hx => hfloats x (Value.mem_itemFloats hv hx)) (depth + 1)
    refine ⟨style.enclose depth '[' ']' parts, ?_, reads_list hstyle hreads⟩
    rw [value, hparts]
    rfl
  | ofFields hkeys _ ih =>
    obtain ⟨gap, hcolon, hgap⟩ := hstyle.colon_eq
    obtain ⟨parts, hparts, hreads⟩ := exists_reads_members hstyle hcolon fun e he =>
      ih e he (fun x hx => hfloats x (Value.mem_fieldFloats (List.mem_map_of_mem he) hx)) (depth + 1)
    refine ⟨style.enclose depth '{' '}' parts, ?_, reads_ofFields hstyle hgap hreads hkeys⟩
    rw [Value.ofFields_eq, value, hparts]
    rfl

end Style

/-- A tree whose numbers are read back has a text, and with space behind it this is read as the tree. -/
theorem exists_write {style : Style} (hstyle : style.IsReadable) {v : Value} (hv : v.IsTree)
    (hfloats : ∀ x ∈ v.floats, style.ReadsBack x) :
    ∃ text, style.write v = .ok text ∧
      ∀ space, (∀ c ∈ space, isSpace c = true) → read (text.toList ++ space) = .ok v := by
  obtain ⟨cs, hcs, hreads⟩ := Style.exists_reads hstyle hv hfloats 0
  refine ⟨String.ofList cs, ?_, fun space hspace => ?_⟩
  · rw [Style.write, hcs]
    rfl
  · have hends : EndsNumber space := by
      have hnil := endsNumber_append hspace endsNumber_nil
      rwa [List.append_nil] at hnil
    have hvalue : value (2 * (cs ++ space).length + 2) (cs ++ space) = .ok (v, space) :=
      hreads.value_eq (by rw [List.length_append]; omega) hends
    obtain ⟨c, hhead, hc, -⟩ := hreads.begins
    have hrest : skipSpace space = [] := List.dropWhile_eq_nil_iff.2 hspace
    rw [String.toList_ofList]
    unfold read
    split
    · next heq =>
      -- No value begins with a byte order mark.
      rw [heq] at hvalue
      cases hvalue
    · rw [skipSpace_of_head? (head?_append hhead space) hc, hvalue]
      dsimp only
      rw [hrest]

/-- **Round trip.**  A tree whose numbers are read back has a text, and this is read as the tree. -/
theorem readText_write {style : Style} (hstyle : style.IsReadable) {v : Value} (hv : v.IsTree)
    (hfloats : ∀ x ∈ v.floats, style.ReadsBack x) :
    ∃ text, style.write v = .ok text ∧ readText text = .ok v := by
  obtain ⟨text, hwrite, hread⟩ := exists_write hstyle hv hfloats
  refine ⟨text, hwrite, ?_⟩
  have hvalue := hread [] (List.forall_mem_nil (isSpace · = true))
  rw [List.append_nil] at hvalue
  rw [readText, hvalue]

end ApiShell.Json
