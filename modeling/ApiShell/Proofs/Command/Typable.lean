import ApiShell.Proofs.Command.Sorting

/-!
# Names of flags that can be typed

A name can be typed as a flag if it is a letter or digit and then letters, digits and some marks.  The
names that are taken as flags are these, and also these with a line break after them
(`isFlagName_iff`).  So a flag of a command can be typed unless the description has a name that ends
with a line break, and a name that can be typed is always taken: its parameter becomes a flag unless it
is crowded out by what was there before (`areTypable_iff`).
-/

namespace ApiShell.Command

open Spec (Endpoint Parameter Location)

/-! ### Names -/

/-- The name is an ASCII letter or digit, followed by ASCII letters, digits and `_.-[]` only. -/
def IsTypable (name : String) : Prop :=
  ∃ c cs, name.toList = c :: cs ∧ c.isAlphanum = true ∧
    ∀ d ∈ cs, d.isAlphanum = true ∨ d ∈ ['_', '.', '-', '[', ']']

/-- The name can be typed but for a line break at its end. -/
def IsTypableLine (name : String) : Prop := ∃ typed, IsTypable typed ∧ name = typed ++ "\n"

theorem isFlagNameChar_iff {c : Char} :
    isFlagNameChar c = true ↔ c.isAlphanum = true ∨ c ∈ ['_', '.', '-', '[', ']'] := by
  rw [isFlagNameChar, Bool.or_eq_true, List.contains_iff_mem]

theorem isTypable_iff {name : String} : isTypable name.toList = true ↔ IsTypable name := by
  unfold IsTypable
  cases name.toList with
  | nil => exact ⟨nofun, fun ⟨_, _, h, _⟩ => absurd h.symm (List.cons_ne_nil _ _)⟩
  | cons c cs =>
    rw [isTypable, Bool.and_eq_true, List.all_eq_true]
    constructor
    · rintro ⟨hc, hcs⟩
      exact ⟨c, cs, rfl, hc, fun d hd => isFlagNameChar_iff.1 (hcs d hd)⟩
    · rintro ⟨_, _, heq, hc, hcs⟩
      obtain ⟨rfl, rfl⟩ := List.cons.inj heq
      exact ⟨hc, fun d hd => isFlagNameChar_iff.2 (hcs d hd)⟩

/-- A line break cannot be typed. -/
theorem IsTypable.notMem {name : String} (h : IsTypable name) : '\n' ∉ name.toList := by
  obtain ⟨c, cs, heq, hc, hcs⟩ := h
  rw [heq]
  intro hmem
  rcases List.mem_cons.1 hmem with rfl | hmem
  · exact absurd hc (by decide)
  · exact absurd (hcs _ hmem) (by decide)

theorem IsTypableLine.not_isTypable {name : String} (h : IsTypableLine name) : ¬ IsTypable name := by
  obtain ⟨typed, -, rfl⟩ := h
  intro hname
  apply hname.notMem
  rw [String.toList_append]
  exact List.mem_append_right _ (List.mem_singleton.2 rfl)

/-- A name with a line break after it is taken as well. -/
theorem isFlagName_iff {name : String} :
    isFlagName name.toList = true ↔ IsTypable name ∨ IsTypableLine name := by
  rw [isFlagName, Bool.or_eq_true, isTypable_iff, Bool.and_eq_true, beq_iff_eq]
  refine or_congr_right ⟨?_, ?_⟩
  · rintro ⟨hlast, htyped⟩
    refine ⟨String.ofList name.toList.dropLast, ?_, ?_⟩
    · rwa [← isTypable_iff, String.toList_ofList]
    · have hsplit := List.dropLast_append_getLast? '\n' hlast
      rw [← String.toList_inj, String.toList_append, String.toList_ofList, ← hsplit]
      simp
  · rintro ⟨typed, htyped, rfl⟩
    have hlist : (typed ++ "\n").toList = typed.toList ++ ['\n'] := String.toList_append
    rw [hlist, List.getLast?_concat, List.dropLast_concat]
    exact ⟨rfl, isTypable_iff.2 htyped⟩

/-- A parameter outside the path is refused for its name only. -/
theorem flagRefusal?_eq_none_iff {p : Parameter} (hplace : p.location ≠ .path) :
    flagRefusal? p = none ↔ IsTypable p.name ∨ IsTypableLine p.name := by
  rw [← isFlagName_iff, flagRefusal?, if_neg hplace]
  cases isFlagName p.name.toList <;> simp

/-! ### Parameters -/

/-- There was a parameter of the same name and place before, or a name that the flag would occupy is
reserved or belongs to one of the `flags` that were made. -/
def IsCrowdedOut (before : List Parameter) (flags : List Flag) (p : Parameter) : Prop :=
  Repeats before p ∨ ∃ n ∈ claimedNames p, n ∈ reservedFlags ∨ ∃ f ∈ flags, n ∈ f.optionNames

theorem isDropped_iff {before : List Parameter} {flags : List Flag} {p : Parameter}
    (hplace : p.location ≠ .path) :
    IsDropped before flags p ↔
      ¬ (IsTypable p.name ∨ IsTypableLine p.name) ∨ IsCrowdedOut before flags p := by
  rw [IsDropped, IsCrowdedOut, ← flagRefusal?_eq_none_iff hplace, and_iff_right hplace]
  exact or_left_comm

/-- Outside the path a parameter becomes a flag or nothing. -/
theorem Fate.IsOf.exists_flag_iff {fate : Fate} {before : List Parameter} {flags : List Flag}
    {p : Parameter} (h : fate.IsOf before flags p) (hplace : p.location ≠ .path) :
    (∃ f, fate = .flag f) ↔
      (IsTypable p.name ∨ IsTypableLine p.name) ∧ ¬ IsCrowdedOut before flags p := by
  have hdropped := h.dropped_iff
  rw [isDropped_iff hplace] at hdropped
  rw [← not_iff_not, not_and_or, not_not, ← hdropped]
  cases fate with
  | argument a => exact absurd (h.of_argument a rfl).1 hplace
  | flag f => exact iff_of_false (fun hnone => hnone ⟨f, rfl⟩) nofun
  | dropped => exact iff_of_true nofun rfl

/-- The flags of a command are those that its parameters became, in their order.  A parameter outside
the path became one if its name can be typed, or can be typed but for a line break after it, and it was
not crowded out by the parameters before it. -/
structure Leaf.Admits (l : Leaf) (parameters : List Parameter) (fates : List Fate) : Prop where
  length_eq : fates.length = parameters.length
  flags_eq : l.flags = fates.filterMap Fate.flag?
  name_eq : ∀ (i : Nat) (p : Parameter) (f : Flag), parameters[i]? = some p →
    fates[i]? = some (.flag f) → f.name = p.name ∧ p.location ≠ .path
  becomes_iff : ∀ (i : Nat) (p : Parameter) (fate : Fate), parameters[i]? = some p →
    fates[i]? = some fate → p.location ≠ .path →
    ((∃ f, fate = .flag f) ↔ (IsTypable p.name ∨ IsTypableLine p.name) ∧
      ¬ IsCrowdedOut (parameters.take i) ((fates.take i).filterMap Fate.flag?) p)

theorem exists_admits {e : Endpoint} {l : Leaf} (h : (compileEndpoint e).answer = .ok l) :
    ∃ fates, l.Admits e.parameters fates := by
  obtain ⟨s, ⟨-, fates, hfates, -, hflags⟩, -, hl⟩ := of_sorted h
  refine ⟨fates, hfates.length_eq, hl.trans hflags, fun i p f hp hf => ?_, fun i p fate hp hfate => ?_⟩
  · obtain ⟨hplace, hflag⟩ := (hfates.isOf i p _ hp hf).of_flag f rfl
    exact ⟨hflag.name, hplace⟩
  · exact (hfates.isOf i p fate hp hfate).exists_flag_iff

/-- The flags of a command can be typed if the parameters whose names end with a line break are crowded
out. -/
theorem Leaf.Admits.forall_isTypable_iff {l : Leaf} {parameters : List Parameter}
    {fates : List Fate} (h : l.Admits parameters fates) :
    (∀ f ∈ l.flags, IsTypable f.name) ↔
      ∀ i p, parameters[i]? = some p → p.location ≠ .path → IsTypableLine p.name →
        IsCrowdedOut (parameters.take i) ((fates.take i).filterMap Fate.flag?) p := by
  constructor
  · intro hflags i p hp hplace hline
    obtain ⟨hi, -⟩ := List.getElem?_eq_some_iff.1 hp
    have hfate : fates[i]? = some (fates.get ⟨i, h.length_eq ▸ hi⟩) := List.getElem?_eq_getElem _
    by_contra hfree
    obtain ⟨f, hf⟩ := (h.becomes_iff i p _ hp hfate hplace).2 ⟨.inr hline, hfree⟩
    rw [hf] at hfate
    have hmem : f ∈ l.flags := by
      rw [h.flags_eq]
      exact List.mem_filterMap.2 ⟨_, List.mem_of_getElem? hfate, rfl⟩
    exact hline.not_isTypable ((h.name_eq i p f hp hfate).1 ▸ hflags f hmem)
  · intro hlines f hf
    rw [h.flags_eq] at hf
    obtain ⟨fate, hfate, hflag⟩ := List.mem_filterMap.1 hf
    obtain ⟨i, hi⟩ := List.mem_iff_getElem?.1 hfate
    obtain rfl : fate = .flag f := by
      cases fate with
      | flag g => rw [Option.some.inj hflag]
      | _ => cases hflag
    obtain ⟨hlt, -⟩ := List.getElem?_eq_some_iff.1 hi
    have hp : parameters[i]? = some (parameters.get ⟨i, h.length_eq ▸ hlt⟩) :=
      List.getElem?_eq_getElem _
    obtain ⟨hname, hplace⟩ := h.name_eq i _ f hp hi
    obtain ⟨htyped, hfree⟩ := (h.becomes_iff i _ _ hp hi hplace).1 ⟨f, rfl⟩
    rw [hname]
    exact htyped.resolve_right fun hline => hfree (hlines i _ hp hplace hline)

/-- **Flags that can be typed.**  A parameter outside the path whose name can be typed becomes a flag
unless it repeats an earlier one or clashes with a name that is taken.  All flags of a command can be
typed exactly if each parameter whose name ends with a line break, but could be typed without it, is
left out for one of these reasons. -/
theorem areTypable_iff {e : Endpoint} {l : Leaf} {log log' : List LogRecord}
    (h : (compileEndpoint e).runWith log = (.ok l, log')) :
    ∃ fates, l.Admits e.parameters fates ∧
      ((∀ f ∈ l.flags, IsTypable f.name) ↔
        ∀ i p, e.parameters[i]? = some p → p.location ≠ .path → IsTypableLine p.name →
          IsCrowdedOut (e.parameters.take i) ((fates.take i).filterMap Fate.flag?) p) := by
  obtain ⟨fates, hfates⟩ := exists_admits ((appendsOnly_compileEndpoint e).answer_eq h)
  exact ⟨fates, hfates, hfates.forall_isTypable_iff⟩

/-- An endpoint with a flag whose name ends with a line break, a header of the same name, a name that is
reserved, and a name with brackets. -/
def pageEndpoint : Endpoint :=
  { plainEndpoint .get "/p" [] false with
    parameters := [
      typedParameter "limit\n" .query "integer" .null false,
      typedParameter "limit\n" .header "string" .null false,
      typedParameter "verbose" .query "boolean" .null false,
      typedParameter "page[size]" .query "integer" (.int 20) false] }

/-- The command of this endpoint. -/
def pageLeaf : Leaf where
  name := "get-p"
  help := "GET /p"
  endpoint := pageEndpoint
  usage := "get-p"
  arguments := []
  flags := [
    ⟨"limit\n", "limit", .query, .integer, .integer 0, false, false, ""⟩,
    ⟨"page[size]", "page_size", .query, .integer, .integer 20, true, false, ""⟩]

theorem compileEndpoint_page : (compileEndpoint pageEndpoint).runWith [] =
    (.ok pageLeaf, (compileEndpoint pageEndpoint).records) := by
  have hparts : (compileEndpoint pageEndpoint).answer.map Leaf.parts = .ok pageLeaf.parts := by
    decide +kernel
  have hanswer : (compileEndpoint pageEndpoint).answer = .ok pageLeaf :=
    answer_compileEndpoint_of_parts (by rfl) hparts
  rw [Run.runWith_nil, hanswer]

/-- Two of these four parameters make flags. -/
theorem areTypable_iff_page :
    (compileEndpoint pageEndpoint).runWith [] =
        (.ok pageLeaf, (compileEndpoint pageEndpoint).records) ∧
      ∃ fates, pageLeaf.Admits pageEndpoint.parameters fates ∧
        ((∀ f ∈ pageLeaf.flags, IsTypable f.name) ↔
          ∀ i p, pageEndpoint.parameters[i]? = some p → p.location ≠ .path → IsTypableLine p.name →
            IsCrowdedOut (pageEndpoint.parameters.take i) ((fates.take i).filterMap Fate.flag?) p) :=
  ⟨compileEndpoint_page, areTypable_iff compileEndpoint_page⟩

/-- A command can have a flag that cannot be typed. -/
theorem not_forall_isTypable :
    ¬ ∀ (e : Endpoint) (l : Leaf) (log log' : List LogRecord),
      (compileEndpoint e).runWith log = (.ok l, log') → ∀ f ∈ l.flags, IsTypable f.name := by
  intro h
  have hname := h _ _ _ _ compileEndpoint_page _ List.mem_cons_self
  exact hname.notMem (by decide)

end ApiShell.Command
