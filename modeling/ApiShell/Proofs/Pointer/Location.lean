import ApiShell.Proofs.Pointer
import ApiShell.Proofs.Run
import ApiShell.Proofs.Text.Digit
import ApiShell.Proofs.Text.Split

/-!
# Pointers and the locations that they name

A location is a sequence of parts that leads down into a document: the entry under a key, the item
at an index.  A pointer *names* a location when its segments are the keys and the decimal numerals
of the indices.  It is *read* more freely: wherever it comes to a list, the decimal digits of every
script count, and so do zeros in front.

So what a pointer names is found, and `lookup` undoes `pointerTo`.  The converse has two gaps, which
`Misreads` lists: an index that is read but not written as a numeral, and digits at a list that are
no number.  Outside them a pointer leads to a value at a location that it names, or the description
is at fault.
-/

namespace ApiShell.Pointer

/-! ### Locations -/

/-- A step down into a value. -/
inductive Part where
  /-- To the entry under a key of a mapping. -/
  | key (k : String)
  /-- To the item at an index of a list. -/
  | index (n : Nat)

namespace Part

/-- The part of a value. -/
def of? : Part → Value → Option Value
  | key k, .mapping fields => Value.field? fields k
  | index n, .list items => items[n]?
  | _, _ => none

/-- The text that stands for a part: the key itself, the numeral of the index. -/
def name : Part → String
  | key k => k
  | index n => Nat.repr n

end Part

/-- The value at a location. -/
def valueAt? (v : Value) : List Part → Option Value
  | [] => some v
  | part :: location => (part.of? v).bind (valueAt? · location)

/-- The pointer to a location below the root. -/
def pointerTo (location : List Part) : String :=
  String.ofList
    ('#' :: '/' :: Text.joinWith ['/'] (location.map fun part => escape part.name.toList))

variable {document node v w : Value} {ref segment : String} {path : List String}
  {location : List Part} {part : Part} {n : Nat}

/-! ### One segment -/

/-- A segment is read as a part: as the key that it is, or as the index that its digits write. -/
inductive Spells : String → Part → Prop
  | key {k : String} : Spells k (.key k)
  | index {segment : String} {n : Nat} : segment.toList ≠ [] →
      Text.decimalValue? segment.toList = some n → Spells segment (.index n)

/-- The segment has digits only, and some of them stand for no decimal place. -/
def IsUnreadable (segment : String) : Prop :=
  segment.toList ≠ [] ∧ segment.toList.all Text.isDigit ∧ Text.decimalValue? segment.toList = none

/-- A numeral has a digit. -/
theorem toList_repr_ne_nil : (Nat.repr n).toList ≠ [] := by
  rw [Nat.toList_repr]
  exact Nat.toDigits_ne_nil

/-- The name of a part is read as the part. -/
theorem spells_name (part : Part) : Spells part.name part := by
  cases part with
  | key k => exact .key
  | index n =>
    have hnumeral : Text.decimalValue? (Nat.repr n).toList = some n := by
      rw [Nat.toList_repr, Text.decimalValue?_toDigits]
    exact .index toList_repr_ne_nil hnumeral

/-- The names of the parts of a location are read as the location. -/
theorem forall₂_spells_name (location : List Part) :
    List.Forall₂ Spells (location.map Part.name) location := by
  rw [List.forall₂_map_left_iff, List.forall₂_same]
  exact fun part _ => spells_name part

/-- A segment that is read as a part without being its name is an index. -/
theorem Spells.exists_index (h : Spells segment part) (hne : segment ≠ part.name) :
    ∃ n, part = .index n := by
  cases h with
  | key => exact absurd rfl hne
  | index _ _ => exact ⟨_, rfl⟩

/-- In one value a segment is read as one part. -/
theorem Spells.unique {other : Part} (h : Spells segment part) (h' : Spells segment other)
    (hv : part.of? node = some v) (hw : other.of? node = some w) : part = other := by
  cases h with
  | key =>
    cases h' with
    | key => rfl
    | index _ _ => cases node <;> simp [Part.of?] at hv hw
  | index _ hn =>
    cases h' with
    | key => cases node <;> simp [Part.of?] at hv hw
    | index _ hm => rw [Option.some.inj (hn.symm.trans hm)]

/-- The list positions that a segment names are the numbers that its digits write. -/
theorem position?_eq_some_iff : position? segment = .ok (some n) ↔ Spells segment (.index n) := by
  constructor
  · intro h
    unfold position? at h
    dsimp only at h
    split at h
    · cases h
    · next hdigits =>
      rw [Bool.not_eq_true, Bool.or_eq_false_iff, List.isEmpty_eq_false_iff] at hdigits
      split at h
      · next m hm =>
        obtain rfl : m = n := Option.some.inj (Except.ok.inj h)
        exact .index hdigits.1 hm
      · cases h
  · rintro (_ | ⟨hne, hn⟩)
    have hall : segment.toList.all Text.isDigit = true :=
      List.all_eq_true.2 fun c hc =>
        Bool.or_eq_true_iff.2 (.inl (Text.isDecimal_of_decimalValue? hn c hc))
    have hempty : segment.toList.isEmpty = false := List.isEmpty_eq_false_iff.2 hne
    simp only [position?, hall, hempty, hn]
    rfl

/-- A segment leads to the part as which it is read. -/
theorem step_eq_some_iff :
    step node segment = .ok (some v) ↔ ∃ part, Spells segment part ∧ part.of? node = some v := by
  cases node with
  | mapping fields =>
    constructor
    · exact fun h => ⟨_, .key, Except.ok.inj h⟩
    · rintro ⟨_, _ | _, hv⟩
      · exact congrArg Except.ok hv
      · cases hv
  | list items =>
    constructor
    · intro h
      obtain ⟨p, hp, hv⟩ := map_eq_ok_iff.1 h
      obtain ⟨n, rfl, hv⟩ := Option.bind_eq_some_iff.1 hv
      exact ⟨.index n, position?_eq_some_iff.1 hp, hv⟩
    · rintro ⟨_ | n, hspells, hv⟩
      · cases hv
      · exact map_eq_ok_iff.2 ⟨some n, position?_eq_some_iff.2 hspells, hv⟩
  | _ =>
    constructor
    · intro h
      cases h
    · rintro ⟨_ | _, -, hv⟩ <;> cases hv

/-- A segment is a defect where digits that are no number come to a list. -/
theorem exists_step_eq_error_iff :
    (∃ defect, step node segment = .error defect) ↔
      (∃ items, node = .list items) ∧ IsUnreadable segment := by
  constructor
  · rintro ⟨defect, h⟩
    cases node with
    | list items => exact ⟨⟨items, rfl⟩, (position?_eq_error_iff.1 (map_eq_error_iff.1 h)).1⟩
    | _ => cases h
  · rintro ⟨⟨items, rfl⟩, hunreadable⟩
    exact ⟨_, map_eq_error_iff.2 (position?_eq_error_iff.2 ⟨hunreadable, rfl⟩)⟩

/-! ### Paths -/

/-- A path leads to the values at the locations as which it is read. -/
theorem follow_eq_ok_iff :
    follow ref node path = .ok v ↔
      ∃ location, List.Forall₂ Spells path location ∧ valueAt? node location = some v := by
  induction path generalizing node with
  | nil =>
    constructor
    · intro h
      exact ⟨[], .nil, congrArg some (Except.ok.inj h)⟩
    · rintro ⟨_, ⟨⟩, h⟩
      exact congrArg Except.ok (Option.some.inj h)
  | cons segment path ih =>
    constructor
    · intro h
      rw [follow] at h
      split at h
      · cases h
      · cases h
      · next next hstep =>
        obtain ⟨part, hpart, hnext⟩ := step_eq_some_iff.1 hstep
        obtain ⟨location, hlocation, hv⟩ := ih.1 h
        exact ⟨part :: location, .cons hpart hlocation,
          Option.bind_eq_some_iff.2 ⟨next, hnext, hv⟩⟩
    · rintro ⟨_, hspells, hv⟩
      obtain ⟨part, location, hpart, hlocation, rfl⟩ := List.forall₂_cons_left_iff.1 hspells
      obtain ⟨next, hnext, hv⟩ := Option.bind_eq_some_iff.1 hv
      rw [follow, step_eq_some_iff.2 ⟨part, hpart, hnext⟩]
      exact ih.2 ⟨location, hlocation, hv⟩

/-- In one value a path is read as one location. -/
theorem location_unique {other : List Part} (h : List.Forall₂ Spells path location)
    (h' : List.Forall₂ Spells path other) (hv : valueAt? node location = some v)
    (hw : valueAt? node other = some w) : location = other := by
  induction h generalizing node other with
  | nil =>
    cases h'
    rfl
  | @cons segment part path location hpart _ ih =>
    obtain ⟨part', other, hpart', hother, rfl⟩ := List.forall₂_cons_left_iff.1 h'
    obtain ⟨next, hnext, hv⟩ := Option.bind_eq_some_iff.1 hv
    obtain ⟨next', hnext', hw⟩ := Option.bind_eq_some_iff.1 hw
    obtain rfl := hpart.unique hpart' hnext hnext'
    obtain rfl := Option.some.inj (hnext.symm.trans hnext')
    rw [ih hother hv hw]

/-- A path meets digits that are no number: what stands before them leads to a list. -/
def MeetsUnreadable (node : Value) (path : List String) : Prop :=
  ∃ before segment after location items, path = before ++ segment :: after ∧
    List.Forall₂ Spells before location ∧ valueAt? node location = some (.list items) ∧
    IsUnreadable segment

/-- A path meets digits that are no number with its first segment or behind it. -/
theorem meetsUnreadable_cons_iff :
    MeetsUnreadable node (segment :: path) ↔
      ((∃ items, node = .list items) ∧ IsUnreadable segment) ∨
        ∃ next, step node segment = .ok (some next) ∧ MeetsUnreadable next path := by
  constructor
  · rintro ⟨before, digits, after, location, items, hpath, hbefore, hitems, hdigits⟩
    cases hbefore with
    | nil =>
      obtain ⟨rfl, rfl⟩ := List.cons.inj hpath
      exact .inl ⟨⟨items, Option.some.inj hitems⟩, hdigits⟩
    | cons hpart hbefore =>
      obtain ⟨rfl, rfl⟩ := List.cons.inj hpath
      obtain ⟨next, hnext, hitems⟩ := Option.bind_eq_some_iff.1 hitems
      exact .inr ⟨next, step_eq_some_iff.2 ⟨_, hpart, hnext⟩, _, digits, after, _, items, rfl,
        hbefore, hitems, hdigits⟩
  · rintro (⟨⟨items, rfl⟩, hdigits⟩ | ⟨next, hstep, before, digits, after, location, items, rfl,
      hbefore, hitems, hdigits⟩)
    · exact ⟨[], segment, path, [], items, rfl, .nil, rfl, hdigits⟩
    · obtain ⟨part, hpart, hnext⟩ := step_eq_some_iff.1 hstep
      exact ⟨segment :: before, digits, after, part :: location, items, rfl,
        .cons hpart hbefore, Option.bind_eq_some_iff.2 ⟨next, hnext, hitems⟩, hdigits⟩

/-- Following a path is a defect exactly where it meets digits that are no number. -/
theorem exists_follow_eq_defect_iff :
    (∃ defect, follow ref node path = .error (.defect defect)) ↔ MeetsUnreadable node path := by
  induction path generalizing node with
  | nil =>
    constructor
    · rintro ⟨_, h⟩
      cases h
    · rintro ⟨before, segment, after, _, _, hpath, -⟩
      cases before <;> cases hpath
  | cons segment path ih =>
    rw [meetsUnreadable_cons_iff, ← exists_step_eq_error_iff, follow]
    cases hstep : step node segment with
    | error defect => simp
    | ok result =>
      cases result with
      | none => simp
      | some next => simp [ih]

/-! ### Pointers -/

/-- The segments of a pointer into the document. -/
def segments? (ref : String) : Option (List String) :=
  match ref.toList with
  | '#' :: '/' :: text => some (segments text)
  | _ => none

/-- The pointer names the location: its segments are the names of the parts. -/
def Names (ref : String) (location : List Part) : Prop :=
  segments? ref = some (location.map Part.name)

theorem lookup_eq :
    lookup document ref = match segments? ref with
      | some path => follow ref document path
      | none => .error (.failure (.spec (.externalReference ref))) := by
  unfold lookup segments?
  split <;> simp_all

/-- A pointer leads to the values at the locations as which it is read. -/
theorem lookup_eq_ok_iff :
    lookup document ref = .ok v ↔
      ∃ path location, segments? ref = some path ∧ List.Forall₂ Spells path location ∧
        valueAt? document location = some v := by
  rw [lookup_eq]
  cases segments? ref with
  | none => exact ⟨nofun, nofun⟩
  | some path =>
    dsimp only
    rw [follow_eq_ok_iff]
    constructor
    · rintro ⟨location, hspells, hv⟩
      exact ⟨path, location, rfl, hspells, hv⟩
    · rintro ⟨_, location, hsame, hspells, hv⟩
      obtain rfl := Option.some.inj hsame
      exact ⟨location, hspells, hv⟩

/-- A pointer into the document is a defect where its path meets digits that are no number. -/
theorem exists_lookup_eq_defect_iff :
    (∃ defect, lookup document ref = .error (.defect defect)) ↔
      ∃ path, segments? ref = some path ∧ MeetsUnreadable document path := by
  rw [lookup_eq]
  cases segments? ref with
  | none => simp
  | some path => simp [exists_follow_eq_defect_iff]

/-- What a pointer names is found. -/
theorem Names.lookup_eq (h : Names ref location) (hv : valueAt? document location = some v) :
    lookup document ref = .ok v :=
  lookup_eq_ok_iff.2 ⟨_, location, h, forall₂_spells_name location, hv⟩

/-! ### Writing pointers -/

/-- Escaped text has no slash. -/
theorem slash_notMem_escape (cs : List Char) : '/' ∉ escape cs := by
  induction cs with
  | nil => exact List.not_mem_nil
  | cons c cs ih =>
    rw [escape]
    split
    · simp [ih]
    split
    · simp [ih]
    · next hslash => simp [ih, Ne.symm hslash]

/-- The pointer to a location below the root names it. -/
theorem names_pointerTo (hne : location ≠ []) : Names (pointerTo location) location := by
  have hcut : Text.splitAt '/'
        (Text.joinWith ['/'] (location.map fun part => escape part.name.toList)) =
      location.map fun part => escape part.name.toList := by
    refine Text.splitAt_joinWith (by simpa using hne) fun piece hpiece => ?_
    obtain ⟨part, -, rfl⟩ := List.mem_map.1 hpiece
    exact slash_notMem_escape _
  rw [Names, segments?, pointerTo, String.toList_ofList]
  simp only [segments, hcut, List.map_map, Function.comp_def, unescape_escape, String.ofList_toList]

/-- The pointer to a location below the root leads to the value there. -/
theorem lookup_pointerTo (hne : location ≠ []) (hv : valueAt? document location = some v) :
    lookup document (pointerTo location) = .ok v :=
  (names_pointerTo hne).lookup_eq hv

/-- A document with keys that have marks in them. -/
def markedDocument : Value :=
  .ofFields [("~01", .ofFields [("", .list [.null, .ofFields [("/pets/~1", .int 7)]])])]

/-- The location below all of its keys. -/
def markedLocation : List Part := [.key "~01", .key "", .index 1, .key "/pets/~1"]

theorem lookup_pointerTo_markedLocation :
    pointerTo markedLocation = "#/~001//1/~1pets~1~01" ∧
      valueAt? markedDocument markedLocation = some (.int 7) ∧
      lookup markedDocument (pointerTo markedLocation) = .ok (.int 7) := by
  have hv : valueAt? markedDocument markedLocation = some (.int 7) := rfl
  exact ⟨by decide, hv, lookup_pointerTo (by decide) hv⟩

/-! ### Pointers that are read too freely -/

/-- The answer is proper: a value at a location that the pointer names, or a fault of the
description. -/
def IsProper (document : Value) (ref : String) : Except Fault Value → Prop
  | .ok v => ∃ location, Names ref location ∧ valueAt? document location = some v
  | .error fault => ∃ e, fault = .failure (.spec e)

/-- Why a pointer has an answer that is not proper. -/
inductive Misreads (document : Value) (ref : String) : Prop
  /-- The pointer comes to a list and goes on with digits that are no number. -/
  | unreadable {path : List String} : segments? ref = some path → MeetsUnreadable document path →
      Misreads document ref
  /-- The pointer leads to a value through an item whose index is not written as its numeral. -/
  | respelled {before after : List String} {segment : String} {location rest : List Part} {n : Nat}
      {v : Value} : segments? ref = some (before ++ segment :: after) →
      List.Forall₂ Spells before location → Spells segment (.index n) → segment ≠ Nat.repr n →
      List.Forall₂ Spells after rest → valueAt? document (location ++ .index n :: rest) = some v →
      Misreads document ref

/-- A path that is read as a location and does not name it has a first segment that is read as an
index without being its numeral. -/
theorem exists_respelled (h : List.Forall₂ Spells path location)
    (hne : path ≠ location.map Part.name) :
    ∃ before segment after first n rest, path = before ++ segment :: after ∧
      location = first ++ .index n :: rest ∧ List.Forall₂ Spells before first ∧
      Spells segment (.index n) ∧ segment ≠ Nat.repr n ∧ List.Forall₂ Spells after rest := by
  induction h with
  | nil => exact absurd rfl hne
  | @cons segment part path location hpart hrest ih =>
    by_cases hname : segment = part.name
    · have hne' : path ≠ location.map Part.name := fun heq => hne (by rw [heq, hname]; rfl)
      obtain ⟨before, digits, after, first, n, rest, rfl, rfl, hbefore, hindex, hdigits, hafter⟩ :=
        ih hne'
      exact ⟨segment :: before, digits, after, part :: first, n, rest, rfl, rfl,
        .cons hpart hbefore, hindex, hdigits, hafter⟩
    · obtain ⟨n, rfl⟩ := hpart.exists_index hname
      exact ⟨[], segment, path, [], n, location, rfl, rfl, .nil, hpart, hname, hrest⟩

/-- A pointer that is misread has no proper answer: where digits are no number it is a defect, and
otherwise the location of the value has an index that is written in another way. -/
theorem Misreads.not_isProper (h : Misreads document ref) :
    ¬ IsProper document ref (lookup document ref) := by
  intro hproper
  cases h with
  | unreadable hpath hmeets =>
    obtain ⟨defect, hdefect⟩ := exists_lookup_eq_defect_iff.2 ⟨_, hpath, hmeets⟩
    rw [hdefect] at hproper
    obtain ⟨e, he⟩ := hproper
    cases he
  | @respelled before after segment location rest n v hpath hbefore hindex hne hafter hv =>
    have hspells :
        List.Forall₂ Spells (before ++ segment :: after) (location ++ .index n :: rest) :=
      List.rel_append hbefore (.cons hindex hafter)
    rw [lookup_eq_ok_iff.2 ⟨_, _, hpath, hspells, hv⟩] at hproper
    obtain ⟨named, hnamed, hvalue⟩ := hproper
    have hnames : before ++ segment :: after = named.map Part.name :=
      Option.some.inj (hpath.symm.trans hnamed)
    obtain rfl : location ++ .index n :: rest = named :=
      location_unique hspells (hnames ▸ forall₂_spells_name named) hv hvalue
    rw [List.map_append, List.map_cons] at hnames
    have hlength : before.length = (location.map Part.name).length :=
      hbefore.length_eq.trans (List.length_map Part.name).symm
    exact hne (List.cons.inj (List.append_inj hnames hlength).2).1

/-- A document with a list in it. -/
def taggedDocument : Value :=
  .ofFields [("tags", .list [.text "pets", .text "store"])]

end ApiShell.Pointer
