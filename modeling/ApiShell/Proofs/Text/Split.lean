import ApiShell.Text.Split

/-!
# Pieces of a text

Cutting a text where it was joined gives its pieces, as long as no piece has the separator in it.
What is done to every character of a text, and neither takes a separator away nor brings one in, is
done to its pieces.
-/

namespace ApiShell.Text

variable {sep : Char} {cs ds : List Char}

/-! ### One cut -/

theorem cutAt?_append (h : sep ∉ cs) (ds : List Char) :
    cutAt? sep (cs ++ sep :: ds) = some (cs, ds) := by
  induction cs with
  | nil => simp [cutAt?]
  | cons c cs ih =>
    rw [List.mem_cons, not_or] at h
    simp [cutAt?, Ne.symm h.1, ih h.2]

theorem cutAt?_eq_none (h : sep ∉ cs) : cutAt? sep cs = none := by
  induction cs with
  | nil => rfl
  | cons c cs ih =>
    rw [List.mem_cons, not_or] at h
    simp [cutAt?, Ne.symm h.1, ih h.2]

/-! ### Joined texts -/

theorem joinWith_cons_cons (sep piece next : List Char) (pieces : List (List Char)) :
    joinWith sep (piece :: next :: pieces) = piece ++ (sep ++ joinWith sep (next :: pieces)) :=
  List.append_assoc piece sep (joinWith sep (next :: pieces))

theorem mem_joinWith {sep : List Char} {pieces : List (List Char)} {c : Char}
    (hc : c ∈ joinWith sep pieces) : c ∈ sep ∨ ∃ piece ∈ pieces, c ∈ piece := by
  induction pieces with
  | nil => cases hc
  | cons piece pieces ih =>
    cases pieces with
    | nil => exact .inr ⟨piece, List.mem_cons_self, hc⟩
    | cons next pieces =>
      rw [joinWith_cons_cons, List.mem_append, List.mem_append] at hc
      rcases hc with hc | hc | hc
      · exact .inr ⟨piece, List.mem_cons_self, hc⟩
      · exact .inl hc
      · rcases ih hc with hsep | ⟨other, hother, hc⟩
        · exact .inl hsep
        · exact .inr ⟨other, List.mem_cons_of_mem _ hother, hc⟩

/-- A joined text starts like the first of its pieces. -/
theorem head?_joinWith {sep piece : List Char} {pieces : List (List Char)} (h : piece ≠ []) :
    (joinWith sep (piece :: pieces)).head? = piece.head? := by
  obtain ⟨c, rest, rfl⟩ := List.exists_cons_of_ne_nil h
  cases pieces with
  | nil => rfl
  | cons next pieces =>
    rw [joinWith_cons_cons]
    rfl

/-! ### The start of a text -/

/-- What is behind the characters of a class that a text starts with. -/
theorem drop_length_takeWhile (p : Char → Bool) (cs : List Char) :
    cs.drop (cs.takeWhile p).length = cs.dropWhile p := by
  have hsplit := List.takeWhile_append_dropWhile (p := p) (l := cs)
  calc cs.drop (cs.takeWhile p).length
      = (cs.takeWhile p ++ cs.dropWhile p).drop (cs.takeWhile p).length := by rw [hsplit]
    _ = cs.dropWhile p := List.drop_left

theorem takeWhile_congr {p q : Char → Bool} (h : ∀ c ∈ cs, p c = q c) :
    cs.takeWhile p = cs.takeWhile q := by
  induction cs with
  | nil => rfl
  | cons c cs ih =>
    rw [List.takeWhile_cons, List.takeWhile_cons, h c List.mem_cons_self,
      ih fun d hd => h d (List.mem_cons_of_mem _ hd)]

theorem startsWith_eq_true_iff {s start : String} :
    startsWith s start = true ↔ start.toList <+: s.toList := by
  rw [startsWith, Option.isSome_iff_exists]
  constructor
  · rintro ⟨rest, hrest⟩
    exact ⟨rest, (dropStart?_eq_some_iff.1 hrest).symm⟩
  · rintro ⟨rest, hrest⟩
    exact ⟨rest, dropStart?_eq_some_iff.2 hrest.symm⟩

/-- A start whose characters belong to a class is a start of what the class takes. -/
theorem prefix_takeWhile_iff {p : Char → Bool} (h : ∀ d ∈ ds, p d = true) :
    ds <+: cs.takeWhile p ↔ ds <+: cs := by
  constructor
  · intro hprefix
    exact hprefix.trans (List.takeWhile_prefix p)
  · rintro ⟨rest, rfl⟩
    rw [List.takeWhile_append_of_pos h]
    exact List.prefix_append ds _

/-! ### All cuts -/

theorem splitAt_eq_splitOn (sep : Char) (cs : List Char) : splitAt sep cs = cs.splitOn sep := by
  induction cs with
  | nil => rfl
  | cons c cs ih =>
    rw [List.splitOn_cons_eq_if_modifyHead, splitAt, ih]
    simp only [beq_iff_eq]
    split
    · rfl
    · cases hrest : cs.splitOn sep with
      | nil => exact absurd hrest (List.splitOn_ne_nil sep cs)
      | cons first rest => rfl

theorem joinWith_eq_intercalate (sep : List Char) (pieces : List (List Char)) :
    joinWith sep pieces = sep.intercalate pieces := by
  induction pieces with
  | nil => rfl
  | cons piece pieces ih =>
    cases pieces with
    | nil => simp [joinWith]
    | cons next pieces => rw [joinWith_cons_cons, ih, List.intercalate_cons_cons, List.append_assoc]

/-- A text that was joined is cut into its pieces. -/
theorem splitAt_joinWith {pieces : List (List Char)} (hne : pieces ≠ [])
    (h : ∀ piece ∈ pieces, sep ∉ piece) : splitAt sep (joinWith [sep] pieces) = pieces := by
  rw [splitAt_eq_splitOn, joinWith_eq_intercalate, List.splitOn_intercalate sep h hne]

/-- No piece has the separator in it. -/
theorem notMem_of_mem_splitAt {piece : List Char} (h : piece ∈ splitAt sep cs) : sep ∉ piece := by
  rw [splitAt_eq_splitOn] at h
  induction cs generalizing piece with
  | nil =>
    obtain rfl := List.mem_singleton.1 h
    exact List.not_mem_nil
  | cons c cs ih =>
    rw [List.splitOn_cons_eq_if_modifyHead] at h
    split at h
    · rcases List.mem_cons.1 h with rfl | h
      · exact List.not_mem_nil
      · exact ih h
    · next hc =>
      cases hrest : cs.splitOn sep with
      | nil => exact absurd hrest (List.splitOn_ne_nil sep cs)
      | cons first rest =>
        rw [hrest] at h ih
        rcases List.mem_cons.1 h with rfl | h
        · rw [List.mem_cons, not_or]
          exact ⟨fun heq => hc (by simp [heq]), ih List.mem_cons_self⟩
        · exact ih (List.mem_cons_of_mem _ h)

/-- The first piece goes up to the first separator. -/
theorem head?_splitAt : (splitAt sep cs).head? = some (cs.takeWhile (· != sep)) := by
  rw [splitAt_eq_splitOn]
  induction cs with
  | nil => rfl
  | cons c cs ih =>
    rw [List.splitOn_cons_eq_if_modifyHead]
    by_cases hc : c = sep
    · simp [hc]
    · simp [hc, List.head?_modifyHead, ih]

/-- A text without separators goes to the first piece of what follows it. -/
theorem splitOn_append (h : sep ∉ cs) (ds : List Char) :
    (cs ++ ds).splitOn sep = (ds.splitOn sep).modifyHead (cs ++ ·) := by
  induction cs with
  | nil => cases hds : ds.splitOn sep <;> simp [hds]
  | cons c cs ih =>
    rw [List.mem_cons, not_or] at h
    rw [List.cons_append, List.splitOn_cons_eq_if_modifyHead, ih h.2, List.modifyHead_modifyHead,
      if_neg (by simpa using Ne.symm h.1)]
    rfl

/-- Every separator is a cut. -/
theorem splitAt_append_cons (sep : Char) (cs ds : List Char) :
    splitAt sep (cs ++ sep :: ds) = splitAt sep cs ++ splitAt sep ds := by
  simp only [splitAt_eq_splitOn]
  induction cs with
  | nil => simp [List.splitOn_cons_eq_if_modifyHead]
  | cons c cs ih =>
    rw [List.cons_append, List.splitOn_cons_eq_if_modifyHead, List.splitOn_cons_eq_if_modifyHead, ih]
    split
    · rfl
    · cases hcs : cs.splitOn sep with
      | nil => exact absurd hcs (List.splitOn_ne_nil _ _)
      | cons first rest => rfl

theorem splitAt_of_notMem (h : sep ∉ cs) : splitAt sep cs = [cs] := by
  simpa [joinWith] using splitAt_joinWith (List.cons_ne_nil cs []) (List.forall_mem_singleton.2 h)

/-- A text that is made of parts, of which one kind is the separator and no other brings it in, is cut
where this kind stands. -/
theorem splitAt_flatMap {α : Type} [BEq α] [LawfulBEq α] {a : α} {f : α → List Char}
    (hsep : f a = [sep]) (hf : ∀ x, x ≠ a → sep ∉ f x) (xs : List α) :
    splitAt sep (xs.flatMap f) = (xs.splitOn a).map (·.flatMap f) := by
  rw [splitAt_eq_splitOn]
  induction xs with
  | nil => rfl
  | cons x xs ih =>
    rw [List.flatMap_cons, List.splitOn_cons_eq_if_modifyHead]
    by_cases hx : x = a
    · rw [hx, hsep, List.singleton_append, List.splitOn_cons_eq_if_modifyHead]
      simp [ih]
    · rw [splitOn_append (hf x hx), ih, if_neg (by simpa using hx)]
      cases xs.splitOn a <;> rfl

end ApiShell.Text
