import ApiShell.Output.Format
import ApiShell.Proofs.Output.Grid

/-!
# Separated values that are read back

A reader of separated values takes one character after the other (`Reader.step`).  A comma ends a cell,
a line feed or a carriage return ends a record, a cell between quotes may hold all of these, and of a
carriage return and a line feed after it only the first counts.

A line is read back as its cells unless a cell with a carriage return stands in it without quotes
(`run_line`).  At the first one a record ends in the middle of a cell, and that record is no line that
was written (`exists_cut`).
-/

namespace ApiShell.Output.Csv

/-! ### Reading -/

/-- Where a reader is. -/
inductive Place where
  /-- At the beginning of a line. -/
  | line
  /-- At the beginning of a line, just after a carriage return. -/
  | returned
  /-- At the beginning of a cell, just after a comma. -/
  | cell
  /-- In a cell without quotes. -/
  | plain
  /-- In a cell, between quotes. -/
  | quoted
  /-- After the quote that ends a cell, unless another quote follows. -/
  | closed
deriving DecidableEq, Repr

/-- A reader with the records that it has read, the cells of the record that it is in, and the
characters of the cell that it is in. -/
structure Reader where
  records : List (List (List Char)) := []
  cells : List (List Char) := []
  chars : List Char := []
  place : Place := .line

namespace Reader

/-- Nothing of a record has been read. -/
def isFresh (r : Reader) : Bool := r.place = .line || r.place = .returned

/-- The records with the one that the reader is in. -/
def ended (r : Reader) : List (List (List Char)) :=
  r.records ++ [if r.isFresh then [] else r.cells ++ [r.chars]]

/-- Take a character into the cell. -/
def put (r : Reader) (c : Char) (place : Place) : Reader := { r with chars := r.chars ++ [c], place }

/-- Read a character. -/
def step (r : Reader) (c : Char) : Reader :=
  if r.place = .quoted then
    if c = '"' then { r with place := .closed } else r.put c .quoted
  else if c = '"' then
    match r.place with
    | .plain => r.put c .plain
    | .closed => r.put c .quoted
    | _ => { r with place := .quoted }
  else if c = ',' then { r with cells := r.cells ++ [r.chars], chars := [], place := .cell }
  else if c = '\n' ∧ r.place = .returned then { r with place := .line }
  else if c = '\n' then { records := r.ended }
  else if c = '\r' then { records := r.ended, place := .returned }
  else r.put c .plain

/-- Read a text. -/
def run (r : Reader) (cs : List Char) : Reader := cs.foldl step r

/-- The records at the end of a text. -/
def finish (r : Reader) : List (List (List Char)) := if r.isFresh then r.records else r.ended

end Reader

/-- The records of a text. -/
def read (s : String) : List (List String) :=
  (({} : Reader).run s.toList).finish.map fun cells => cells.map String.ofList

namespace Reader

variable (r : Reader)

theorem run_append (cs ds : List Char) : r.run (cs ++ ds) = (r.run cs).run ds := List.foldl_append

theorem run_cons (c : Char) (cs : List Char) : r.run (c :: cs) = (r.step c).run cs := rfl

/-! ### Records stay -/

theorem prefix_ended : r.records <+: r.ended := List.prefix_append _ _

theorem prefix_step (c : Char) : r.records <+: (r.step c).records := by
  unfold step
  split
  · split <;> exact List.prefix_rfl
  split
  · split <;> exact List.prefix_rfl
  split
  · exact List.prefix_rfl
  split
  · exact List.prefix_rfl
  split
  · exact r.prefix_ended
  split
  · exact r.prefix_ended
  · exact List.prefix_rfl

theorem prefix_run (cs : List Char) : r.records <+: (r.run cs).records := by
  induction cs generalizing r with
  | nil => exact List.prefix_rfl
  | cons c cs ih => exact (r.prefix_step c).trans (ih (r.step c))

theorem prefix_finish : r.records <+: r.finish := by
  unfold finish
  split
  · exact List.prefix_rfl
  · exact r.prefix_ended

end Reader

/-! ### Cells -/

/-- A carriage return in the cell stands between quotes. -/
def IsGuarded (cs : List Char) : Prop := '\r' ∈ cs → ∃ c ∈ cs, needsQuotes c = true

instance (cs : List Char) : Decidable (IsGuarded cs) :=
  @instDecidableForall _ _ _ (List.decidableBEx (needsQuotes · = true) cs)

/-- Nothing but the beginning of a cell has been read, at the beginning of a line or after a comma. -/
structure Reader.IsAtCell (r : Reader) : Prop where
  chars_eq : r.chars = []
  place_eq : r.place = .line ∨ r.place = .cell

namespace Reader

variable {r : Reader} {cs : List Char}

/-- Characters that mean nothing to a reader are taken into the cell. -/
theorem run_plain (h : ∀ c ∈ cs, needsQuotes c = false ∧ c ≠ '\r') (hplace : r.place ≠ .quoted) :
    r.run cs = { r with chars := r.chars ++ cs, place := if cs = [] then r.place else .plain } := by
  induction cs generalizing r with
  | nil => simp [run]
  | cons c cs ih =>
    have hc := h c List.mem_cons_self
    simp only [needsQuotes, Bool.or_eq_false_iff, beq_eq_false_iff_ne] at hc
    have hstep : r.step c = r.put c .plain := by
      simp [step, hplace, hc]
    rw [run_cons, hstep, ih (fun d hd => h d (List.mem_cons_of_mem c hd)) (by simp [put])]
    simp [put]

/-- Between quotes all characters are taken, the doubled quotes as single ones. -/
theorem run_doubleQuotes (hplace : r.place = .quoted) :
    r.run (doubleQuotes cs) = { r with chars := r.chars ++ cs } := by
  induction cs generalizing r with
  | nil => simp [run, doubleQuotes]
  | cons c cs ih =>
    have hfirst : r.run (if c = '"' then ['"', '"'] else [c]) = r.put c .quoted := by
      split
      · next hc => simp [run, step, hplace, put, hc]
      · next hc => simp [run, step, hplace, hc]
    rw [doubleQuotes, List.flatMap_cons, ← doubleQuotes, run_append, hfirst, ih rfl]
    simp [put, hplace]

/-- A guarded cell is read. -/
theorem run_cell (hr : r.IsAtCell) (h : IsGuarded cs) :
    ∃ place, place ≠ .quoted ∧ (place = .line ∨ place = .returned → cs = [] ∧ r.place = .line) ∧
      r.run (cell cs) = { r with chars := cs, place } := by
  unfold cell
  split
  · have hopened : r.step '"' = { r with place := .quoted } := by
      rcases hr.place_eq with hplace | hplace <;> simp [step, hplace]
    refine ⟨.closed, by decide, by simp, ?_⟩
    rw [List.cons_append, run_cons, hopened, run_append, run_doubleQuotes rfl]
    simp [run, step, hr.chars_eq]
  · next hplain =>
    have hchars : ∀ c ∈ cs, needsQuotes c = false ∧ c ≠ '\r' := by
      have hnone : ∀ c ∈ cs, needsQuotes c = false := by simpa using hplain
      refine fun c hc => ⟨hnone c hc, ?_⟩
      rintro rfl
      obtain ⟨d, hd, hquoted⟩ := h hc
      rw [hnone d hd] at hquoted
      cases hquoted
    have hplace : r.place ≠ .quoted := by
      rcases hr.place_eq with hplace | hplace <;> simp [hplace]
    refine ⟨_, ?_, ?_, by rw [run_plain hchars hplace, hr.chars_eq, List.nil_append]⟩
    · split
      · exact hplace
      · decide
    · split
      · next hnil =>
        intro hline
        refine ⟨hnil, hr.place_eq.resolve_right fun hcell => ?_⟩
        rw [hcell] at hline
        rcases hline with hline | hline <;> cases hline
      · rintro (hline | hline) <;> cases hline

end Reader

/-! ### Lines -/

/-- The cells of a line from one of them on. -/
def cellsText (cells : List (List Char)) : List Char :=
  Text.joinWith [','] (cells.map cell) ++ ['\n']

theorem cellsText_cons_cons (cs ds : List Char) (cells : List (List Char)) :
    cellsText (cs :: ds :: cells) = cell cs ++ ',' :: cellsText (ds :: cells) := by
  simp [cellsText, Text.joinWith]

theorem cellsText_singleton (cs : List Char) : cellsText [cs] = cell cs ++ ['\n'] := rfl

namespace Reader

variable {r : Reader} {cs : List Char} {cells : List (List Char)}

/-- Behind a comma the next cell begins. -/
theorem step_comma (hplace : r.place ≠ .quoted) :
    r.step ',' = { r with cells := r.cells ++ [r.chars], chars := [], place := .cell } := by
  simp [step, hplace]

/-- Guarded cells make the record that is read of their line. -/
theorem run_cellsText (hr : r.IsAtCell) (hne : r.place = .cell ∨ cs ≠ [] ∨ cells ≠ [])
    (h : ∀ ds ∈ cs :: cells, IsGuarded ds) :
    r.run (cellsText (cs :: cells)) = { records := r.records ++ [r.cells ++ cs :: cells] } := by
  induction cells generalizing r cs with
  | nil =>
    obtain ⟨place, hquoted, hfresh, hcell⟩ := run_cell hr (h cs List.mem_cons_self)
    have hstarted : ¬ (place = .line ∨ place = .returned) := by
      intro hline
      obtain ⟨hnil, hplace⟩ := hfresh hline
      rcases hne with hne | hne | hne
      · rw [hplace] at hne
        cases hne
      · exact hne hnil
      · exact hne rfl
    rw [not_or] at hstarted
    rw [cellsText_singleton, run_append, hcell]
    simp [run, step, ended, isFresh, hquoted, hstarted]
  | cons ds cells ih =>
    obtain ⟨place, hquoted, -, hcell⟩ := run_cell hr (h cs List.mem_cons_self)
    rw [cellsText_cons_cons, run_append, hcell, run_cons, step_comma hquoted,
      ih ⟨rfl, .inr rfl⟩ (.inl rfl) fun es hes => h es (List.mem_cons_of_mem cs hes)]
    simp

/-- A line of guarded cells is read as its cells. -/
theorem run_line (records : List (List (List Char))) (h : ∀ cs ∈ cells, IsGuarded cs) :
    ({ records } : Reader).run (line cells) = { records := records ++ [cells] } := by
  have hstart : ({ records } : Reader).IsAtCell := ⟨rfl, .inl rfl⟩
  unfold line
  split
  · rfl
  · next hcells =>
    cases cells with
    | nil => rfl
    | cons cs cells =>
      have hne : cs ≠ [] ∨ cells ≠ [] := by
        by_contra hnil
        rw [not_or, not_not, not_not] at hnil
        exact hcells (by rw [hnil.1, hnil.2])
      exact run_cellsText hstart (.inr hne) h

/-- At a carriage return that is not guarded the record ends in the middle of its cell. -/
theorem exists_cut_of_cell (hr : r.IsAtCell) (h : ¬ IsGuarded cs) (rest : List Char) :
    ∃ cut, cut ≠ r.cells ++ cs :: cells ∧ r.records ++ [cut] <+: (r.run (cell cs ++ rest)).records := by
  obtain ⟨hmem, hplain⟩ := Classical.not_imp.1 h
  have hnone : ∀ c ∈ cs, needsQuotes c = false := fun c hc =>
    Bool.eq_false_iff.2 fun hquoted => hplain ⟨c, hc, hquoted⟩
  have hcell : cell cs = cs := if_neg (by simpa using hnone)
  obtain ⟨before, after, rfl, hbefore⟩ := List.eq_append_cons_of_mem hmem
  have hplace : r.place ≠ .quoted := by
    rcases hr.place_eq with hplace | hplace <;> simp [hplace]
  have hrun := run_plain (fun c hc => ⟨hnone c (List.mem_append_left _ hc), fun heq =>
    hbefore (heq ▸ hc)⟩) hplace
  rw [hr.chars_eq, List.nil_append] at hrun
  generalize hreader : r.run before = r' at hrun
  refine ⟨if r'.isFresh then [] else r.cells ++ [before], ?_, ?_⟩
  · split
    · simp
    · intro heq
      simp at heq
  · have hreturn : (r'.step '\r').records =
        r.records ++ [if r'.isFresh then [] else r.cells ++ [before]] := by
      have hopen : r'.place ≠ .quoted := by
        rw [hrun]
        dsimp only
        split
        · exact hplace
        · decide
      rw [step, if_neg hopen]
      simp [ended, hrun]
    rw [hcell, List.append_assoc, run_append, hreader, List.cons_append, run_cons, ← hreturn]
    exact prefix_run _ _

/-- A line with a cell that is not guarded is cut. -/
theorem exists_cut_of_cellsText (hr : r.IsAtCell) (h : ¬ ∀ ds ∈ cs :: cells, IsGuarded ds) :
    ∃ cut, cut ≠ r.cells ++ cs :: cells ∧
      r.records ++ [cut] <+: (r.run (cellsText (cs :: cells))).records := by
  induction cells generalizing r cs with
  | nil => exact exists_cut_of_cell hr (by simpa using h) _
  | cons ds cells ih =>
    rw [cellsText_cons_cons]
    by_cases hfirst : IsGuarded cs
    · obtain ⟨place, hquoted, -, hcell⟩ := run_cell hr hfirst
      have hothers : ¬ ∀ es ∈ ds :: cells, IsGuarded es := fun hall =>
        h (List.forall_mem_cons.2 ⟨hfirst, hall⟩)
      have hnext : (⟨r.records, r.cells ++ [cs], [], .cell⟩ : Reader).IsAtCell := ⟨rfl, .inr rfl⟩
      obtain ⟨cut, hcut, hprefix⟩ := ih hnext hothers
      refine ⟨cut, by simpa using hcut, ?_⟩
      rw [run_append, hcell, run_cons, step_comma hquoted]
      exact hprefix
    · exact exists_cut_of_cell hr hfirst _

/-- A line with a cell that is not guarded is not read as its cells. -/
theorem exists_cut (records : List (List (List Char))) (h : ¬ ∀ cs ∈ cells, IsGuarded cs) :
    ∃ cut, cut ≠ cells ∧
      records ++ [cut] <+: (({ records } : Reader).run (line cells)).records := by
  have hstart : ({ records } : Reader).IsAtCell := ⟨rfl, .inl rfl⟩
  unfold line
  split
  · exact absurd (List.forall_mem_singleton.2 (fun hmem => nomatch hmem)) h
  · cases cells with
    | nil => exact absurd (fun cs hcs => nomatch hcs) h
    | cons cs cells => exact exists_cut_of_cellsText hstart h

/-! ### Texts -/

/-- Lines are read back exactly if all their cells are guarded. -/
theorem finish_run_lines_iff (records lines : List (List (List Char))) :
    (({ records } : Reader).run (lines.flatMap line)).finish = records ++ lines ↔
      ∀ cells ∈ lines, ∀ cs ∈ cells, IsGuarded cs := by
  induction lines generalizing records with
  | nil => simp [run, finish, isFresh]
  | cons cells lines ih =>
    rw [List.flatMap_cons, run_append, List.forall_mem_cons]
    by_cases hfirst : ∀ cs ∈ cells, IsGuarded cs
    · rw [run_line records hfirst, and_iff_right hfirst, ← ih (records ++ [cells]),
        List.append_assoc, List.singleton_append]
    · refine iff_of_false (fun hread => ?_) fun h => hfirst h.1
      obtain ⟨cut, hcut, hfound⟩ := exists_cut records hfirst
      have hwhole := (hfound.trans (prefix_run _ (lines.flatMap line))).trans (prefix_finish _)
      rw [hread, List.prefix_append_right_inj] at hwhole
      exact hcut (List.cons_prefix_cons.1 hwhole).1

end Reader

/-- Records of texts and records of characters. -/
theorem map_ofList_eq_iff {records : List (List (List Char))} {lines : List (List String)} :
    (records.map fun cells => cells.map String.ofList) = lines ↔
      records = lines.map fun cells => cells.map String.toList := by
  constructor
  · rintro rfl
    simp [Function.comp_def]
  · rintro rfl
    simp [Function.comp_def]

/-- A text of separated values is read back as its columns and rows exactly if all cells are guarded. -/
theorem read_write_iff (grid : Grid) :
    read (write grid) = grid.columns :: grid.rows ↔
      ∀ cells ∈ grid.columns :: grid.rows, ∀ s ∈ cells, IsGuarded s.toList := by
  have hlines : ((grid.columns :: grid.rows).flatMap fun cells => line (cells.map String.toList)) =
      ((grid.columns :: grid.rows).map fun cells => cells.map String.toList).flatMap line :=
    (List.flatMap_map ..).symm
  have hread := Reader.finish_run_lines_iff []
    ((grid.columns :: grid.rows).map fun cells => cells.map String.toList)
  rw [List.nil_append] at hread
  rw [read, write, String.toList_ofList, hlines, map_ofList_eq_iff, hread]
  simp only [List.forall_mem_map]

end ApiShell.Output.Csv

namespace ApiShell.Output

open Csv (IsGuarded)

/-- **Separated values are read back.**  Every value that JSON can picture is shown as separated values:
its columns, which are the keys of its items and differ from each other, and one record for each item.
A reader gets exactly these back if every carriage return in a column name or cell stands between
quotes, that is, with a comma, a quote or a line feed in the same cell. -/
theorem csv_readsBack_iff {data : Value} (h : data.IsTree) (width : Nat) :
    ∃ grid, Grid.ofValue data = .ok grid ∧ Format.write width data .csv = .ok (Csv.write grid) ∧
      grid.Shows data ∧ grid.columns.Nodup ∧
      (Csv.read (Csv.write grid) = grid.columns :: grid.rows ↔
        ∀ cells ∈ grid.columns :: grid.rows, ∀ s ∈ cells, IsGuarded s.toList) := by
  obtain ⟨grid, hgrid, hshows⟩ := Grid.exists_shows h
  exact ⟨grid, hgrid, bind_eq_ok_iff.2 ⟨grid, hgrid, rfl⟩, hshows, hshows.nodup_columns,
    Csv.read_write_iff grid⟩

/-- Items with different keys, one with line breaks of both kinds in it and one that is no mapping. -/
def noteItems : Value :=
  .list [.ofFields [("id", .int 1), ("note", .text "a\r\n\"b\", c")], .ofFields [("note", .null)],
    .text ""]

theorem isTree_noteItems : noteItems.IsTree := by
  refine .list fun item hitem => ?_
  simp only [List.mem_cons, List.not_mem_nil, or_false] at hitem
  rcases hitem with rfl | rfl | rfl
  · refine .ofFields (by decide) fun e he => ?_
    simp only [List.mem_cons, List.not_mem_nil, or_false] at he
    rcases he with rfl | rfl <;> exact .scalar trivial
  · refine .ofFields (by decide) fun e he => ?_
    rw [List.mem_singleton.1 he]
    exact .scalar trivial
  · exact .scalar trivial

/-- The grid of these items. -/
def noteGrid : Grid where
  columns := ["id", "note", "value"]
  rows := [["1", "a\r\n\"b\", c", ""], ["", "", ""], ["", "", ""]]

/-- These items are read back: their carriage return stands between quotes. -/
theorem csv_readsBack_iff_notes :
    noteItems.IsTree ∧ Format.write 80 noteItems .csv = .ok (Csv.write noteGrid) ∧
      noteGrid.Shows noteItems ∧ noteGrid.columns.Nodup ∧
      Csv.read (Csv.write noteGrid) = noteGrid.columns :: noteGrid.rows := by
  obtain ⟨grid, hgrid, hwrite, hshows, hnodup, hread⟩ := csv_readsBack_iff isTree_noteItems 80
  have hsame : Grid.ofValue noteItems = .ok noteGrid := by decide +kernel
  obtain rfl := Except.ok.inj (hsame.symm.trans hgrid)
  exact ⟨isTree_noteItems, hwrite, hshows, hnodup, hread.2 (by decide)⟩

/-- A carriage return can end a record in the middle of a cell. -/
theorem not_forall_read_write :
    ¬ ∀ (data : Value) (grid : Grid), data.IsTree → Grid.ofValue data = .ok grid →
      Csv.read (Csv.write grid) = grid.columns :: grid.rows := by
  intro h
  have htree : (Value.ofFields [("a", .text "x\ry")]).IsTree := by
    refine .ofFields (by decide) fun e he => ?_
    rw [List.mem_singleton.1 he]
    exact .scalar trivial
  have hread := h _ ⟨["a"], [["x\ry"]]⟩ htree (by decide +kernel)
  exact absurd ((Csv.read_write_iff _).1 hread) (by decide)

end ApiShell.Output
