import ApiShell.Program.Builtin
import ApiShell.Program.EarlyOptions
import ApiShell.Proofs.CommandLine.Pieces

/-!
# The configuration that is looked for early

The configuration is looked for among all words of a command line, before anything is known about them.
Later the words are read: they fall into pieces, and the configuration is the last text that a piece
gives to its option.  Both find the same where each piece that gives one has the option written out in
its first word, no value of an option looks like that option itself, and what belongs to a command does
not look like it.
-/

namespace ApiShell.Program.EarlyOptions

open CommandLine

/-! ### What is seen -/

/-- What a word and the one behind it say about the configuration. -/
def sighted? (word : String) (next : Option String) : Option String :=
  if ["--config", "-c"].contains word && next.isSome then next else attached? "--config" word

/-- All that is seen of the configuration up to two hyphens. -/
def sightings : List String → List String
  | [] => []
  | word :: words =>
    if word = "--" then [] else (sighted? word words.head?).toList ++ sightings words

theorem config_look (found : EarlyOptions) (word : String) (next : Option String) :
    (found.look word next).config = (sighted? word next).or found.config := by
  unfold look sighted?
  by_cases hmark : (["--config", "-c"].contains word && next.isSome) = true
  · obtain ⟨value, rfl⟩ := Option.isSome_iff_exists.1 (Bool.and_eq_true_iff.1 hmark).2
    rw [if_pos hmark, if_pos hmark]
    rfl
  · rw [if_neg hmark, if_neg hmark]
    cases attached? "--config" word with
    | some value => rfl
    | none =>
      -- What is left to look at says nothing about the configuration.
      dsimp only [Option.none_or]
      split
      · rfl
      · split
        · rfl
        · split <;> rfl

theorem config_scanFrom (found : EarlyOptions) (words : List String) :
    (scanFrom found words).config = (sightings words).getLast?.or found.config := by
  induction words generalizing found with
  | nil => rfl
  | cons word words ih =>
    rw [scanFrom, sightings]
    by_cases hend : word = "--"
    · rw [if_pos hend, if_pos hend]
      rfl
    · rw [if_neg hend, if_neg hend, ih, config_look, List.getLast?_append, ← Option.or_assoc]
      cases sighted? word words.head? <;> rfl

/-- The last configuration that is seen counts. -/
theorem config_scan (words : List String) : (scan words).config = (sightings words).getLast? :=
  (config_scanFrom {} words).trans Option.or_none

/-! ### What is seen of a piece -/

/-- The word looks like the option for the configuration, written out. -/
def isMark (word : String) : Bool :=
  ["--config", "-c"].contains word || (attached? "--config" word).isSome

theorem sighted?_of_not_isMark {word : String} (h : ¬ isMark word) (next : Option String) :
    sighted? word next = none := by
  rw [isMark, Bool.or_eq_true, not_or] at h
  rw [sighted?, if_neg fun hmark => h.1 (Bool.and_eq_true_iff.1 hmark).1]
  exact Option.not_isSome_iff_eq_none.1 h.2

/-- The option for the configuration. -/
def configOption : OptionDecl :=
  { identifier := "config", names := ["--config", "-c"], kind := .string
    help := "Config file (default: $ONTAP_CONFIG or the XDG config dir)." }

theorem takesText_configOption : interface.TakesText configOption where
  isText := by decide
  found := by decide
  default := rfl

theorem readWord_of_contains {word : String} (h : ["--config", "-c"].contains word) :
    interface.readWord word = .ok (.awaiting [] configOption word) := by
  rcases List.mem_cons.1 (List.contains_iff_mem.1 h) with rfl | h
  · decide
  · rw [List.mem_singleton.1 h]
    decide

theorem readWord_of_attached? {word value : String} (h : attached? "--config" word = some value) :
    interface.readWord word = .ok (.complete [⟨configOption, .word value⟩]) := by
  obtain ⟨cs, hcs, rfl⟩ := Option.map_eq_some_iff.1 h
  have hword : word.toList = "--config=".toList ++ cs := Text.dropStart?_eq_some_iff.1 hcs
  have hcut : Text.cut? '=' word = some ("--config", String.ofList cs) := by
    rw [Text.cut?, hword]
    rfl
  have hoption : interface.longOption? "--config" = some (configOption, false) := by decide
  rw [Interface.readWord, hcut]
  dsimp only
  rw [hoption]
  rfl

/-- In the piece, a configuration is given by a word that looks like it, and the value of the option in
front of it does not look like it. -/
structure IsPlain (p : Piece) : Prop where
  marked : textsOf "config" p.uses ≠ [] → isMark p.word
  value : ∀ v ∈ p.value?, v ≠ "--" ∧ ¬ isMark v

/-- What is seen of a plain piece is what it gives to the configuration. -/
theorem sightings_piece {p : Piece} (hp : p.IsOf interface) (hplain : IsPlain p)
    (words : List String) :
    sightings (p.words ++ words) = textsOf "config" p.uses ++ sightings words := by
  have hend : p.word ≠ "--" := hp.isOption.1
  rw [Piece.words, List.cons_append, sightings, if_neg hend]
  -- The value that an option takes from the next word is passed over.
  have hvalue : sightings (p.value?.toList ++ words) = sightings words := by
    cases hv : p.value? with
    | none => rfl
    | some v =>
      obtain ⟨hvend, hvmark⟩ := hplain.value v hv
      rw [Option.toList_some, List.singleton_append, sightings, if_neg hvend,
        sighted?_of_not_isMark hvmark]
      rfl
  rw [hvalue]
  congr 1
  by_cases hmark : ["--config", "-c"].contains p.word
  · obtain ⟨uses, hread, -⟩ | ⟨uses, o, name, value, hread, hv, huses⟩ := hp.reads
    · rw [readWord_of_contains hmark] at hread
      cases hread
    · rw [readWord_of_contains hmark] at hread
      cases hread
      rw [hv, huses, sighted?, if_pos (by simpa using hmark)]
      rfl
  · rw [sighted?, if_neg fun h => hmark (Bool.and_eq_true_iff.1 h).1]
    cases hattached : attached? "--config" p.word with
    | some value =>
      obtain ⟨uses, hread, -, huses⟩ | ⟨uses, o, name, _, hread, -⟩ := hp.reads
      · rw [readWord_of_attached? hattached] at hread
        cases hread
        rw [huses]
        rfl
      · rw [readWord_of_attached? hattached] at hread
        cases hread
    | none =>
      have hnot : ¬ isMark p.word := by
        rw [isMark, Bool.or_eq_true, not_or]
        exact ⟨hmark, by simp [hattached]⟩
      rw [not_imp_comm.1 hplain.marked hnot]
      rfl

theorem sightings_parts {words behind rest : List String} {pieces : List Piece}
    (hparts : Parts interface words pieces behind rest) (hplain : ∀ p ∈ pieces, IsPlain p) :
    sightings words = textsOf "config" (pieces.flatMap Piece.uses) ++ sightings behind := by
  have hisOf := hparts.isOf
  rw [hparts.words_eq]
  clear hparts
  induction pieces with
  | nil => rfl
  | cons p pieces ih =>
    obtain ⟨hp, hpieces⟩ := List.forall_mem_cons.1 hisOf
    obtain ⟨hpplain, hpiecesplain⟩ := List.forall_mem_cons.1 hplain
    rw [List.flatMap_cons, List.append_assoc, sightings_piece hp hpplain, ih hpiecesplain hpieces,
      List.flatMap_cons, textsOf_append, List.append_assoc]

/-! ### What is seen and what is bound -/

/-- The words that the program accepts fall into pieces.  The configuration that is bound is the last
one that a piece gives; the one that is looked for early is the last one that is seen among all words.
Where the pieces are plain, it is the one that is bound unless one is seen behind the pieces, in the
words that belong to a command. -/
theorem config_scan_of_readGroup {words rest : List String} {values : Values}
    (h : interface.readGroup words = .ok (values, rest)) :
    (∃ pieces behind, Parts interface words pieces behind rest) ∧
      (scan words).config = (sightings words).getLast? ∧
      ∀ pieces behind, Parts interface words pieces behind rest →
        values.text? "config" = (textsOf "config" (pieces.flatMap Piece.uses)).getLast? ∧
        ((∀ p ∈ pieces, IsPlain p) →
          (scan words).config = (sightings behind).getLast?.or (values.text? "config")) := by
  refine ⟨exists_parts_of_readGroup h rfl, config_scan words, fun pieces behind hparts => ?_⟩
  have hbound : values.text? "config" =
      (textsOf "config" (pieces.flatMap Piece.uses)).getLast? :=
    text?_of_parts h hparts rfl takesText_configOption
  refine ⟨hbound, fun hplain => ?_⟩
  rw [config_scan, sightings_parts hparts hplain, List.getLast?_append, hbound]

/-- The pieces of a command line that gives the configuration twice, both times written out. -/
def plainPieces : List Piece :=
  [{ word := "-v", value? := none
     uses := [⟨{ identifier := "verbose", names := ["--verbose", "-v"], kind := .bool
                 default := some (.bool false), help := "Enable debug output." }, .switch true⟩] },
   { word := "--config", value? := some "a.yaml", uses := [⟨configOption, .word "a.yaml"⟩] },
   { word := "--config=b.yaml", value? := none, uses := [⟨configOption, .word "b.yaml"⟩] }]

theorem parts_plainPieces : Parts interface ["-v", "--config", "a.yaml", "--config=b.yaml", "version"]
    plainPieces ["version"] ["version"] where
  words_eq := by decide
  isOf := by
    refine List.forall_mem_cons.2 ⟨?_, List.forall_mem_cons.2 ⟨?_, List.forall_mem_singleton.2 ?_⟩⟩
    · exact ⟨by decide, .inl ⟨_, by decide, rfl, rfl⟩⟩
    · exact ⟨by decide, .inr ⟨[], _, "--config", _, by decide, rfl, rfl⟩⟩
    · exact ⟨by decide, .inl ⟨_, by decide, rfl, rfl⟩⟩
  ends := .command "version" [] (by decide) (by decide)

theorem isPlain_of_mem_plainPieces : ∀ p ∈ plainPieces, IsPlain p := by
  refine List.forall_mem_cons.2 ⟨?_, List.forall_mem_cons.2 ⟨?_, List.forall_mem_singleton.2 ?_⟩⟩
  · exact ⟨by decide, by decide⟩
  · exact ⟨by decide, by decide⟩
  · exact ⟨by decide, by decide⟩

/-- What is bound where a command line is read can be computed. -/
theorem exists_bound (words : List String) (text? : Option String) (rest : List String)
    (h : (interface.readGroup words).toOption.map (fun r => (r.1.text? "config", r.2)) =
      some (text?, rest)) :
    ∃ values, interface.readGroup words = .ok (values, rest) ∧ values.text? "config" = text? := by
  obtain ⟨⟨values, left⟩, hread, heq⟩ := Option.map_eq_some_iff.1 h
  obtain ⟨htext, rfl⟩ := Prod.mk.inj heq
  exact ⟨values, eq_ok_of_toOption hread, htext⟩

/-- A configuration that is given twice in plain pieces: the last one is bound and is seen early. -/
theorem config_scan_of_readGroup_twice : ∃ values,
    interface.readGroup ["-v", "--config", "a.yaml", "--config=b.yaml", "version"] =
      .ok (values, ["version"]) ∧
    values.text? "config" = some "b.yaml" ∧
    (scan ["-v", "--config", "a.yaml", "--config=b.yaml", "version"]).config = some "b.yaml" := by
  obtain ⟨values, hread, -⟩ := exists_bound
    ["-v", "--config", "a.yaml", "--config=b.yaml", "version"] (some "b.yaml") ["version"]
    (by decide +kernel)
  obtain ⟨hbound, hscan⟩ :=
    (config_scan_of_readGroup hread).2.2 plainPieces ["version"] parts_plainPieces
  have hlast : (textsOf "config" (plainPieces.flatMap Piece.uses)).getLast? = some "b.yaml" := by
    decide
  have hunseen : sightings ["version"] = [] := by decide
  refine ⟨values, hread, hbound.trans hlast, ?_⟩
  rw [hscan isPlain_of_mem_plainPieces, hunseen, hbound, hlast]
  rfl

/-- A configuration behind its letter in one word is bound and is not seen.  One that is a flag of a
command is seen and is not bound. -/
theorem config_scan_ne_bound :
    (∃ values, interface.readGroup ["-cmy.yaml", "version"] = .ok (values, ["version"]) ∧
      values.text? "config" = some "my.yaml" ∧ (scan ["-cmy.yaml", "version"]).config = none) ∧
    ∃ values, interface.readGroup ["shop", "default", "orders", "--config", "prod"] =
        .ok (values, ["shop", "default", "orders", "--config", "prod"]) ∧
      values.text? "config" = none ∧
      (scan ["shop", "default", "orders", "--config", "prod"]).config = some "prod" := by
  constructor
  · obtain ⟨values, hread, hbound⟩ := exists_bound ["-cmy.yaml", "version"] (some "my.yaml")
      ["version"] (by decide +kernel)
    exact ⟨values, hread, hbound, by decide⟩
  · obtain ⟨values, hread, hbound⟩ :=
      exists_bound ["shop", "default", "orders", "--config", "prod"] none
        ["shop", "default", "orders", "--config", "prod"] (by decide +kernel)
    exact ⟨values, hread, hbound, by decide⟩

end ApiShell.Program.EarlyOptions
