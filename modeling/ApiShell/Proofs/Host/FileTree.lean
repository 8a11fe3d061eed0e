import ApiShell.Host.FileTree
import ApiShell.Proofs.Run

/-!
# What changes in a file tree

Putting and taking away a file changes what stands at one place.  Names lead where they led before as
long as no directory is lost.  Directories that are there need not be made.
-/

namespace ApiShell.Host.FileTree

variable {t t' t'' : FileTree} {place place' : Place} {names more : List String}

/-! ### One place -/

theorem node?_cons (n : Place × Node) (nodes : List (Place × Node)) (place : Place) :
    node? ⟨n :: nodes⟩ place = if n.1 = place then some n.2 else node? ⟨nodes⟩ place := by
  unfold node?
  by_cases hn : n.1 = place
  · have hfirst : (n :: nodes).find? (·.1 == place) = some n :=
      List.find?_cons_of_pos (beq_iff_eq.2 hn)
    rw [if_pos hn, hfirst, Option.map_some]
  · have hrest : (n :: nodes).find? (·.1 == place) = nodes.find? (·.1 == place) :=
      List.find?_cons_of_neg (by simpa using hn)
    rw [if_neg hn, hrest]

/-- Replacing what stands at a place changes nothing anywhere else. -/
theorem node?_replace (nodes : List (Place × Node)) (place other : Place) (node : Node) :
    node? ⟨nodes.map fun n => if n.1 == place then (place, node) else n⟩ other =
      if other = place then (node? ⟨nodes⟩ place).map fun _ => node else node? ⟨nodes⟩ other := by
  induction nodes with
  | nil => exact (ite_self none).symm
  | cons n nodes ih =>
    rw [List.map_cons, node?_cons, node?_cons, node?_cons, ih]
    by_cases hn : n.1 = place
    · rw [if_pos (beq_iff_eq.2 hn), if_pos hn]
      by_cases hother : other = place
      · rw [if_pos hother.symm, if_pos hother, Option.map_some]
      · rw [if_neg (Ne.symm hother), if_neg hother, if_neg hother, hn, if_neg (Ne.symm hother)]
    · have hkey : (n.1 == place) = false := by simpa using hn
      rw [hkey, if_neg Bool.false_ne_true, if_neg hn]
      by_cases hother : other = place
      · rw [hother, if_neg hn, if_pos rfl, if_pos rfl]
      · rw [if_neg hother, if_neg hother]

theorem node?_put (t : FileTree) (place other : Place) (node : Node) :
    (t.put place node).node? other = if other = place then some node else t.node? other := by
  unfold put
  split
  · next hany =>
    obtain ⟨n, hn, hplace⟩ := List.any_eq_true.1 hany
    have hsome : (t.nodes.find? (·.1 == place)).isSome := List.find?_isSome.2 ⟨n, hn, hplace⟩
    obtain ⟨found, hfound⟩ := Option.isSome_iff_exists.1 hsome
    have hthere : t.node? place = some found.2 := by
      rw [node?, hfound, Option.map_some]
    rw [node?_replace, hthere, Option.map_some]
  · next hany =>
    have hnone : t.nodes.find? (·.1 == place) = none := by
      rw [List.find?_eq_none]
      intro n hn hplace
      exact hany (List.any_eq_true.2 ⟨n, hn, hplace⟩)
    unfold node?
    dsimp only
    rw [List.find?_append]
    by_cases hother : other = place
    · have hlast : [(place, node)].find? (·.1 == place) = some (place, node) :=
        List.find?_cons_of_pos (beq_self_eq_true place)
      rw [if_pos hother, hother, hnone, Option.none_or, hlast, Option.map_some]
    · rw [if_neg hother, List.find?_cons_of_neg (by simpa using Ne.symm hother), List.find?_nil,
        Option.or_none]

theorem node?_erase (t : FileTree) (place other : Place) :
    (t.erase place).node? other = if other = place then none else t.node? other := by
  obtain ⟨nodes⟩ := t
  unfold erase
  dsimp only
  induction nodes with
  | nil => exact (ite_self none).symm
  | cons n nodes ih =>
    rw [node?_cons]
    by_cases hn : n.1 = place
    · rw [List.filter_cons_of_neg (by simpa using hn), ih, hn]
      by_cases hother : other = place
      · rw [if_pos hother, if_pos hother]
      · rw [if_neg hother, if_neg hother, if_neg (Ne.symm hother)]
    · rw [List.filter_cons_of_pos (by simpa using hn), node?_cons, ih]
      by_cases hother : other = place
      · rw [hother, if_neg hn, if_pos rfl, if_pos rfl]
      · rw [if_neg hother, if_neg hother]

/-! ### Following names -/

/-- Every directory of the one tree is a directory of the other. -/
def KeepsDirectories (t t' : FileTree) : Prop :=
  ∀ place, t.node? place = some .directory → t'.node? place = some .directory

theorem keepsDirectories_put (h : t.node? place ≠ some .directory) (node : Node) :
    KeepsDirectories t (t.put place node) := by
  intro other hother
  have hne : other ≠ place := by
    rintro rfl
    exact h hother
  rw [node?_put, if_neg hne, hother]

/-- Names lead where they led before where no directory is lost. -/
theorem follow_of_keepsDirectories (h : KeepsDirectories t t')
    (hfollow : t.follow place names = .ok place') : t'.follow place names = .ok place' := by
  fun_induction follow t place names with
  | case1 place => exact hfollow
  | case2 => cases hfollow
  | case3 => cases hfollow
  | case4 place rest hnode ih =>
    rw [follow, h place hnode]
    exact ih hfollow
  | case5 => cases hfollow
  | case6 place name rest hnode hup hlong ih =>
    rw [follow, h place hnode]
    dsimp only
    rw [if_neg hup, if_neg hlong]
    exact ih hfollow

theorem follow_append (t : FileTree) (place : Place) (names more : List String) :
    t.follow place (names ++ more) = t.follow place names >>= fun p => t.follow p more := by
  fun_induction follow t place names with
  | case1 place => rfl
  | case2 place name rest hnode => rw [List.cons_append, follow, hnode]; rfl
  | case3 place name rest content hnode => rw [List.cons_append, follow, hnode]; rfl
  | case4 place rest hnode ih =>
    rw [List.cons_append, follow, hnode]
    exact ih
  | case5 place name rest hnode hup hlong =>
    rw [List.cons_append, follow, hnode]
    dsimp only
    rw [if_neg hup, if_pos hlong]
    rfl
  | case6 place name rest hnode hup hlong ih =>
    rw [List.cons_append, follow, hnode]
    dsimp only
    rw [if_neg hup, if_neg hlong]
    exact ih

/-- A name leads somewhere only from a directory. -/
theorem node?_of_follow_cons {name : String} (h : t.follow place (name :: names) = .ok place') :
    t.node? place = some .directory := by
  rw [follow] at h
  split at h
  · cases h
  · cases h
  · next hplace => exact hplace

/-- Something stands where names lead. -/
theorem find_eq_ok_iff {node : Node} : t.find place names = .ok node ↔
    ∃ target, t.follow place names = .ok target ∧ t.node? target = some node := by
  unfold find
  rw [bind_eq_ok_iff]
  refine exists_congr fun target => and_congr_right fun _ => ?_
  cases t.node? target with
  | none => exact ⟨nofun, nofun⟩
  | some node => exact ⟨fun h => congrArg _ (Except.ok.inj h), fun h => congrArg _ (Option.some.inj h)⟩

/-- Trees with the same nodes are followed alike. -/
theorem follow_congr (h : ∀ place, t'.node? place = t.node? place) (place : Place)
    (names : List String) : t'.follow place names = t.follow place names := by
  induction names generalizing place with
  | nil => rfl
  | cons name rest ih =>
    rw [follow, follow, h place]
    split <;> first | rfl | simp only [ih]

theorem find_congr (h : ∀ place, t'.node? place = t.node? place) (place : Place)
    (names : List String) : t'.find place names = t.find place names := by
  unfold find
  rw [follow_congr h]
  simp only [h]

/-- Names find the same in two trees if they lead to the same place with the same node. -/
theorem find_of_follow {target : Place} (hfollow : t.follow place names = .ok target)
    (hfollow' : t'.follow place names = .ok target) (hnode : t'.node? target = t.node? target) :
    t'.find place names = t.find place names := by
  unfold find
  rw [hfollow, hfollow']
  dsimp only [bind, Except.bind]
  rw [hnode]

theorem write_of_directory (hfollow : t.follow place names = .ok place')
    (hnode : t.node? place' = some .directory) (content : List UInt8) :
    t.write place names content = .error .directory := by
  unfold write
  rw [hfollow]
  dsimp only [bind, Except.bind]
  rw [hnode]

theorem write_of_follow (hfollow : t.follow place names = .ok place')
    (hnode : t.node? place' ≠ some .directory) (content : List UInt8) :
    t.write place names content = .ok (t.put place' (.file content)) := by
  unfold write
  rw [hfollow]
  dsimp only [bind, Except.bind]
  split
  · next hdirectory => exact absurd hdirectory hnode
  · rfl

/-! ### Making directories -/

/-- The tree may have directories where the other one has nothing; all else is the same. -/
def Grows (t t' : FileTree) : Prop :=
  ∀ place, t'.node? place = t.node? place ∨
    (t.node? place = none ∧ t'.node? place = some .directory)

theorem Grows.refl (t : FileTree) : Grows t t := fun _ => .inl rfl

theorem Grows.trans (h : Grows t t') (h' : Grows t' t'') : Grows t t'' := by
  intro place
  rcases h' place with hsame | ⟨hnone, hdirectory⟩
  · rw [hsame]
    exact h place
  · rcases h place with hsame | ⟨-, hdirectory'⟩
    · exact .inr ⟨hsame ▸ hnone, hdirectory⟩
    · rw [hdirectory'] at hnone
      cases hnone

theorem Grows.keepsDirectories (h : Grows t t') : KeepsDirectories t t' := by
  intro place hplace
  rcases h place with hsame | ⟨hnone, -⟩
  · rw [hsame, hplace]
  · rw [hplace] at hnone
    cases hnone

theorem grows_put (h : t.node? place = none) : Grows t (t.put place .directory) := by
  intro other
  rw [node?_put]
  by_cases hother : other = place
  · rw [if_pos hother, hother]
    exact .inr ⟨h, rfl⟩
  · rw [if_neg hother]
    exact .inl rfl

/-- A directory is made where its last name leads and nothing stands, and nowhere else. -/
theorem makeDirectory_eq_ok_iff : t.makeDirectory place names = .ok t' ↔
    ∃ target, t.follow place names = .ok target ∧ t.node? target = none ∧
      names.getLast?.all (· == "..") = false ∧ t' = t.put target .directory := by
  unfold makeDirectory
  rw [bind_eq_ok_iff]
  refine exists_congr fun target => and_congr_right fun _ => ?_
  cases hnode : t.node? target with
  | some node =>
    rw [Option.isSome_some, Bool.or_true]
    exact ⟨nofun, fun h => nomatch h.1⟩
  | none =>
    rw [Option.isSome_none, Bool.or_false]
    cases names.getLast?.all (· == "..") with
    | true => exact ⟨nofun, fun h => nomatch h.2.1⟩
    | false =>
      exact ⟨fun h => ⟨rfl, rfl, (Except.ok.inj h).symm⟩, fun h => congrArg Except.ok h.2.2.symm⟩

/-- What ensuring a directory comes to: it is there, it is made, or nothing changes. -/
theorem ensureDirectory_cases (t : FileTree) (place : Place) (names : List String) :
    (t.find place names = .ok .directory ∧ t.ensureDirectory place names = (.ok (), t)) ∨
      (∃ target, t.follow place names = .ok target ∧ t.node? target = none ∧
        names.getLast?.all (· == "..") = false ∧
        t.ensureDirectory place names = (.ok (), t.put target .directory)) ∨
      ∃ fault, t.ensureDirectory place names = (.error fault, t) := by
  unfold ensureDirectory
  cases hmade : t.makeDirectory place names with
  | ok made =>
    obtain ⟨target, hfollow, hnone, hlast, rfl⟩ := makeDirectory_eq_ok_iff.1 hmade
    exact .inr (.inl ⟨target, hfollow, hnone, hlast, rfl⟩)
  | error fault =>
    dsimp only
    split
    · next hfound => exact .inl ⟨hfound, rfl⟩
    · exact .inr (.inr ⟨fault, rfl⟩)

/-- Directories are only added. -/
theorem grows_ensureDirectory (t : FileTree) (place : Place) (names : List String) :
    Grows t (t.ensureDirectory place names).2 := by
  rcases ensureDirectory_cases t place names with
    ⟨-, hthere⟩ | ⟨target, -, hnone, -, hmade⟩ | ⟨fault, hfails⟩
  · rw [hthere]
    exact .refl t
  · rw [hmade]
    exact grows_put hnone
  · rw [hfails]
    exact .refl t

/-- A directory that was ensured is there. -/
theorem find_ensureDirectory (h : t.ensureDirectory place names = (.ok (), t')) :
    t'.find place names = .ok .directory := by
  rcases ensureDirectory_cases t place names with
    ⟨hfound, hthere⟩ | ⟨target, hfollow, hnone, -, hmade⟩ | ⟨fault, hfails⟩
  · rw [hthere] at h
    obtain ⟨-, rfl⟩ := Prod.mk.inj h
    exact hfound
  · rw [hmade] at h
    obtain ⟨-, rfl⟩ := Prod.mk.inj h
    have hkeeps := (grows_put hnone).keepsDirectories
    refine find_eq_ok_iff.2 ⟨target, follow_of_keepsDirectories hkeeps hfollow, ?_⟩
    rw [node?_put, if_pos rfl]
  · rw [hfails] at h
    cases congrArg Prod.fst h

/-- A directory that is there need not be made. -/
theorem ensureDirectory_of_find (h : t.find place names = .ok .directory) :
    t.ensureDirectory place names = (.ok (), t) := by
  obtain ⟨target, hfollow, hnode⟩ := find_eq_ok_iff.1 h
  unfold ensureDirectory
  cases hmade : t.makeDirectory place names with
  | ok made =>
    obtain ⟨target', hfollow', hnone, -⟩ := makeDirectory_eq_ok_iff.1 hmade
    obtain rfl := Except.ok.inj (hfollow.symm.trans hfollow')
    rw [hnode] at hnone
    cases hnone
  | error fault =>
    dsimp only
    rw [h]

/-- What making a directory upwards comes to: it is ensured at once, or the one above it is made first
and it is ensured then, or nothing more is done. -/
theorem makeUpwards_cons_cases (t : FileTree) (place : Place) (name : String) (above : List String) :
    t.makeUpwards place (name :: above) = t.ensureDirectory place (name :: above).reverse ∨
      (∃ made, t.makeUpwards place above = (.ok (), made) ∧
        t.makeUpwards place (name :: above) =
          made.ensureDirectory place (name :: above).reverse) ∨
      ∃ fault, (t.makeUpwards place above).1 = .error fault ∧
        t.makeUpwards place (name :: above) = t.makeUpwards place above := by
  rw [makeUpwards]
  split
  · split
    · next made habove => exact .inr (.inl ⟨made, habove, rfl⟩)
    · next habove =>
      refine .inr (.inr ?_)
      rcases hmade : t.makeUpwards place above with ⟨_ | _, made⟩
      · exact ⟨_, rfl, rfl⟩
      · exact absurd hmade (habove made)
  · exact .inl rfl

/-- However making directories ends, it takes nothing away and makes nothing but directories. -/
theorem grows_makeUpwards (t : FileTree) (place : Place) (names : List String) :
    Grows t (t.makeUpwards place names).2 := by
  induction names with
  | nil => exact grows_ensureDirectory t place []
  | cons name above ih =>
    rcases makeUpwards_cons_cases t place name above with
      hensured | ⟨made, habove, hensured⟩ | ⟨fault, -, hfails⟩
    · rw [hensured]
      exact grows_ensureDirectory t place _
    · rw [hensured]
      rw [habove] at ih
      exact ih.trans (grows_ensureDirectory made place _)
    · rw [hfails]
      exact ih

/-- A directory that was made is there. -/
theorem find_makeUpwards (h : t.makeUpwards place names = (.ok (), t')) :
    t'.find place names.reverse = .ok .directory := by
  cases names with
  | nil => exact find_ensureDirectory h
  | cons name above =>
    rcases makeUpwards_cons_cases t place name above with
      hensured | ⟨made, -, hensured⟩ | ⟨fault, habove, hfails⟩
    · exact find_ensureDirectory (hensured ▸ h)
    · exact find_ensureDirectory (hensured ▸ h)
    · rw [← hfails, h] at habove
      cases habove

theorem makeUpwards_of_find (h : t.find place names.reverse = .ok .directory) :
    t.makeUpwards place names = (.ok (), t) := by
  cases names with
  | nil => exact ensureDirectory_of_find h
  | cons name above =>
    rw [makeUpwards, ensureDirectory_of_find h]

/-- What stands at the names stands in a directory, which need not be made. -/
theorem makeUpwards_dropLast {node : Node} (h : t.find place names = .ok node)
    (hnames : names ≠ []) : t.makeUpwards place names.dropLast.reverse = (.ok (), t) := by
  obtain ⟨target, hfollow, -⟩ := find_eq_ok_iff.1 h
  rw [← List.dropLast_concat_getLast hnames, follow_append] at hfollow
  obtain ⟨parent, hparent, hlast⟩ := bind_eq_ok_iff.1 hfollow
  refine makeUpwards_of_find ?_
  rw [List.reverse_reverse]
  exact find_eq_ok_iff.2 ⟨parent, hparent, node?_of_follow_cons hlast⟩

/-- Without double dots, names lead straight down. -/
theorem follow_eq_append (hdots : ".." ∉ names) (h : t.follow place names = .ok place') :
    place' = place ++ names := by
  induction names generalizing place with
  | nil => rw [List.append_nil, Except.ok.inj h]
  | cons name rest ih =>
    rw [List.mem_cons, not_or] at hdots
    rw [follow] at h
    split at h
    · cases h
    · cases h
    · rw [if_neg (Ne.symm hdots.1)] at h
      split at h
      · cases h
      · rw [ih hdots.2 h, List.append_assoc, List.singleton_append]

/-- The current place is not made. -/
theorem ensureDirectory_nil (t : FileTree) (place : Place) :
    (t.ensureDirectory place []).2 = t := by
  rcases ensureDirectory_cases t place [] with
    ⟨-, hthere⟩ | ⟨target, -, -, hlast, -⟩ | ⟨fault, hfails⟩
  · rw [hthere]
  · cases hlast
  · rw [hfails]

/-- Without double dots, a directory is made where the names say, and nowhere else. -/
theorem node?_ensureDirectory (hdots : ".." ∉ names) {other : Place}
    (hother : other ≠ place ++ names) :
    (t.ensureDirectory place names).2.node? other = t.node? other := by
  rcases ensureDirectory_cases t place names with
    ⟨-, hthere⟩ | ⟨target, hfollow, -, -, hmade⟩ | ⟨fault, hfails⟩
  · rw [hthere]
  · rw [hmade, node?_put, if_neg (follow_eq_append hdots hfollow ▸ hother)]
  · rw [hfails]

/-- Without double dots, nothing is made below the names. -/
theorem node?_makeUpwards (hdots : ".." ∉ names) {other : Place}
    (hother : place.length + names.length < other.length) :
    (t.makeUpwards place names).2.node? other = t.node? other := by
  induction names with
  | nil => exact node?_ensureDirectory List.not_mem_nil (by rintro rfl; simp at hother)
  | cons name above ih =>
    have hlast : ∀ made : FileTree,
        (made.ensureDirectory place (name :: above).reverse).2.node? other = made.node? other := by
      intro made
      refine node?_ensureDirectory (by simpa [or_comm] using hdots) ?_
      rintro rfl
      simp at hother
    have habove : (t.makeUpwards place above).2.node? other = t.node? other := by
      refine ih (fun hmem => hdots (List.mem_cons_of_mem _ hmem)) ?_
      rw [List.length_cons] at hother
      omega
    rcases makeUpwards_cons_cases t place name above with
      hensured | ⟨made, hmade, hensured⟩ | ⟨fault, -, hfails⟩
    · rw [hensured, hlast]
    · rw [hmade] at habove
      rw [hensured, hlast, habove]
    · rw [hfails, habove]

/-! ### Trees with parents -/

/-- What stands in a tree stands in a directory. -/
def IsRooted (t : FileTree) : Prop :=
  ∀ place name, t.node? (place ++ [name]) ≠ none → t.node? place = some .directory

/-- What stands below a place makes it a directory. -/
theorem IsRooted.node?_above (h : t.IsRooted) (hnames : names ≠ [])
    (hnode : t.node? (place ++ names) ≠ none) : t.node? place = some .directory := by
  induction names generalizing place with
  | nil => exact absurd rfl hnames
  | cons name rest ih =>
    refine h place name ?_
    by_cases hrest : rest = []
    · rwa [hrest] at hnode
    · rw [List.append_cons] at hnode
      rw [ih hrest hnode]
      exact nofun

/-- Names that lead straight down to something in one tree do so in every tree with parents in which
something stands there. -/
theorem IsRooted.follow (h : t.IsRooted) (hdots : ".." ∉ names)
    (hfollow : t'.follow place names = .ok place') (hnode : t.node? (place ++ names) ≠ none) :
    t.follow place names = .ok (place ++ names) := by
  induction names generalizing place with
  | nil =>
    rw [List.append_nil]
    rfl
  | cons name rest ih =>
    rw [List.mem_cons, not_or] at hdots
    rw [FileTree.follow] at hfollow ⊢
    rw [h.node?_above (List.cons_ne_nil _ _) hnode]
    split at hfollow
    · cases hfollow
    · cases hfollow
    · rw [if_neg (Ne.symm hdots.1)] at hfollow
      split at hfollow
      · cases hfollow
      · next hlong =>
        rw [if_neg (Ne.symm hdots.1), if_neg hlong]
        have happend : place ++ name :: rest = (place ++ [name]) ++ rest := by simp
        rw [happend] at hnode ⊢
        exact ih hdots.2 hfollow hnode

/-- What the names lead to after the directories above are made stood there before. -/
theorem IsRooted.find_of_makeUpwards {node : Node} (h : t.IsRooted) (hdots : ".." ∉ names)
    (hnames : names ≠ [])
    (hfind : (t.makeUpwards place names.dropLast.reverse).2.find place names = .ok node) :
    t.find place names = .ok node := by
  obtain ⟨target, hfollow, hnode⟩ := find_eq_ok_iff.1 hfind
  obtain rfl := follow_eq_append hdots hfollow
  have habove : ".." ∉ names.dropLast.reverse := fun hmem =>
    hdots (List.dropLast_subset _ (List.mem_reverse.1 hmem))
  have hbelow : place.length + names.dropLast.reverse.length < (place ++ names).length := by
    have hpositive := List.length_pos_iff.2 hnames
    rw [List.length_reverse, List.length_dropLast, List.length_append]
    omega
  rw [node?_makeUpwards habove hbelow] at hnode
  have hthere : t.node? (place ++ names) ≠ none := by
    rw [hnode]
    exact Option.some_ne_none node
  exact find_eq_ok_iff.2 ⟨_, h.follow hdots hfollow hthere, hnode⟩

end ApiShell.Host.FileTree
