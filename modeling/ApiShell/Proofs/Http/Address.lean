import ApiShell.Http.Url
import ApiShell.Proofs.Encoding.Percent
import ApiShell.Proofs.Run
import ApiShell.Proofs.Text.Split

/-!
# Parts of an address

An address that is read has each part of its text in the form in which it is sent.  A path that begins
at the root does so on the wire; below a host, it has no `.` and `..` segments there, and a path without
such segments keeps all of its segments.
-/

namespace ApiShell.Http

namespace Url

variable {raw : Raw} {u : Url} {path : List Char}

/-! ### Paths from the root -/

/-- Nothing stands before the first slash. -/
def IsRooted (path : List Char) : Prop := ∀ c ∈ path.head?, c = '/'

/-- A segment that is not kept. -/
def isDots (segment : List Char) : Bool := segment == ['.'] || segment == ['.', '.']

theorem isRooted_iff_head?_splitAt :
    IsRooted path ↔ (Text.splitAt '/' path).head? = some [] := by
  rw [Text.head?_splitAt]
  cases path with
  | nil => exact iff_of_true nofun rfl
  | cons c cs =>
    by_cases hc : c = '/'
    · simp [IsRooted, hc]
    · simp [IsRooted, hc]

theorem isRooted_joinWith {pieces : List (List Char)} (h : pieces.head? = some []) :
    IsRooted (Text.joinWith ['/'] pieces) := by
  cases pieces with
  | nil => cases h
  | cons piece pieces =>
    obtain rfl : piece = [] := Option.some.inj h
    cases pieces with
    | nil => exact nofun
    | cons next pieces =>
      rintro c ⟨⟩
      rfl

/-- What is dropped is dropped behind the root. -/
theorem head?_dropDots {before segments : List (List Char)} (h : before.getLast? = some []) :
    (dropDots before segments).head? = some [] := by
  induction segments generalizing before with
  | nil => rw [dropDots, List.head?_reverse, h]
  | cons segment segments ih =>
    have hpush : (segment :: before).getLast? = some [] := by
      rw [List.getLast?_cons, h]
      rfl
    by_cases hdot : segment = ['.']
    · rw [hdot, dropDots]
      exact ih h
    by_cases hdots : segment = ['.', '.']
    · rw [hdots, dropDots]
      refine ih ?_
      split
      · exact h
      · next hne =>
        cases before with
        | nil => exact h
        | cons last before =>
          cases before with
          | nil =>
            obtain rfl : last = [] := Option.some.inj h
            exact absurd rfl hne
          | cons next before => simpa [List.getLast?_cons] using h
    · rw [dropDots]
      · exact ih hpush
      · exact hdot
      · exact hdots

/-- What is left are segments that were there, none of them of dots. -/
theorem mem_dropDots {before segments : List (List Char)} {s : List Char}
    (h : s ∈ dropDots before segments) : s ∈ before ∨ s ∈ segments ∧ isDots s = false := by
  induction segments generalizing before with
  | nil => exact .inl (List.mem_reverse.1 h)
  | cons segment segments ih =>
    have hlater : s ∈ segments ∧ isDots s = false → s ∈ segment :: segments ∧ isDots s = false :=
      fun h => ⟨List.mem_cons_of_mem _ h.1, h.2⟩
    by_cases hdot : segment = ['.']
    · rw [hdot, dropDots] at h
      exact (ih h).imp_right (hdot ▸ hlater)
    by_cases hdots : segment = ['.', '.']
    · rw [hdots, dropDots] at h
      refine (ih h).imp (fun hs => ?_) (hdots ▸ hlater)
      split at hs
      · exact hs
      · exact List.mem_of_mem_drop hs
    · rw [dropDots] at h
      · rcases ih h with hs | hs
        · rcases List.mem_cons.1 hs with rfl | hs
          · exact .inr ⟨List.mem_cons_self, by simp [isDots, hdot, hdots]⟩
          · exact .inl hs
        · exact .inr (hlater hs)
      · exact hdot
      · exact hdots

/-- A path without segments of dots is kept. -/
theorem normalPath_eq_self (h : ∀ s ∈ Text.splitAt '/' path, isDots s = false) :
    normalPath path = path := by
  have hnone : ¬(Text.splitAt '/' path).any (fun s => s == ['.'] || s == ['.', '.']) = true := by
    intro hany
    obtain ⟨s, hs, hdots⟩ := List.any_eq_true.1 hany
    have hkept := h s hs
    rw [isDots, hdots] at hkept
    cases hkept
  rw [normalPath, if_neg hnone]

/-- A path from the root stays one, and then it has no segments of dots. -/
theorem of_normalPath (h : IsRooted path) : IsRooted (normalPath path) ∧
    ∀ s ∈ Text.splitAt '/' (normalPath path), isDots s = false := by
  by_cases hdots : (Text.splitAt '/' path).any (fun s => s == ['.'] || s == ['.', '.']) = true
  · have hhead := isRooted_iff_head?_splitAt.1 h
    have hparts : ∀ s ∈ dropDots [] (Text.splitAt '/' path),
        s ∈ Text.splitAt '/' path ∧ isDots s = false := by
      intro s hs
      exact (mem_dropDots hs).resolve_left List.not_mem_nil
    have hroot : (dropDots [] (Text.splitAt '/' path)).head? = some [] := by
      cases hsegments : Text.splitAt '/' path with
      | nil => exact absurd hsegments (Text.splitAt_ne_nil '/' path)
      | cons first rest =>
        rw [hsegments] at hhead
        obtain rfl : first = [] := Option.some.inj hhead
        rw [dropDots]
        · exact head?_dropDots rfl
        · exact nofun
        · exact nofun
    have hne : dropDots [] (Text.splitAt '/' path) ≠ [] := by
      intro hnil
      rw [hnil] at hroot
      cases hroot
    rw [normalPath, if_pos hdots]
    refine ⟨isRooted_joinWith hroot, fun s hs => ?_⟩
    rw [Text.splitAt_joinWith hne fun s hs => Text.notMem_of_mem_splitAt (hparts s hs).1] at hs
    exact (hparts s hs).2
  · rw [normalPath, if_neg hdots]
    refine ⟨h, fun s hs => Bool.eq_false_iff.2 fun hs' => hdots ?_⟩
    exact List.any_eq_true.2 ⟨s, hs, hs'⟩

/-! ### Paths in the form in which they are sent -/

theorem encode_slash : Percent.encode isPathChar ['/'] = ['/'] := by decide

/-- No other character brings in a slash. -/
theorem slash_notMem_encode {c : Char} (h : c ≠ '/') : '/' ∉ Percent.encode isPathChar [c] := by
  by_cases hc : Percent.isUnreserved c = true ∨ isPathChar c = true
  · rw [Percent.encode_singleton_of_safe hc, List.mem_singleton]
    exact Ne.symm h
  · intro hmem
    rw [Percent.encode_singleton_of_not_safe hc] at hmem
    have hchar := (Percent.isEncoded_escape _).mem hmem
    revert hchar
    decide

/-- The segments of an encoded path are the encoded segments. -/
theorem splitAt_encode (path : List Char) :
    Text.splitAt '/' (Percent.encode isPathChar path) =
      (Text.splitAt '/' path).map (Percent.encode isPathChar) := by
  have hsingle (c : Char) : Percent.encode isPathChar [c] =
      if Percent.isUnreserved c || isPathChar c then [c] else Percent.escape [c] :=
    List.flatMap_singleton _ c
  rw [Text.splitAt_eq_splitOn '/' path]
  refine Text.splitAt_flatMap ?_ (fun c hc => ?_) path
  · rw [← hsingle]
    exact encode_slash
  · rw [← hsingle]
    exact slash_notMem_encode hc

/-- Encoding makes no dots and takes none away. -/
theorem isDots_encode (s : List Char) : isDots (Percent.encode isPathChar s) = isDots s := by
  rw [Bool.eq_iff_iff]
  constructor
  · intro h
    have hself : Percent.encode isPathChar s = s := by
      refine Percent.encode_eq_self_of_notMem fun hmem => ?_
      simp only [isDots, Bool.or_eq_true, beq_iff_eq] at h
      rcases h with h | h <;> rw [h] at hmem <;> revert hmem <;> decide
    rwa [hself] at h
  · intro h
    simp only [isDots, Bool.or_eq_true, beq_iff_eq] at h
    rcases h with rfl | rfl <;> decide

theorem isRooted_encode_iff : IsRooted (Percent.encode isPathChar path) ↔ IsRooted path := by
  rw [isRooted_iff_head?_splitAt, isRooted_iff_head?_splitAt, splitAt_encode, List.head?_map,
    Option.map_eq_some_iff]
  constructor
  · rintro ⟨s, hs, hnil⟩
    have hself : Percent.encode isPathChar s = s :=
      Percent.encode_eq_self_of_notMem (by rw [hnil]; exact List.not_mem_nil)
    rw [hs, ← hnil, hself]
  · intro h
    exact ⟨[], h, rfl⟩

/-- The segments of a path that has been freed from dots and encoded. -/
theorem isDots_of_mem_splitAt_encode (h : IsRooted path) {s : List Char}
    (hs : s ∈ Text.splitAt '/' (Percent.encode isPathChar (normalPath path))) :
    isDots s = false := by
  rw [splitAt_encode] at hs
  obtain ⟨s', hs', rfl⟩ := List.mem_map.1 hs
  rw [isDots_encode]
  exact (of_normalPath h).2 s' hs'

/-! ### What is read from the parts of a text -/

/-- The address says where to send. -/
def hasAuthority (u : Url) : Bool := !u.userInfo.isEmpty || !u.host.isEmpty || u.port.isSome

/-- The address is made of the parts of a text. -/
structure IsMadeOf (u : Url) (raw : Raw) : Prop where
  scheme : u.scheme = Text.lowerChars raw.scheme
  host : encodeHost (cutAuthority raw.authority).2.1 = .ok u.host
  /-- Below an authority a path begins at the root. -/
  rooted : u.hasAuthority → IsRooted raw.path
  path : u.path = Percent.encode isPathChar
    (if !raw.scheme.isEmpty || u.hasAuthority then normalPath raw.path else raw.path)
  query : u.query = raw.query.map (Percent.encode isQueryChar)

theorem isMadeOf_of_ofRaw (h : ofRaw raw = .ok u) : u.IsMadeOf raw := by
  unfold ofRaw at h
  rcases hparts : cutAuthority raw.authority with ⟨user, host, port⟩
  simp only [hparts] at h
  obtain ⟨sentHost, hhost, h⟩ := bind_eq_ok_iff.1 h
  obtain ⟨sentPort, -, h⟩ := bind_eq_ok_iff.1 h
  split at h
  · cases h
  next hbare =>
  have hmade {path : List Char} {fragment : Option (List Char)}
      (hpath : path = Percent.encodeOnce isPathChar
        (if !raw.scheme.isEmpty || (!(Percent.encodeOnce isUserChar user).isEmpty ||
          !sentHost.isEmpty || sentPort.isSome) then normalPath raw.path else raw.path)) :
      IsMadeOf ⟨Text.lowerChars raw.scheme, Percent.encodeOnce isUserChar user, sentHost, sentPort,
        path, raw.query.map (Percent.encodeOnce isQueryChar), fragment⟩ raw := by
    have hquery : Percent.encodeOnce isQueryChar = Percent.encode isQueryChar :=
      funext (Percent.encodeOnce_eq_encode (by decide))
    refine ⟨rfl, ?_, fun hauthority => ?_, ?_, ?_⟩
    · rw [hparts]
      exact hhost
    · cases hpath : raw.path with
      | nil => exact nofun
      | cons c cs =>
        rintro d ⟨⟩
        simp only [hasAuthority] at hauthority
        simpa [hauthority, hpath] using hbare
    · rw [Percent.encodeOnce_eq_encode (by decide)] at hpath
      exact hpath
    · exact congrArg (raw.query.map ·) hquery
  split at h
  · split at h
    · cases h
    split at h
    · cases h
    · cases h
      exact hmade rfl
  · cases h
    exact hmade rfl

/-- A path from the root is read as one. -/
theorem IsMadeOf.isRooted (hmade : u.IsMadeOf raw) (h : IsRooted raw.path) : IsRooted u.path := by
  rw [hmade.path]
  split
  · exact isRooted_encode_iff.2 (of_normalPath h).1
  · exact isRooted_encode_iff.2 h

/-- Every address that a request can be sent to has its path from the root. -/
theorem isRooted_of_onServer {address : Url} (hmade : u.IsMadeOf raw)
    (h : u.onServer = .ok address) : IsRooted address.path := by
  unfold onServer at h
  split at h
  · next habsolute =>
    obtain rfl := Except.ok.inj h
    refine hmade.isRooted (hmade.rooted ?_)
    simp only [isAbsolute, Bool.and_eq_true] at habsolute
    simp [hasAuthority, habsolute.2]
  · refine (isMadeOf_of_ofRaw h).isRooted ?_
    rintro c ⟨⟩
    rfl

/-! ### Texts of addresses -/

/-- The name of a scheme. -/
structure IsSchemeName (name : List Char) : Prop where
  head : name.head?.any Char.isAlpha
  chars : ∀ c ∈ name, isSchemeChar c

theorem cutScheme_append {name : List Char} (h : IsSchemeName name) (rest : List Char) :
    cutScheme (name ++ ':' :: rest) = (name, rest) := by
  have htake : (name ++ ':' :: rest).takeWhile isSchemeChar = name := by
    rw [List.takeWhile_append_of_pos h.chars, List.takeWhile_cons_of_neg (by decide),
      List.append_nil]
  simp [cutScheme, htake, h.head]

theorem of_cutScheme {cs name rest : List Char} (h : cutScheme cs = (name, rest)) (hne : name ≠ []) :
    IsSchemeName name ∧ cs = name ++ ':' :: rest := by
  have hsplit : cs.takeWhile isSchemeChar ++ cs.drop (cs.takeWhile isSchemeChar).length = cs := by
    rw [Text.drop_length_takeWhile, List.takeWhile_append_dropWhile]
  simp only [cutScheme] at h
  split at h
  · next after hafter =>
    rw [hafter] at hsplit
    split at h
    · next hname =>
      obtain ⟨rfl, rfl⟩ := Prod.mk.inj h
      refine ⟨⟨?_, List.all_eq_true.1 List.all_takeWhile⟩, hsplit.symm⟩
      simpa [hne] using hname
    · cases h
      exact absurd rfl hne
  · cases h
    exact absurd rfl hne

/-- What is read of a text with a scheme and two slashes, if it has no query and no fragment. -/
theorem Raw.ofText_of_cutScheme {cs name more : List Char} (hquestion : '?' ∉ cs) (hhash : '#' ∉ cs)
    (hne : name ≠ []) (h : cutScheme cs = (name, '/' :: '/' :: more)) :
    Raw.ofText cs = ⟨name, more.takeWhile (· != '/'), more.dropWhile (· != '/'), none, none⟩ := by
  have hmore : '?' ∉ more := by
    intro hmem
    rw [(of_cutScheme h hne).2] at hquestion
    exact hquestion (by simp [hmem])
  have hauthority : more.takeWhile (fun c => c != '/' && c != '?') = more.takeWhile (· != '/') := by
    refine Text.takeWhile_congr fun c hc => ?_
    have hne : c ≠ '?' := fun h => hmore (h ▸ hc)
    simp [hne]
  have hpath : '?' ∉ more.dropWhile (· != '/') :=
    fun hmem => hmore ((List.dropWhile_sublist _).mem hmem)
  simp only [Raw.ofText, cutOff, Text.cutAt?_eq_none hhash, h, hauthority,
    Text.drop_length_takeWhile, Text.cutAt?_eq_none hpath]

/-- An authority stands behind two slashes. -/
theorem Raw.exists_cutScheme {cs : List Char} (hhash : '#' ∉ cs)
    (h : (Raw.ofText cs).authority ≠ []) :
    ∃ rest, cutScheme cs = ((Raw.ofText cs).scheme, '/' :: '/' :: rest) := by
  have hcut : cutOff '#' cs = (cs, none) := by rw [cutOff, Text.cutAt?_eq_none hhash]
  simp only [Raw.ofText, hcut] at h ⊢
  split at h
  · next rest hrest => exact ⟨rest, Prod.ext rfl hrest⟩
  · exact absurd rfl h

/-- What follows the text of an address with a scheme and an authority belongs to its path, if together
they begin at the root. -/
theorem Raw.ofText_append {cs more : List Char} (hquestion : '?' ∉ cs ++ more)
    (hhash : '#' ∉ cs ++ more) (hscheme : (Raw.ofText cs).scheme ≠ [])
    (hauthority : (Raw.ofText cs).authority ≠ []) (hrooted : IsRooted ((Raw.ofText cs).path ++ more)) :
    Raw.ofText (cs ++ more) = { Raw.ofText cs with path := (Raw.ofText cs).path ++ more } := by
  have hquestion' := not_or.1 (List.mem_append.not.1 hquestion)
  have hhash' := not_or.1 (List.mem_append.not.1 hhash)
  obtain ⟨rest, hcut⟩ := Raw.exists_cutScheme hhash'.1 hauthority
  generalize (Raw.ofText cs).scheme = name at hcut hscheme
  obtain ⟨hname, htext⟩ := of_cutScheme hcut hscheme
  have hcut' : cutScheme (cs ++ more) = (name, '/' :: '/' :: (rest ++ more)) := by
    rw [htext, List.append_assoc]
    exact cutScheme_append hname _
  rw [Raw.ofText_of_cutScheme hquestion'.1 hhash'.1 hscheme hcut] at hrooted ⊢
  rw [Raw.ofText_of_cutScheme hquestion hhash hscheme hcut']
  have hsplit : rest ++ more = rest.takeWhile (· != '/') ++ (rest.dropWhile (· != '/') ++ more) := by
    rw [← List.append_assoc, List.takeWhile_append_dropWhile]
  have hhost : ∀ c ∈ rest.takeWhile (· != '/'), (c != '/') = true :=
    List.all_eq_true.1 List.all_takeWhile
  generalize rest.takeWhile (· != '/') = host at hsplit hhost
  generalize rest.dropWhile (· != '/') ++ more = path at hsplit hrooted
  have hend : path.takeWhile (· != '/') = [] ∧ path.dropWhile (· != '/') = path := by
    cases path with
    | nil => exact ⟨rfl, rfl⟩
    | cons c path =>
      obtain rfl := hrooted c rfl
      exact ⟨rfl, rfl⟩
  rw [hsplit, List.takeWhile_append_of_pos hhost, List.dropWhile_append_of_pos hhost, hend.1, hend.2,
    List.append_nil]

/-- An absolute address has a scheme and an authority. -/
theorem IsMadeOf.ne_nil (hmade : u.IsMadeOf raw) (h : u.isAbsolute = true) :
    raw.scheme ≠ [] ∧ raw.authority ≠ [] := by
  simp only [isAbsolute, Bool.and_eq_true, Bool.not_eq_true', List.isEmpty_eq_false_iff] at h
  constructor
  · intro hnil
    rw [hmade.scheme, hnil] at h
    exact h.1 rfl
  · intro hnil
    have hhost := hmade.host
    rw [hnil] at hhost
    exact h.2 (Except.ok.inj hhost).symm

theorem ofText_eq_ok {s : String} (h : ofText s = .ok u) : ofRaw (Raw.ofText s.toList) = .ok u := by
  unfold ofText at h
  dsimp only at h
  split at h
  · cases h
  · split at h
    · cases h
    · exact h

/-! ### The address of a request -/

theorem isMadeOf_withQuery {pairs : List (String × String)} {url : Url}
    (h : u.withQuery pairs = .ok url) : url.IsMadeOf
      { u.raw with query := if pairs.isEmpty then none else some (queryText pairs) } := by
  unfold withQuery at h
  dsimp only at h
  split at h
  · cases h
  · exact isMadeOf_of_ofRaw h

/-- A path that has been freed from dots and encoded is kept by an address with a scheme. -/
theorem path_withQuery {pairs : List (String × String)} {url : Url}
    (h : u.withQuery pairs = .ok url) (hscheme : u.scheme ≠ []) (hrooted : IsRooted path)
    (hpath : u.path = Percent.encode isPathChar (normalPath path)) : url.path = u.path := by
  have hkept : normalPath u.path = u.path := by
    refine normalPath_eq_self fun s hs => ?_
    rw [hpath] at hs
    exact isDots_of_mem_splitAt_encode hrooted hs
  have hhas : (!(u.scheme.isEmpty) || url.hasAuthority) = true := by simp [hscheme]
  rw [(isMadeOf_withQuery h).path]
  show Percent.encode isPathChar (if !u.scheme.isEmpty || url.hasAuthority then normalPath u.path
    else u.path) = u.path
  rw [if_pos hhas, hkept, hpath, Percent.encode_encode (by decide)]

/-- The path of every address that a request is sent to begins at the root. -/
theorem isRooted_of_sent {s : String} {pairs : List (String × String)} {address url : Url}
    (haddress : (ofText s).bind onServer = .ok address)
    (hurl : address.withQuery pairs = .ok url) : IsRooted url.path := by
  obtain ⟨u, hu, hserver⟩ := bind_eq_ok_iff.1 haddress
  have hmade := isMadeOf_of_ofRaw (ofText_eq_ok hu)
  exact (isMadeOf_withQuery hurl).isRooted (isRooted_of_onServer hmade hserver)

/-- **The path on the wire.**  Text behind an absolute address belongs to its path, if together they
begin at the root, and the path on the wire is this path without segments of dots, encoded. -/
theorem path_of_sent {base more : List Char} {pairs : List (String × String)} {address url : Url}
    (hquestion : '?' ∉ base ++ more) (hhash : '#' ∉ base ++ more)
    (hbase : ofText (String.ofList base) = .ok u) (habsolute : u.isAbsolute = true)
    (hrooted : IsRooted ((Raw.ofText base).path ++ more))
    (haddress : (ofText (String.ofList (base ++ more))).bind onServer = .ok address)
    (hurl : address.withQuery pairs = .ok url) :
    url.path = Percent.encode isPathChar (normalPath ((Raw.ofText base).path ++ more)) := by
  have hmade := isMadeOf_of_ofRaw (ofText_eq_ok hbase)
  rw [String.toList_ofList] at hmade
  obtain ⟨hscheme, hauthority⟩ := hmade.ne_nil habsolute
  obtain ⟨read, hread, hserver⟩ := bind_eq_ok_iff.1 haddress
  have hread := ofText_eq_ok hread
  rw [String.toList_ofList, Raw.ofText_append hquestion hhash hscheme hauthority hrooted] at hread
  have hmade' := isMadeOf_of_ofRaw hread
  have hsame : read.isAbsolute = true := by
    have hhost : read.host = u.host := Except.ok.inj (hmade'.host.symm.trans hmade.host)
    rw [isAbsolute, hhost, hmade'.scheme, ← habsolute, isAbsolute, hmade.scheme]
  rw [onServer, if_pos hsame] at hserver
  obtain rfl := Except.ok.inj hserver
  have hpath : read.path =
      Percent.encode isPathChar (normalPath ((Raw.ofText base).path ++ more)) := by
    rw [hmade'.path, if_pos (by simp [hscheme])]
  have hname : read.scheme ≠ [] := by
    simp only [isAbsolute, Bool.and_eq_true, Bool.not_eq_true', List.isEmpty_eq_false_iff] at hsame
    exact hsame.1
  rw [path_withQuery hurl hname hrooted hpath, hpath]

end Url

end ApiShell.Http
