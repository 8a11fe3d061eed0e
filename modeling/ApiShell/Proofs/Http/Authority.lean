import ApiShell.Proofs.Decimal.Numeral
import ApiShell.Proofs.Encoding.Punycode
import ApiShell.Proofs.Http.Address
import ApiShell.Proofs.Run

/-!
# Hosts and ports

A host is sent in one of a few forms: as nothing, as an IPv6 address, or in characters that stand for
themselves in a name.  So an address that was read can be read again, part by part, as it is when query
pairs are put into it.  There is one exception: escaping can make a name look like an IPv4 address
(`succeeds_encodeHost_bracketed`).

From this it follows which texts with a scheme and two slashes are addresses that a request can be
sent to (`succeeds_address_iff`).
-/

namespace ApiShell.Http

namespace Url

variable {raw : Raw} {u : Url} {host sent cs : List Char} {c : Char}

/-! ### Hosts in the form in which they are sent -/

/-- A character that stands for itself in the name of a host. -/
def IsNameChar (c : Char) : Prop := Percent.isUnreserved c = true ∨ isHostChar c = true

theorem IsNameChar.ne (h : IsNameChar c) : c ≠ ':' ∧ c ≠ '[' ∧ c ≠ '@' := by
  unfold IsNameChar at h
  refine ⟨?_, ?_, ?_⟩ <;> rintro rfl <;> revert h <;> decide

theorem IsNameChar.toNat_lt (h : IsNameChar c) : c.toNat < 128 := by
  have hmarks {marks : List Char} (hall : marks.all (fun d => decide (d.toNat < 128)) = true)
      (hc : marks.contains c = true) : c.toNat < 128 :=
    of_decide_eq_true (List.all_eq_true.1 hall c (List.contains_iff_mem.1 hc))
  rcases h with h | h
  · rcases Bool.or_eq_true_iff.1 h with h | h
    · exact Nat.lt_of_le_of_lt (Text.toNat_of_isAlphanum h).2 (by decide)
    · exact hmarks (by decide) h
  · exact hmarks (by decide) h

theorem isUnreserved_of_isAlphanum (h : c.isAlphanum = true) : Percent.isUnreserved c = true :=
  Bool.or_eq_true_iff.2 (.inl h)

theorem isUnreserved_of_isIPv4 (h : isIPv4 host = true) : ∀ c ∈ host, Percent.isUnreserved c = true := by
  intro c hc
  simp only [isIPv4, Bool.and_eq_true, List.all_eq_true] at h
  rw [← Text.joinWith_splitAt '.' host] at hc
  rcases Text.mem_joinWith hc with hc | ⟨piece, hpiece, hc⟩
  · obtain rfl := List.mem_singleton.1 hc
    decide
  · have hoctet := h.2 piece hpiece
    simp only [isOctet, Bool.and_eq_true, List.all_eq_true] at hoctet
    exact isUnreserved_of_isAlphanum (Bool.or_eq_true_iff.2 (.inr (hoctet.1.1.2 c hc)))

/-- A label is sent in letters, digits and hyphens. -/
theorem isUnreserved_of_encodeLabel {label : List Char} (h : encodeLabel label = some sent) :
    ∀ c ∈ sent, Percent.isUnreserved c = true := by
  unfold encodeLabel at h
  dsimp only at h
  generalize hform : (if label.all (·.toNat < 128) = true then label
    else "xn--".toList ++ Punycode.encode label) = form at h
  split at h
  · cases h
  next hgood =>
  obtain rfl := Option.some.inj h
  subst hform
  have hword : ∀ c ∈ label, c.toNat < 128 → Percent.isUnreserved c = true := by
    intro c hc hascii
    simp only [Bool.or_eq_true, not_or, Bool.not_eq_true', Bool.not_eq_false] at hgood
    have hchar := List.all_eq_true.1 hgood.1.1.1.2 c hc
    simp only [Text.isWordChar, hascii, if_true, Bool.or_eq_true, Bool.and_eq_true, beq_iff_eq] at hchar
    rcases hchar with rfl | ⟨hchar | rfl, -⟩
    · decide
    · exact isUnreserved_of_isAlphanum hchar
    · decide
  intro c hc
  split at hc
  · next hascii => exact hword c hc (by simpa using List.all_eq_true.1 hascii c hc)
  · rcases List.mem_append.1 hc with hc | hc
    · have hprefix : "xn--".toList.all Percent.isUnreserved = true := by decide
      exact List.all_eq_true.1 hprefix c hc
    · rcases Punycode.mem_encode hc with ⟨hc, hascii⟩ | hc
      · exact hword c hc hascii
      · exact hc

/-- What stands in the results of a loop is the result of one of its rounds. -/
theorem exists_of_mapM_eq_some {α β : Type} {f : α → Option β} {as : List α} {bs : List β}
    (h : as.mapM f = some bs) {b : β} (hb : b ∈ bs) : ∃ a, f a = some b := by
  induction as generalizing bs with
  | nil =>
    obtain rfl := Option.some.inj h
    cases hb
  | cons a as ih =>
    rw [List.mapM_cons] at h
    obtain ⟨first, hfirst, h⟩ := Option.bind_eq_some_iff.1 h
    obtain ⟨rest, hrest, h⟩ := Option.bind_eq_some_iff.1 h
    obtain rfl := Option.some.inj h
    rcases List.mem_cons.1 hb with rfl | hb
    · exact ⟨a, hfirst⟩
    · exact ih hrest hb

/-- A name is sent in labels with points between them. -/
theorem isUnreserved_of_encodeName (h : encodeName host = some sent) :
    ∀ c ∈ sent, Percent.isUnreserved c = true := by
  unfold encodeName at h
  dsimp only at h
  generalize Text.splitAt '.' _ = labels at h
  obtain ⟨sents, hsents, h⟩ := Option.bind_eq_some_iff.1 h
  obtain rfl := Option.some.inj h
  intro c hc
  rcases List.mem_append.1 hc with hc | hc
  · rcases Text.mem_joinWith hc with hc | ⟨piece, hpiece, hc⟩
    · obtain rfl := List.mem_singleton.1 hc
      decide
    · obtain ⟨label, hlabel⟩ := exists_of_mapM_eq_some hsents hpiece
      exact isUnreserved_of_encodeLabel hlabel c hc
  · split at hc
    · obtain rfl := List.mem_singleton.1 hc
      decide
    · cases hc

/-- A text in brackets is a bracket, what stands between them, and a bracket. -/
theorem eq_of_brackets (h : (host.head? == some '[' && host.getLast? == some ']') = true) :
    host = '[' :: ((host.drop 1).dropLast ++ [']']) := by
  simp only [Bool.and_eq_true, beq_iff_eq] at h
  cases host with
  | nil => cases h.1
  | cons c cs =>
    obtain rfl : c = '[' := Option.some.inj h.1
    cases cs using List.reverseRecOn with
    | nil => exact absurd h.2 (by decide)
    | append_singleton cs d =>
      have hlast := h.2
      rw [← List.cons_append, List.getLast?_append] at hlast
      obtain rfl : d = ']' := by simpa using hlast
      simp

/-- A host is sent as nothing, as an IPv6 address without its brackets, or in characters that stand for
themselves. -/
theorem of_encodeHost (h : encodeHost host = .ok sent) :
    host = [] ∧ sent = [] ∨ isIPv6 sent = true ∧ host = '[' :: (sent ++ [']']) ∨
      ∀ c ∈ sent, IsNameChar c := by
  unfold encodeHost at h
  split at h
  · next hempty => exact .inl ⟨List.isEmpty_iff.1 hempty, (Except.ok.inj h).symm⟩
  split at h
  · split at h
    · next hfour =>
      obtain rfl := Except.ok.inj h
      exact .inr (.inr fun c hc => .inl (isUnreserved_of_isIPv4 hfour c hc))
    · cases h
  split at h
  · next hbrackets =>
    dsimp only at h
    split at h
    · next hsix =>
      obtain rfl := Except.ok.inj h
      exact .inr (.inl ⟨hsix, eq_of_brackets hbrackets⟩)
    · cases h
  split at h
  · obtain rfl := Except.ok.inj h
    refine .inr (.inr fun c hc => ?_)
    rcases Percent.mem_encode hc with rfl | hc
    · exact .inr (by decide)
    · exact hc
  · split at h
    · next hname =>
      obtain rfl := Except.ok.inj h
      exact .inr (.inr fun c hc => .inl (isUnreserved_of_encodeName hname c hc))
    · cases h

theorem cutDoubleColon_eq_none (h : ':' ∉ cs) : cutDoubleColon cs = none := by
  induction cs with
  | nil => rfl
  | cons c cs ih =>
    rw [List.mem_cons, not_or] at h
    rw [cutDoubleColon, ih h.2]
    · rfl
    · rintro rest rfl
      exact absurd rfl h.1

/-- Without colons there is one group, or an IPv4 address in the place of two. -/
theorem groupCount?_ne_eight (h : ':' ∉ cs) : groupCount? true cs ≠ some 8 := by
  have hparts : Text.splitAt ':' cs = [cs] := by
    have hjoin := Text.splitAt_joinWith (List.cons_ne_nil cs []) (List.forall_mem_singleton.2 h)
    exact hjoin
  unfold groupCount?
  rw [hparts]
  split
  · exact nofun
  · show (if (true && isIPv4 cs) = true then _ else _) ≠ _
    split
    · split <;> exact nofun
    · split <;> exact nofun

/-- An IPv6 address has a colon. -/
theorem colon_mem_of_isIPv6 (h : isIPv6 sent = true) : ':' ∈ sent := by
  by_contra hcolon
  have haddress : ':' ∉ sent.takeWhile (· != '%') :=
    fun hmem => hcolon ((List.takeWhile_sublist _).mem hmem)
  unfold isIPv6 at h
  dsimp only at h
  generalize sent.takeWhile (· != '%') = address at h haddress
  have hdouble : cutDoubleColon address = none := cutDoubleColon_eq_none haddress
  have hcount : groupCount? true address ≠ some 8 := groupCount?_ne_eight haddress
  rw [hdouble] at h
  simp [hcount] at h

/-- A host as it stands in an authority: an IPv6 address is put into brackets. -/
def bracketed (host : List Char) : List Char :=
  if host.contains ':' then '[' :: host ++ [']'] else host

theorem bracketed_of_isIPv6 (h : isIPv6 sent = true) : bracketed sent = '[' :: (sent ++ [']']) :=
  if_pos (List.contains_iff_mem.2 (colon_mem_of_isIPv6 h))

theorem bracketed_of_isNameChar (h : ∀ c ∈ sent, IsNameChar c) : bracketed sent = sent :=
  if_neg fun hcolon => (h _ (List.contains_iff_mem.1 hcolon)).ne.1 rfl

theorem encodeHost_brackets (h : isIPv6 sent = true) :
    encodeHost ('[' :: (sent ++ [']'])) = .ok sent := by
  have hlooks : looksLikeIPv4 ('[' :: (sent ++ [']'])) = false := rfl
  have hdrop : (('[' :: (sent ++ [']'])).drop 1).dropLast = sent := by simp
  have hbrackets : (('[' :: (sent ++ [']'])).head? == some '[' &&
      ('[' :: (sent ++ [']'])).getLast? == some ']') = true := by
    rw [← List.cons_append, List.getLast?_concat]
    rfl
  rw [encodeHost, if_neg (by simp), hlooks, if_neg Bool.false_ne_true, if_pos hbrackets]
  show (if isIPv6 (('[' :: (sent ++ [']'])).drop 1).dropLast = true then _ else _) = _
  rw [hdrop, if_pos h]

/-- A host can be read again in the form in which it is sent, unless escaping makes it look like an
IPv4 address. -/
theorem succeeds_encodeHost_bracketed (h : encodeHost host = .ok sent) :
    Succeeds (encodeHost (bracketed sent)) ↔
      (looksLikeIPv4 sent = true → isIPv4 sent = true ∨ isIPv6 sent = true) := by
  rcases of_encodeHost h with ⟨-, rfl⟩ | ⟨hsix, -⟩ | hchars
  · exact iff_of_true ⟨[], rfl⟩ nofun
  · rw [bracketed_of_isIPv6 hsix, encodeHost_brackets hsix]
    exact iff_of_true ⟨sent, rfl⟩ fun _ => .inr hsix
  · have hsix : isIPv6 sent ≠ true := fun hsix => (hchars _ (colon_mem_of_isIPv6 hsix)).ne.1 rfl
    rw [bracketed_of_isNameChar hchars, encodeHost]
    split
    · next hempty =>
      obtain rfl := List.isEmpty_iff.1 hempty
      exact iff_of_true ⟨[], rfl⟩ nofun
    split
    · next hlooks =>
      split
      · next hfour => exact iff_of_true ⟨sent, rfl⟩ fun _ => .inl hfour
      · next hfour =>
        exact iff_of_false (not_succeeds_error _) fun hall => (hall hlooks).elim hfour hsix
    next hlooks =>
    refine iff_of_true ?_ fun hall => absurd hall hlooks
    split
    · next hbrackets =>
      simp only [Bool.and_eq_true, beq_iff_eq] at hbrackets
      exact absurd rfl (hchars _ (List.mem_of_mem_head? hbrackets.1)).ne.2.1
    · rw [if_pos (List.all_eq_true.2 fun c hc => decide_eq_true (hchars c hc).toNat_lt)]
      exact ⟨_, rfl⟩

/-! ### Authorities -/

/-- A port as it stands in an authority. -/
def portText (port : Option Int) : List Char :=
  match port with
  | some n => (toString n).toList
  | none => []

theorem succeeds_readPort_portText (scheme : List Char) (port : Option Int) :
    Succeeds (readPort scheme (portText port)) := by
  cases port with
  | none => exact ⟨none, rfl⟩
  | some n =>
    unfold readPort
    split
    · exact ⟨none, rfl⟩
    · rw [portText, Decimal.integer?_toString]
      exact ⟨_, rfl⟩

/-- A user has an at sign behind it, so the host has none. -/
theorem at_notMem_cutAuthority (cs : List Char) : '@' ∉ (cutAuthority cs).2.1 := by
  have hrest : '@' ∉ (cs.reverse.takeWhile (· != '@')).reverse := by
    intro hmem
    have hne := List.all_eq_true.1 List.all_takeWhile _ (List.mem_reverse.1 hmem)
    exact absurd hne (by decide)
  unfold cutAuthority
  dsimp only
  generalize (cs.reverse.takeWhile (· != '@')).reverse = rest at hrest
  split
  · intro hmem
    exact hrest (List.mem_reverse.1 ((List.dropWhile_sublist _).mem (List.mem_reverse.1 hmem)))
  · exact fun hmem => hrest ((List.takeWhile_sublist _).mem hmem)

/-- The host and the port behind a user are those of the authority. -/
theorem cutAuthority_at (user : List Char) {location : List Char} (h : '@' ∉ location) :
    (cutAuthority (user ++ '@' :: location)).2 = (cutAuthority location).2 := by
  have hall : ∀ c ∈ location.reverse, (c != '@') = true := by
    intro c hc
    simp only [bne_iff_ne, ne_eq]
    rintro rfl
    exact h (List.mem_reverse.1 hc)
  have hone : location.reverse.takeWhile (· != '@') = location.reverse :=
    List.takeWhile_eq_self_iff.2 hall
  have htwo : (user ++ '@' :: location).reverse.takeWhile (· != '@') = location.reverse := by
    rw [List.reverse_append, List.reverse_cons, List.append_assoc,
      List.takeWhile_append_of_pos hall]
    simp
  simp only [cutAuthority, hone, htwo]

/-- The end of an authority that gives the port. -/
def portEnding (port : Option Int) : List Char :=
  match port with
  | some n => ':' :: (toString n).toList
  | none => []

theorem location_eq (u : Url) : u.location = bracketed u.host ++ portEnding u.port := by
  unfold location bracketed portEnding
  cases u.port with
  | none => exact (List.append_nil _).symm
  | some n => rfl

/-- A port is written with digits. -/
theorem notMem_portEnding {port : Option Int} (hc : c ≠ ':' ∧ c ≠ '-' ∧ c.isDigit = false) :
    c ∉ portEnding port := by
  intro hmem
  cases port with
  | none => cases hmem
  | some n =>
    rcases List.mem_cons.1 hmem with rfl | hmem
    · exact hc.1 rfl
    · rw [Json.toList_toString] at hmem
      rcases List.mem_append.1 hmem with hmem | hmem
      · split at hmem
        · exact hc.2.1 (List.mem_singleton.1 hmem)
        · cases hmem
      · have hdigit := Nat.isDigit_of_mem_toDigits (by decide) (by decide) hmem
        rw [hc.2.2] at hdigit
        cases hdigit

theorem at_notMem_location (h : '@' ∉ u.host) : '@' ∉ u.location := by
  rw [location_eq, List.mem_append, not_or]
  refine ⟨?_, notMem_portEnding (by decide)⟩
  unfold bracketed
  split
  · simpa using h
  · exact h

theorem takeWhile_location (hat : '@' ∉ u.host) :
    (u.location.reverse.takeWhile (· != '@')).reverse = u.location := by
  rw [List.takeWhile_eq_self_iff.2, List.reverse_reverse]
  intro c hc
  simp only [bne_iff_ne, ne_eq]
  rintro rfl
  exact at_notMem_location hat (List.mem_reverse.1 hc)

/-- A host with brackets reaches to the last closing one. -/
theorem cutAuthority_location_of_isIPv6 (hat : '@' ∉ u.host) (hsix : isIPv6 u.host = true) :
    (cutAuthority u.location).2 = (bracketed u.host, portText u.port) := by
  have hending : ∀ c ∈ (portEnding u.port).reverse, (c != ']') = true := by
    intro c hc
    simp only [bne_iff_ne, ne_eq]
    rintro rfl
    exact notMem_portEnding (by decide) (List.mem_reverse.1 hc)
  have hbracket : ((('[' :: (u.host ++ [']'])) ++ portEnding u.port).reverse.dropWhile
      (· != ']')).reverse = '[' :: (u.host ++ [']']) := by
    rw [List.reverse_append, List.dropWhile_append_of_pos hending]
    simp
  have hcut : (if u.location.head? == some '[' &&
        !((u.location.reverse.dropWhile (· != ']')).reverse).isEmpty then
      (u.location.reverse.dropWhile (· != ']')).reverse
      else u.location.takeWhile (· != ':')) = bracketed u.host := by
    rw [location_eq, bracketed_of_isIPv6 hsix, hbracket]
    exact if_pos rfl
  unfold cutAuthority
  dsimp only
  rw [takeWhile_location hat, hcut, location_eq, List.drop_left]
  cases u.port <;> rfl

/-- A host without brackets reaches to the first colon. -/
theorem cutAuthority_location_of_isNameChar (hat : '@' ∉ u.host)
    (hchars : ∀ c ∈ u.host, IsNameChar c) :
    (cutAuthority u.location).2 = (bracketed u.host, portText u.port) := by
  have hhead : u.location.head? ≠ some '[' := by
    intro hhead
    rw [location_eq, bracketed_of_isNameChar hchars] at hhead
    rcases List.mem_append.1 (List.mem_of_mem_head? hhead) with hc | hc
    · exact (hchars _ hc).ne.2.1 rfl
    · exact notMem_portEnding (by decide) hc
  have hname : ∀ c ∈ u.host, (c != ':') = true :=
    fun c hc => bne_iff_ne.2 (hchars c hc).ne.1
  have hcut : u.location.takeWhile (· != ':') = bracketed u.host := by
    rw [location_eq, bracketed_of_isNameChar hchars, List.takeWhile_append_of_pos hname]
    cases u.port with
    | none => exact List.append_nil _
    | some n => exact List.append_nil _
  unfold cutAuthority
  dsimp only
  rw [takeWhile_location hat, if_neg (by simp [hhead]), hcut, location_eq, List.drop_left]
  cases u.port <;> rfl

/-- The host and the port of an address stand in its location. -/
theorem cutAuthority_location (hat : '@' ∉ u.host)
    (hhost : isIPv6 u.host = true ∨ ∀ c ∈ u.host, IsNameChar c) :
    (cutAuthority u.location).2 = (bracketed u.host, portText u.port) :=
  hhost.elim (cutAuthority_location_of_isIPv6 hat) (cutAuthority_location_of_isNameChar hat)

/-- The host and the port of an address that was read stand in its authority. -/
theorem cutAuthority_authority (h : u.IsMadeOf raw) :
    (cutAuthority u.authority).2 = (bracketed u.host, portText u.port) := by
  have hsource := at_notMem_cutAuthority raw.authority
  have hat : '@' ∉ u.host := by
    rcases of_encodeHost h.host with ⟨-, hnil⟩ | ⟨-, heq⟩ | hchars
    · rw [hnil]
      exact List.not_mem_nil
    · intro hmem
      rw [heq] at hsource
      exact hsource (by simp [hmem])
    · exact fun hmem => (hchars _ hmem).ne.2.2 rfl
  have hhost : isIPv6 u.host = true ∨ ∀ c ∈ u.host, IsNameChar c := by
    rcases of_encodeHost h.host with ⟨-, hnil⟩ | ⟨hsix, -⟩ | hchars
    · rw [hnil]
      exact .inr (List.forall_mem_nil _)
    · exact .inl hsix
    · exact .inr hchars
  rw [authority]
  split
  · exact cutAuthority_location hat hhost
  · rw [cutAuthority_at _ (at_notMem_location hat)]
    exact cutAuthority_location hat hhost

/-! ### Addresses -/

/-- The parts make an address if its host and its port can be read, as long as its path begins at the
root. -/
theorem succeeds_ofRaw_iff (hrooted : IsRooted raw.path)
    (hpath : raw.scheme ≠ [] ∨ raw.path.take 2 ≠ ['/', '/']) :
    Succeeds (ofRaw raw) ↔ Succeeds (encodeHost (cutAuthority raw.authority).2.1) ∧
      Succeeds (readPort raw.scheme (cutAuthority raw.authority).2.2) := by
  unfold ofRaw
  rcases cutAuthority raw.authority with ⟨user, host, port⟩
  dsimp only
  refine succeeds_bind_iff_and fun sentHost => succeeds_bind_iff_left fun sentPort => ?_
  have hbare : raw.path = [] ∨ raw.path.head? = some '/' := by
    cases hcs : raw.path with
    | nil => exact .inl rfl
    | cons c cs =>
      rw [hcs] at hrooted
      exact .inr (congrArg some (hrooted c rfl))
  have hcolon : raw.path.head? ≠ some ':' := by
    rcases hbare with h | h <;> rw [h] <;> exact nofun
  split
  · next hbad =>
    rcases hbare with h | h <;> simp [h] at hbad
  split
  · next hrelative =>
    simp only [Bool.and_eq_true, Bool.not_not, List.isEmpty_iff] at hrelative
    have hdouble : raw.path.take 2 ≠ ['/', '/'] := hpath.resolve_left fun h => h hrelative.1
    rw [if_neg (by simpa using hdouble), if_neg (by simpa using hcolon)]
    exact succeeds_pure _
  · exact succeeds_pure _

/-- A path on the server is read as an address without a host. -/
theorem ofRaw_bare {path : List Char} (h : path.head? ≠ some '/') (query : Option (List Char)) :
    ofRaw ⟨[], [], '/' :: path, query, none⟩ = .ok ⟨[], [], [], none,
      Percent.encodeOnce isPathChar ('/' :: path), query.map (Percent.encodeOnce isQueryChar),
      none⟩ := by
  have hdouble : (('/' :: path).take 2 == ['/', '/']) = false := by
    cases path with
    | nil => rfl
    | cons c cs => simpa using h
  show (if (('/' :: path).take 2 == ['/', '/']) = true then _ else _) = _
  rw [hdouble]
  rfl

/-- An address is put on the server unless it has a scheme and a host. -/
theorem onServer_eq (u : Url) : ∃ path : List Char, path.head? ≠ some '/' ∧
    u.onServer = if u.isAbsolute then .ok u else .ok ⟨[], [], [], none,
      Percent.encodeOnce isPathChar ('/' :: path), u.query.map (Percent.encodeOnce isQueryChar),
      none⟩ := by
  have hhead : (u.path.dropWhile (· == '/')).head? ≠ some '/' := by
    intro h
    have hnot := List.head?_dropWhile_not (· == '/') u.path
    rw [h] at hnot
    exact absurd hnot (by decide)
  exact ⟨_, hhead, by rw [onServer, ofRaw_bare hhead]⟩

theorem encodeOnce_slash (path : List Char) :
    Percent.encodeOnce isPathChar ('/' :: path) = '/' :: Percent.encode isPathChar path := by
  rw [Percent.encodeOnce_eq_encode (by decide), Percent.encode_cons, encode_slash]
  rfl

theorem isRooted_encodeOnce_slash (path : List Char) :
    IsRooted (Percent.encodeOnce isPathChar ('/' :: path)) := by
  rw [encodeOnce_slash]
  rintro c ⟨⟩
  rfl

/-- Encoding brings in no second slash. -/
theorem take_encodeOnce_slash {path : List Char} (h : path.head? ≠ some '/') :
    (Percent.encodeOnce isPathChar ('/' :: path)).take 2 ≠ ['/', '/'] := by
  rw [encodeOnce_slash]
  intro htake
  cases hcs : Percent.encode isPathChar path with
  | nil => rw [hcs] at htake; cases htake
  | cons c cs =>
    rw [hcs] at htake
    obtain rfl : c = '/' := by simpa using htake
    have hrooted : IsRooted path := isRooted_encode_iff.1 (by rw [hcs]; rintro d ⟨⟩; rfl)
    cases path with
    | nil => cases hcs
    | cons d path => exact h (congrArg some (hrooted d rfl))

theorem lowerChars_ne_nil (h : cs ≠ []) : Text.lowerChars cs ≠ [] := by
  cases cs with
  | nil => exact absurd rfl h
  | cons c cs =>
    have hfirst :
        (if c = Text.capitalSigma then [Text.lowerSigma [] cs] else Text.lowerChar c) ≠ [] := by
      unfold Text.lowerChar
      split_ifs
      · exact List.cons_ne_nil _ _
      · exact List.cons_ne_nil _ _
      · exact List.cons_ne_nil _ _
      · split <;> exact List.cons_ne_nil _ _
    rw [Text.lowerChars, Text.lowerAfter]
    exact List.append_ne_nil_of_left_ne_nil hfirst _

/-- There is no control character. -/
theorem control?_eq_none_iff :
    control? cs = none ↔ ∀ c ∈ cs, 0x20 ≤ c.toNat ∧ c.toNat ≠ 0x7F := by
  rw [control?, List.find?_eq_none]
  constructor
  · intro h c hc
    obtain ⟨i, hi⟩ := List.mem_iff_getElem?.1 hc
    have hnot := h (c, i) (List.mk_mem_zipIdx_iff_getElem?.2 hi)
    simp only [Bool.or_eq_true, decide_eq_true_eq, beq_iff_eq] at hnot
    omega
  · rintro h ⟨c, i⟩ hc
    have hc := h c (List.mem_of_getElem? (List.mk_mem_zipIdx_iff_getElem?.1 hc))
    simp only [Bool.or_eq_true, decide_eq_true_eq, beq_iff_eq]
    omega

/-- A text is too long, or has control characters, or its parts are read. -/
theorem succeeds_ofText_iff {s : String} :
    Succeeds (ofText s) ↔ s.toList.length ≤ maxLength ∧
      (∀ c ∈ s.toList, 0x20 ≤ c.toNat ∧ c.toNat ≠ 0x7F) ∧ Succeeds (ofRaw (Raw.ofText s.toList)) := by
  rw [← control?_eq_none_iff, ofText]
  split
  · next hlong => exact iff_of_false (not_succeeds_error _) fun h => absurd h.1 (Nat.not_le.2 hlong)
  next hshort =>
  cases hcontrol : control? s.toList with
  | some c => exact iff_of_false (not_succeeds_error _) fun h => nomatch h.2.1
  | none =>
    dsimp only
    constructor
    · exact fun h => ⟨Nat.not_lt.1 hshort, rfl, h⟩
    · exact fun h => h.2.2

/-- Query pairs can be put into an address that was read from a text with a scheme, if their text is
not too long and the host can be read in the form in which it is sent. -/
theorem succeeds_withQuery_iff (h : ofRaw raw = .ok u) (hscheme : raw.scheme ≠ [])
    (hrooted : IsRooted raw.path) (pairs : List (String × String)) :
    Succeeds (u.onServer >>= fun address => address.withQuery pairs) ↔
      (queryText pairs).length ≤ maxLength ∧
        (looksLikeIPv4 u.host = true → isIPv4 u.host = true ∨ isIPv6 u.host = true) := by
  have hmade := isMadeOf_of_ofRaw h
  have hlength (address : Url) {p : Prop}
      (hread : ∀ query, Succeeds (ofRaw { address.raw with query }) ↔ p) :
      Succeeds (address.withQuery pairs) ↔ (queryText pairs).length ≤ maxLength ∧ p := by
    rw [withQuery]
    dsimp only
    split
    · next hlong => exact iff_of_false (not_succeeds_error _) fun h => absurd h.1 (Nat.not_le.2 hlong)
    · next hshort => rw [hread, and_iff_right (Nat.not_lt.1 hshort)]
  obtain ⟨path, hpath, hserver⟩ := u.onServer_eq
  have hname : u.scheme ≠ [] := by
    rw [hmade.scheme]
    exact lowerChars_ne_nil hscheme
  rw [hserver]
  split
  · refine hlength u fun query => ?_
    rw [succeeds_ofRaw_iff (hmade.isRooted hrooted) (.inl hname)]
    show Succeeds (encodeHost (cutAuthority u.authority).2.1) ∧
      Succeeds (readPort u.scheme (cutAuthority u.authority).2.2) ↔ _
    rw [cutAuthority_authority hmade, and_iff_left (succeeds_readPort_portText _ _),
      succeeds_encodeHost_bracketed hmade.host]
  · next hrelative =>
    have hnil : u.host = [] := by
      simp only [isAbsolute, Bool.and_eq_true, Bool.not_eq_true', List.isEmpty_eq_false_iff,
        not_and, not_not] at hrelative
      exact hrelative hname
    rw [hnil]
    refine hlength _ fun query => ?_
    rw [succeeds_ofRaw_iff (isRooted_encodeOnce_slash path) (.inr (take_encodeOnce_slash hpath))]
    exact iff_of_true ⟨⟨[], rfl⟩, ⟨none, rfl⟩⟩ fun hlooks => absurd hlooks (by decide)

/-! ### Texts with a scheme and two slashes -/

/-- A character that may stand in an authority. -/
def isAuthorityChar (c : Char) : Bool := c != '/' && c != '?' && c != '#'

/-- An authority ends at a slash. -/
theorem takeWhile_append_slash (cs more : List Char) :
    (cs ++ '/' :: more).takeWhile isAuthorityChar = cs.takeWhile isAuthorityChar := by
  induction cs with
  | nil => exact List.takeWhile_cons_of_neg (by decide)
  | cons c cs ih => rw [List.cons_append, List.takeWhile_cons, List.takeWhile_cons, ih]

theorem cutOff_fst (mark : Char) (cs : List Char) :
    (cutOff mark cs).1 = cs.takeWhile (· != mark) := by
  induction cs with
  | nil => rfl
  | cons c cs ih =>
    unfold cutOff at ih ⊢
    rw [Text.cutAt?]
    by_cases hc : c = mark
    · rw [if_pos hc, List.takeWhile_cons_of_neg (by simp [hc])]
    · rw [if_neg hc, List.takeWhile_cons_of_pos (by simp [hc]), ← ih]
      cases Text.cutAt? mark cs <;> rfl

/-- The authority of such a text, and where its path begins. -/
theorem Raw.ofText_slashes {name : List Char} (h : IsSchemeName name) (rest : List Char) :
    (Raw.ofText (name ++ ':' :: '/' :: '/' :: rest)).scheme = name ∧
      (Raw.ofText (name ++ ':' :: '/' :: '/' :: rest)).authority = rest.takeWhile isAuthorityChar ∧
      IsRooted (Raw.ofText (name ++ ':' :: '/' :: '/' :: rest)).path := by
  have hname : ∀ c ∈ name, (c != '#') = true := by
    intro c hc
    simp only [bne_iff_ne, ne_eq]
    rintro rfl
    exact absurd (h.chars _ hc) (by decide)
  -- The fragment is cut off first, then the scheme.
  have hcut : (cutOff '#' (name ++ ':' :: '/' :: '/' :: rest)).1 =
      name ++ ':' :: '/' :: '/' :: rest.takeWhile (· != '#') := by
    rw [cutOff_fst, List.takeWhile_append_of_pos hname, List.takeWhile_cons_of_pos (by decide),
      List.takeWhile_cons_of_pos (by decide), List.takeWhile_cons_of_pos (by decide)]
  have hauthority : (rest.takeWhile (· != '#')).takeWhile (fun c => c != '/' && c != '?') =
      rest.takeWhile isAuthorityChar := by
    rw [List.takeWhile_takeWhile]
    refine Text.takeWhile_congr fun c _ => ?_
    simp only [isAuthorityChar]
    grind
  unfold Raw.ofText
  dsimp only
  rw [hcut, cutScheme_append h]
  refine ⟨rfl, hauthority, ?_⟩
  generalize rest.takeWhile (· != '#') = more
  show IsRooted (cutOff '?' (more.drop (more.takeWhile fun c => c != '/' && c != '?').length)).1
  rw [Text.drop_length_takeWhile, cutOff_fst]
  intro c hc
  rw [List.head?_takeWhile, Option.mem_def, Option.filter_eq_some_iff] at hc
  obtain ⟨hhead, hquestion⟩ := hc
  have hstop := List.head?_dropWhile_not (fun c => c != '/' && c != '?') more
  rw [hhead] at hstop
  simpa [hquestion] using hstop

/-- An absolute address is read from such a text. -/
theorem exists_slashes {s : String} (h : ofText s = .ok u) (habsolute : u.isAbsolute = true) :
    ∃ name rest, IsSchemeName name ∧ s.toList = name ++ ':' :: '/' :: '/' :: rest := by
  have hmade := isMadeOf_of_ofRaw (ofText_eq_ok h)
  obtain ⟨hscheme, hauthority⟩ := hmade.ne_nil habsolute
  have hsplit : s.toList.takeWhile (· != '#') ++ s.toList.dropWhile (· != '#') = s.toList :=
    List.takeWhile_append_dropWhile
  rw [← cutOff_fst] at hsplit
  unfold Raw.ofText at hscheme hauthority
  dsimp only at hscheme hauthority
  generalize (cutOff '#' s.toList).1 = text at hscheme hauthority hsplit
  rcases hcut : cutScheme text with ⟨name, rest⟩
  rw [hcut] at hscheme hauthority
  dsimp only at hscheme hauthority
  split at hauthority
  · next _ more =>
    obtain ⟨hname, htext⟩ := of_cutScheme hcut hscheme
    refine ⟨name, more ++ s.toList.dropWhile (· != '#'), hname, hsplit.symm.trans ?_⟩
    rw [htext]
    simp
  · exact absurd rfl hauthority

/-! ### Authorities that can be sent -/

/-- The host and the port of an authority can be read, and the host can be read again in the form in
which it is sent. -/
structure IsAuthority (authority : List Char) : Prop where
  host : ∃ sent, encodeHost (cutAuthority authority).2.1 = .ok sent ∧
    (looksLikeIPv4 sent = true → isIPv4 sent = true ∨ isIPv6 sent = true)
  port : (cutAuthority authority).2.2 = [] ∨
    ∃ n, Decimal.integer? 10 (cutAuthority authority).2.2 = some n

theorem succeeds_readPort_iff {scheme port : List Char} :
    Succeeds (readPort scheme port) ↔ port = [] ∨ ∃ n, Decimal.integer? 10 port = some n := by
  unfold readPort
  split
  · next hempty => exact iff_of_true ⟨none, rfl⟩ (.inl (List.isEmpty_iff.1 hempty))
  next hfull =>
  rw [or_iff_right fun h => hfull (List.isEmpty_iff.2 h)]
  cases hn : Decimal.integer? 10 port with
  | none => exact iff_of_false (not_succeeds_error _) nofun
  | some n => exact iff_of_true ⟨_, rfl⟩ ⟨n, rfl⟩

/-- A text with a scheme and two slashes is an address to which a request with query pairs can be sent,
if neither the text nor the query is too long, there are no control characters, and its authority can
be sent. -/
theorem succeeds_address_iff {s : String} {name rest : List Char} (hname : IsSchemeName name)
    (hs : s.toList = name ++ ':' :: '/' :: '/' :: rest) (pairs : List (String × String)) :
    Succeeds ((ofText s).bind onServer >>= fun address => address.withQuery pairs) ↔
      s.toList.length ≤ maxLength ∧ (∀ c ∈ s.toList, 0x20 ≤ c.toNat ∧ c.toNat ≠ 0x7F) ∧
        IsAuthority (rest.takeWhile isAuthorityChar) ∧ (queryText pairs).length ≤ maxLength := by
  obtain ⟨hscheme, hauthority, hrooted⟩ := Raw.ofText_slashes hname rest
  rw [← hs] at hscheme hauthority hrooted
  have hne : (Raw.ofText s.toList).scheme ≠ [] := by
    rw [hscheme]
    rintro rfl
    exact absurd hname.head Bool.false_ne_true
  have hraw := succeeds_ofRaw_iff hrooted (.inl hne)
  rw [hauthority, succeeds_readPort_iff] at hraw
  constructor
  · rintro ⟨url, hurl⟩
    obtain ⟨address, haddress, hurl⟩ := bind_eq_ok_iff.1 hurl
    obtain ⟨u, hu, hserver⟩ := bind_eq_ok_iff.1 haddress
    obtain ⟨hlength, hprintable, hparts⟩ := succeeds_ofText_iff.1 ⟨u, hu⟩
    have hread := ofText_eq_ok hu
    obtain ⟨hquery, hagain⟩ := (succeeds_withQuery_iff hread hne hrooted pairs).1
      ⟨url, bind_eq_ok_iff.2 ⟨address, hserver, hurl⟩⟩
    have hhost := (isMadeOf_of_ofRaw hread).host
    rw [hauthority] at hhost
    exact ⟨hlength, hprintable, ⟨⟨u.host, hhost, hagain⟩, (hraw.1 hparts).2⟩, hquery⟩
  · rintro ⟨hlength, hprintable, ⟨⟨sent, hsent, hagain⟩, hport⟩, hquery⟩
    obtain ⟨u, hread⟩ := hraw.2 ⟨⟨sent, hsent⟩, hport⟩
    have hhost := (isMadeOf_of_ofRaw hread).host
    rw [hauthority, hsent] at hhost
    rw [Except.ok.inj hhost] at hagain
    obtain ⟨u', hu⟩ := succeeds_ofText_iff.2 ⟨hlength, hprintable, u, hread⟩
    obtain rfl : u' = u := Except.ok.inj ((ofText_eq_ok hu).symm.trans hread)
    obtain ⟨url, hurl⟩ := (succeeds_withQuery_iff hread hne hrooted pairs).2 ⟨hquery, hagain⟩
    obtain ⟨address, hserver, hurl⟩ := bind_eq_ok_iff.1 hurl
    exact ⟨url, bind_eq_ok_iff.2 ⟨address, bind_eq_ok_iff.2 ⟨u', hu, hserver⟩, hurl⟩⟩

end Url

end ApiShell.Http
