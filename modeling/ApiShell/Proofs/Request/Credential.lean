import ApiShell.Proofs.Encoding.Base64
import ApiShell.Proofs.Request.Expansion
import ApiShell.Proofs.Request.Masking
import ApiShell.Proofs.Text.Blank

/-!
# The header that carries a credential

A credential is expanded, once, and trimmed; what comes of it goes into one header, as it is or in base
64, and an empty one goes nowhere (`resolveAuth_carries`).

The way in which it is sent is decided on the trimmed text.  A credential with a scheme in front,
`Bearer` or `Basic`, therefore keeps its scheme as long as something follows it.  When its variables
expand to nothing, trimming takes away the space that marks the scheme, and the bare name of the scheme
is sent as a key (`resolveAuth_of_scheme`).
-/

namespace ApiShell.Request

/-! ### What is sent -/

/-- The names of the schemes that a credential may have in front. -/
def schemes : List String := ["Bearer", "Basic"]

/-- The text has a scheme in front. -/
def IsSchemed (v : String) : Prop := ∃ scheme ∈ schemes, ∃ token, v = scheme ++ " " ++ token

/-- The header that carries an expanded and trimmed credential. -/
inductive Carries (keyHeader v : String) : Option (String × String) → Prop
  | nothing (hempty : v = "") : Carries keyHeader v none
  | verbatim (hschemed : IsSchemed v) : Carries keyHeader v (some ("Authorization", v))
  | password {token : String} (hschemed : ¬ IsSchemed v) (hcolon : ':' ∈ v.toList)
      (hchars : ∀ c ∈ token.toList, c ∈ Base64.alphabet ∨ c = '=')
      (htoken : Base64.decode? token.toList = some (Text.utf8 v.toList)) :
      Carries keyHeader v (some ("Authorization", "Basic " ++ token))
  | key (hne : v ≠ "") (hschemed : ¬ IsSchemed v) (hcolon : ':' ∉ v.toList) :
      Carries keyHeader v (some (keyHeader, v))

theorem startsWith_iff {s start : String} :
    Text.startsWith s start = true ↔ ∃ rest, s = start ++ rest := by
  rw [Text.startsWith, Option.isSome_iff_exists]
  constructor
  · rintro ⟨rest, hrest⟩
    refine ⟨String.ofList rest, String.ext ?_⟩
    rw [String.toList_append, String.toList_ofList]
    exact Text.dropStart?_eq_some_iff.1 hrest
  · rintro ⟨rest, rfl⟩
    exact ⟨rest.toList, Text.dropStart?_eq_some_iff.2 String.toList_append⟩

theorem isSchemed_iff {v : String} :
    (Text.startsWith v "Bearer " || Text.startsWith v "Basic ") = true ↔ IsSchemed v := by
  simp only [Bool.or_eq_true, startsWith_iff, IsSchemed, schemes, List.mem_cons, List.not_mem_nil,
    or_false, exists_eq_or_imp, exists_eq_left]
  rfl

/-- A text is sent in one header, unless there is none. -/
theorem carries_credentialHeader? (keyHeader credential : String) :
    Carries keyHeader (Text.trim credential) (credentialHeader? keyHeader credential) := by
  unfold credentialHeader?
  dsimp only
  split
  · next hempty => exact .nothing hempty
  next hne =>
  split
  · next hschemed => exact .verbatim (isSchemed_iff.1 hschemed)
  next hschemed =>
  split
  · next hcolon =>
    have htoken := String.toList_ofList (l := Base64.encode (Text.utf8 (Text.trim credential).toList))
    refine .password (mt isSchemed_iff.2 hschemed) (by simpa using hcolon)
      (fun c hc => Base64.mem_encode (htoken ▸ hc)) ?_
    show Base64.decode? (String.ofList _).toList = _
    rw [htoken, Base64.decode?_encode]
  · next hcolon => exact .key hne (mt isSchemed_iff.2 hschemed) (by simpa using hcolon)

theorem expand_eq_of_text_eq {auth : String} {d : Division} (h : d.text = auth.toList) (host : Host) :
    expand host auth = String.ofList (d.expanded host.valueOf) := by
  rw [expand, ← h, d.expandWith_text]

/-- **What comes of a credential.**  A credential is divided at its references to variables, in the one
way in which it can be.  With the values of the variables in their places, and trimmed, it goes into the
one header that carries it.  Where the variables have the same values, the header is the same. -/
theorem resolveAuth_carries (auth keyHeader : String) :
    ∃ d : Division, d.text = auth.toList ∧
      (∀ other : Division, other.text = auth.toList → other = d) ∧
      ∀ host : Host,
        Carries keyHeader (Text.trim (String.ofList (d.expanded host.valueOf)))
          (resolveAuth host auth keyHeader) ∧
        ∀ other : Host, (∀ name ∈ d.names, other.valueOf name = host.valueOf name) →
          resolveAuth other auth keyHeader = resolveAuth host auth keyHeader := by
  obtain ⟨d, hd⟩ := Division.exists_text_eq auth.toList
  refine ⟨d, hd, fun other hother => Division.eq_of_text_eq (hother.trans hd.symm), fun host => ⟨?_, ?_⟩⟩
  · rw [← expand_eq_of_text_eq hd]
    exact carries_credentialHeader? keyHeader _
  · intro other hagree
    rw [resolveAuth, resolveAuth, expand_eq_of_text_eq hd, expand_eq_of_text_eq hd,
      Division.expanded_congr hagree]

/-! ### Credentials with a scheme in front -/

theorem isBlank_of_isNameChar {c : Char} (h : isNameChar c = true) : Text.isBlank c = false := by
  simp only [isNameChar, isNameStart, Bool.or_eq_true, beq_iff_eq] at h
  rcases h with (h | rfl) | h
  · exact Text.isBlank_of_isAlphanum (Bool.or_eq_true_iff.2 (.inl h))
  · decide
  · exact Text.isBlank_of_isAlphanum (Bool.or_eq_true_iff.2 (.inr h))

/-- A blank goes on with no reference and begins none. -/
theorem endsReferences_of_isBlank {cs : List Char} (h : ∀ c ∈ cs, Text.isBlank c = true) :
    EndsReferences cs := by
  intro c hc
  have hblank := h c (List.mem_of_mem_head? hc)
  refine ⟨?_, ?_, ?_⟩
  · by_contra hname
    rw [Bool.not_eq_false] at hname
    rw [isBlank_of_isNameChar hname] at hblank
    cases hblank
  · rintro rfl
    exact absurd hblank (by decide)
  · rintro rfl
    exact absurd hblank (by decide)

variable {scheme auth token : String}

/-- The name of a scheme is a word without marks. -/
theorem of_mem_schemes (h : scheme ∈ schemes) : scheme ≠ "" ∧
    ∀ c ∈ scheme.toList, c ≠ '$' ∧ c ≠ ':' ∧ Text.isBlank c = false := by
  have hword : scheme ≠ "" ∧ scheme.toList.all Char.isAlphanum := by
    simp only [schemes, List.mem_cons, List.not_mem_nil, or_false] at h
    rcases h with rfl | rfl <;> decide
  refine ⟨hword.1, fun c hc => ?_⟩
  have hc := List.all_eq_true.1 hword.2 c hc
  refine ⟨?_, ?_, Text.isBlank_of_isAlphanum hc⟩
  · rintro rfl
    exact absurd hc (by decide)
  · rintro rfl
    exact absurd hc (by decide)

/-- The bare name of a scheme has no scheme in front. -/
theorem not_isSchemed_of_mem_schemes (h : scheme ∈ schemes) : ¬ IsSchemed scheme := by
  rintro ⟨other, -, token, heq⟩
  have hspace : ' ' ∈ scheme.toList := by
    rw [heq]
    simp
  exact absurd ((of_mem_schemes h).2 _ hspace).2.2 (by decide)

/-- The bare name of a scheme is sent as a key. -/
theorem Carries.eq_of_mem_schemes {keyHeader : String} {header : Option (String × String)}
    (h : Carries keyHeader scheme header) (hscheme : scheme ∈ schemes) :
    header = some (keyHeader, scheme) := by
  cases h with
  | nothing hempty => exact absurd hempty (of_mem_schemes hscheme).1
  | verbatim hschemed => exact absurd hschemed (not_isSchemed_of_mem_schemes hscheme)
  | password _ hcolon => exact absurd rfl ((of_mem_schemes hscheme).2 _ hcolon).2.1
  | key => rfl

/-- A text that has a scheme in front is sent as it is. -/
theorem Carries.eq_of_isSchemed {keyHeader v : String} {header : Option (String × String)}
    (h : Carries keyHeader v header) (hschemed : IsSchemed v) : header = some ("Authorization", v) := by
  cases h with
  | nothing hempty =>
    obtain ⟨scheme, hscheme, rest, rfl⟩ := hschemed
    simp at hempty
  | verbatim => rfl
  | password hnot => exact absurd hschemed hnot
  | key _ hnot => exact absurd hschemed hnot

/-- What is expanded of a credential with a scheme in front is what follows the scheme.  If this comes
to nothing but blanks, trimming leaves the name of the scheme. -/
theorem trim_expand_of_scheme (hscheme : scheme ∈ schemes)
    (htrim : Text.trim auth = scheme ++ " " ++ token) (host : Host) :
    Text.trim (expand host auth) =
      if Text.trim (expand host token) = "" then scheme
      else scheme ++ " " ++ Text.trimRight (expand host token) := by
  obtain ⟨hne, hchars⟩ := of_mem_schemes hscheme
  obtain ⟨before, after, hauth, hbefore, hafter⟩ :=
    Text.exists_eq_append_trimOf Text.isBlank auth.toList
  have hmiddle : Text.trimOf Text.isBlank auth.toList = scheme.toList ++ ([' '] ++ token.toList) := by
    rw [← String.toList_ofList (l := Text.trimOf _ _), ← Text.trim, htrim]
    simp
  have hplain {cs : List Char} (hblank : ∀ c ∈ cs, Text.isBlank c = true) : '$' ∉ cs :=
    fun hdollar => absurd (hblank _ hdollar) (by decide)
  have hexpand : expandWith host.valueOf auth.toList = before ++
      (scheme.toList ++ ([' '] ++ expandWith host.valueOf token.toList) ++ after) := by
    rw [hauth, hmiddle, expandWith_append_of_notMem (hplain hbefore),
      expandWith_append (endsReferences_of_isBlank hafter), expandWith_of_notMem (hplain hafter),
      expandWith_append_of_notMem fun hdollar => (hchars _ hdollar).1 rfl,
      expandWith_append_of_notMem (by decide)]
  have htoken : (expand host token).toList = expandWith host.valueOf token.toList :=
    String.toList_ofList
  generalize expandWith host.valueOf token.toList = more at hexpand htoken
  have hleft : Text.trimLeftOf Text.isBlank (scheme.toList ++ ([' '] ++ more)) =
      scheme.toList ++ ([' '] ++ more) := by
    refine Text.trimLeftOf_eq_self fun c hc => (hchars c ?_).2.2
    rw [List.head?_append_of_ne_nil _ (by simpa using hne)] at hc
    exact List.mem_of_mem_head? hc
  rw [Text.trim, expand, String.toList_ofList, hexpand, Text.trimOf_append_append hbefore hafter,
    Text.trimOf, hleft]
  by_cases hblank : ∀ c ∈ more, Text.isBlank c = true
  · have hall : ∀ c ∈ [' '] ++ more, Text.isBlank c = true := List.forall_mem_cons.2 ⟨by decide, hblank⟩
    have hnothing : Text.trim (expand host token) = "" := Text.trim_eq_empty_iff.2 (htoken ▸ hblank)
    have hkept : Text.trimRightOf Text.isBlank scheme.toList = scheme.toList :=
      Text.trimRightOf_eq_self fun c hc => (hchars c (List.mem_of_mem_getLast? hc)).2.2
    rw [Text.trimRightOf_append_of_forall hall, hkept, if_pos hnothing, String.ofList_toList]
  · have hmore : ¬ ∀ c ∈ [' '] ++ more, Text.isBlank c = true :=
      fun hall => hblank (List.forall_mem_cons.1 hall).2
    have hsome : Text.trim (expand host token) ≠ "" :=
      fun hempty => hblank (htoken ▸ Text.trim_eq_empty_iff.1 hempty)
    rw [Text.trimRightOf_append_of_not_forall hmore, Text.trimRightOf_append_of_not_forall hblank,
      if_neg hsome, Text.trimRight, htoken]
    apply String.ext
    simp

/-- **Credentials with a scheme.**  A credential that has a scheme in front, when it is trimmed, is not
sent as a key exactly if what follows the scheme expands to more than blanks; then it is sent as it is.
Otherwise nothing is left of it but the name of the scheme, and this is sent as a key. -/
theorem resolveAuth_of_scheme {host : Host} {keyHeader : String} (hscheme : scheme ∈ schemes)
    (htrim : Text.trim auth = scheme ++ " " ++ token) (hkey : keyHeader ≠ "Authorization") :
    ((∀ value, resolveAuth host auth keyHeader ≠ some (keyHeader, value)) ↔
      Text.trim (expand host token) ≠ "") ∧
    resolveAuth host auth keyHeader =
      if Text.trim (expand host token) = "" then some (keyHeader, scheme)
      else some ("Authorization", scheme ++ " " ++ Text.trimRight (expand host token)) := by
  have hheader : resolveAuth host auth keyHeader =
      if Text.trim (expand host token) = "" then some (keyHeader, scheme)
      else some ("Authorization", scheme ++ " " ++ Text.trimRight (expand host token)) := by
    have hcarries := carries_credentialHeader? keyHeader (expand host auth)
    rw [trim_expand_of_scheme hscheme htrim host] at hcarries
    rw [resolveAuth]
    split at hcarries
    · next hblank =>
      rw [if_pos hblank]
      exact hcarries.eq_of_mem_schemes hscheme
    · next hmore =>
      rw [if_neg hmore]
      exact hcarries.eq_of_isSchemed ⟨scheme, hscheme, _, rfl⟩
  refine ⟨?_, hheader⟩
  rw [hheader]
  split
  · next hblank => exact iff_of_false (fun h => h scheme rfl) (fun h => h hblank)
  · next hmore =>
    refine iff_of_true (fun value h => hkey ?_) hmore
    exact (Prod.mk.inj (Option.some.inj h)).1.symm

/-- A process with a token in its environment. -/
def petHost : Host := { bareHost with environment := [("PET_TOKEN", " t k ")] }

/-- Blanks around the credential and at the end of its token are taken away, those within are kept. -/
theorem resolveAuth_of_scheme_pet :
    ("Bearer" ∈ schemes ∧ Text.trim " Bearer ${PET_TOKEN} " = "Bearer" ++ " " ++ "${PET_TOKEN}" ∧
      "X-API-Key" ≠ "Authorization") ∧
    (∀ value, resolveAuth petHost " Bearer ${PET_TOKEN} " "X-API-Key" ≠ some ("X-API-Key", value)) ∧
    resolveAuth petHost " Bearer ${PET_TOKEN} " "X-API-Key" =
      some ("Authorization", "Bearer  t k") := by
  have hscheme : "Bearer" ∈ schemes := by decide
  have htrim : Text.trim " Bearer ${PET_TOKEN} " = "Bearer" ++ " " ++ "${PET_TOKEN}" := by
    with_unfolding_all rfl
  have hkey : "X-API-Key" ≠ "Authorization" := by decide
  have htoken : expand petHost "${PET_TOKEN}" = " t k " := by with_unfolding_all rfl
  obtain ⟨hiff, hheader⟩ := @resolveAuth_of_scheme _ _ _ petHost _ hscheme htrim hkey
  rw [htoken] at hiff hheader
  have hmore : Text.trim " t k " ≠ "" := by decide
  rw [if_neg hmore] at hheader
  exact ⟨⟨hscheme, htrim, hkey⟩, hiff.2 hmore, hheader⟩

/-- Where the token is not set, the name of the scheme is sent as a key. -/
theorem not_forall_resolveAuth_ne_key :
    ¬ ∀ (host : Host) (auth scheme token keyHeader value : String), scheme ∈ schemes →
      Text.trim auth = scheme ++ " " ++ token → keyHeader ≠ "Authorization" →
      resolveAuth host auth keyHeader ≠ some (keyHeader, value) := by
  intro hall
  have htrim : Text.trim "Bearer $API_TOKEN" = "Bearer" ++ " " ++ "$API_TOKEN" := by
    with_unfolding_all rfl
  have hsent : resolveAuth bareHost "Bearer $API_TOKEN" "X-API-Key" = some ("X-API-Key", "Bearer") := by
    with_unfolding_all rfl
  exact hall bareHost _ "Bearer" _ "X-API-Key" "Bearer" (by decide) htrim (by decide) hsent

end ApiShell.Request
