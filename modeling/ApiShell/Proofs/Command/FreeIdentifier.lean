import ApiShell.Proofs.Command.Identifier
import Mathlib.Order.Bounds.Basic

/-!
# The first free identifier

An identifier that is taken gives way to another one.  The candidates are the identifier of the name
itself and then the same with the numbers from 2 on, and `Finds` is the search through them, without
any bound on its rounds.  It ends: finitely many words are taken, and no two candidates are the same
word (`candidate_injective`).  What it finds is the first candidate that is free (`finds_base_iff`).

`unique` bounds the search by the number of words that are taken.  `unique_minimal` says that it makes
what the unbounded search finds, and that identifiers made one after the other, each of them taken for
the names after it, differ from each other and from all that was taken before, also when a name looks
like the numbered candidate for another one.
-/

namespace ApiShell.Command

variable {base found : String} {taken : List String}

/-! ### The candidates -/

/-- The candidates in the order in which they are tried: the base, and the base with 2, 3 and so on. -/
def candidate (base : String) : Nat → String
  | 0 => base
  | i + 1 => numbered base (i + 2)

/-- A numbered candidate is longer than its base. -/
theorem numbered_ne_self (base : String) (n : Nat) : numbered base n ≠ base := by
  intro h
  have hlists := congrArg String.toList h
  rw [toList_numbered, List.append_right_eq_self] at hlists
  exact List.cons_ne_nil _ _ hlists

/-- No two candidates are the same word, so there are infinitely many. -/
theorem candidate_injective (base : String) : Function.Injective (candidate base) := by
  intro i j h
  cases i with
  | zero =>
    cases j with
    | zero => rfl
    | succ j => exact absurd h.symm (numbered_ne_self base (j + 2))
  | succ i =>
    cases j with
    | zero => exact absurd h (numbered_ne_self base (i + 2))
    | succ j =>
      have hnumbers : i + 2 = j + 2 := numbered_injective base h
      omega

/-- The first free candidate is the one that is free behind candidates that are all taken. -/
theorem isLeast_free_iff {i : Nat} :
    IsLeast {i | candidate base i ∉ taken} i ↔
      (∀ j < i, candidate base j ∈ taken) ∧ candidate base i ∉ taken := by
  constructor
  · rintro ⟨hfree, hleast⟩
    refine ⟨?_, hfree⟩
    intro j hj
    by_contra hmem
    exact absurd hj (Nat.not_lt.2 (hleast hmem))
  · rintro ⟨htaken, hfree⟩
    refine ⟨hfree, ?_⟩
    intro j hj
    by_contra hlt
    exact hj (htaken j (Nat.not_le.1 hlt))

/-! ### The search -/

/-- The search when it is at a candidate and the next one gets the number `n`: a candidate that is free
is found, and one that is taken gives way to the next.  It also says after how many rounds. -/
inductive Finds (base : String) (taken : List String) : String → Nat → Nat → String → Prop where
  | free {word : String} {n : Nat} (hfree : word ∉ taken) : Finds base taken word n 0 word
  | next {word found : String} {n rounds : Nat} (htaken : word ∈ taken)
      (hrest : Finds base taken (numbered base n) (n + 1) rounds found) :
      Finds base taken word n (rounds + 1) found

/-- No round is made exactly where the candidate is free. -/
theorem finds_zero_iff {word : String} {n : Nat} :
    Finds base taken word n 0 found ↔ word ∉ taken ∧ found = word := by
  constructor
  · rintro ⟨hfree⟩
    exact ⟨hfree, rfl⟩
  · rintro ⟨hfree, rfl⟩
    exact .free hfree

/-- A round goes on to the next candidate. -/
theorem finds_succ_iff {i rounds : Nat} :
    Finds base taken (candidate base i) (i + 2) (rounds + 1) found ↔
      candidate base i ∈ taken ∧
        Finds base taken (candidate base (i + 1)) (i + 1 + 2) rounds found := by
  constructor
  · intro h
    cases h with
    | next htaken hrest => exact ⟨htaken, hrest⟩
  · rintro ⟨htaken, hrest⟩
    exact .next htaken hrest

/-- A search passes the candidates that are taken and ends at one that is free. -/
theorem finds_candidate_iff {i rounds : Nat} :
    Finds base taken (candidate base i) (i + 2) rounds found ↔
      (∀ j < rounds, candidate base (i + j) ∈ taken) ∧
        candidate base (i + rounds) ∉ taken ∧ found = candidate base (i + rounds) := by
  -- A round moves the search on, so the induction is for all candidates that it can be at.
  induction rounds generalizing i with
  | zero =>
    have hnone : ∀ j < 0, candidate base (i + j) ∈ taken := by
      intro j hj
      exact absurd hj (Nat.not_lt_zero j)
    rw [finds_zero_iff, Nat.add_zero, and_iff_right hnone]
  | succ rounds ih =>
    have hshift (j : Nat) : i + 1 + j = i + (j + 1) := by omega
    rw [finds_succ_iff, ih, Nat.forall_lt_succ_left, and_assoc]
    simp only [hshift, Nat.add_zero]

/-- From the base the first free candidate is found, after as many rounds as there are candidates
before it. -/
theorem finds_base_iff {rounds : Nat} :
    Finds base taken base 2 rounds found ↔
      IsLeast {i | candidate base i ∉ taken} rounds ∧ found = candidate base rounds := by
  have hsearch : Finds base taken base 2 rounds found ↔ _ := finds_candidate_iff (i := 0)
  rw [hsearch, isLeast_free_iff, and_assoc]
  simp only [Nat.zero_add]

/-! ### The identifier that is made -/

/-- The identifier that is made for a name is the first free candidate. -/
theorem exists_unique_eq_candidate (name : String) (taken : List String) :
    ∃ i, IsLeast {i | candidate (sanitize name) i ∉ taken} i ∧
      unique name taken = candidate (sanitize name) i := by
  rcases unique_cases name taken with ⟨hfree, hname⟩ | ⟨m, hbase, hname, hm, hbefore, hfree⟩
  · refine ⟨0, isLeast_free_iff.2 ⟨?_, hfree⟩, hname⟩
    intro j hj
    exact absurd hj (Nat.not_lt_zero j)
  · obtain ⟨i, rfl⟩ : ∃ i, m = i + 2 := ⟨m - 2, by omega⟩
    refine ⟨i + 1, isLeast_free_iff.2 ⟨?_, hfree⟩, hname⟩
    intro j hj
    cases j with
    | zero => exact hbase
    | succ j => exact hbefore (j + 2) (by omega) (by omega)

/-- The search ends, with the identifier that is made, after no more rounds than words are taken. -/
theorem exists_finds_iff (name : String) (taken : List String) :
    ∃ rounds ≤ taken.toFinset.card, ∀ r found,
      Finds (sanitize name) taken (sanitize name) 2 r found ↔
        r = rounds ∧ found = unique name taken := by
  obtain ⟨i, hleast, hname⟩ := exists_unique_eq_candidate name taken
  have hcard : i ≤ taken.toFinset.card :=
    le_card_of_injective (candidate_injective _) (isLeast_free_iff.1 hleast).1
  refine ⟨i, hcard, ?_⟩
  intro r found
  rw [finds_base_iff, hname]
  constructor
  · rintro ⟨hr, hfound⟩
    obtain rfl := hr.unique hleast
    exact ⟨rfl, hfound⟩
  · rintro ⟨rfl, hfound⟩
    exact ⟨hleast, hfound⟩

/-! ### Identifiers one after the other -/

/-- Identifiers one after the other are made by taking each of them before the next name. -/
theorem foldl_unique (taken names : List String) :
    names.foldl (fun taken name => unique name taken :: taken) taken =
      (uniques taken names).reverse ++ taken := by
  induction names generalizing taken with
  | nil => rfl
  | cons name names ih =>
    rw [List.foldl_cons, ih, uniques, List.reverse_cons, List.append_assoc, List.singleton_append]

theorem length_uniques (taken names : List String) :
    (uniques taken names).length = names.length := by
  induction names generalizing taken with
  | nil => rfl
  | cons name names ih => rw [uniques, List.length_cons, List.length_cons, ih]

/-- Identifiers made one after the other are new.  For the ones made later the first one is among the
taken words, so they differ from it as well. -/
theorem uniques_new (taken names : List String) :
    (uniques taken names).Nodup ∧ ∀ identifier ∈ uniques taken names, identifier ∉ taken := by
  induction names generalizing taken with
  | nil =>
    refine ⟨List.nodup_nil, ?_⟩
    intro identifier hmem
    exact absurd hmem List.not_mem_nil
  | cons name names ih =>
    obtain ⟨hnodup, hnew⟩ := ih (unique name taken :: taken)
    rw [uniques]
    constructor
    · have hfirst : unique name taken ∉ uniques (unique name taken :: taken) names := by
        intro hmem
        exact hnew _ hmem List.mem_cons_self
      exact List.nodup_cons.2 ⟨hfirst, hnodup⟩
    · intro identifier hmem
      rcases List.mem_cons.1 hmem with rfl | hmem
      · exact unique_notMem name taken
      · intro htaken
        exact hnew identifier hmem (List.mem_cons_of_mem _ htaken)

/-- **An identifier that is made is the first free one.**  Whatever the name is and whatever words are
taken, the search for an identifier ends, in one way only and after no more rounds than words are taken,
and it finds the identifier that is made: the one of the name where that is free, else the one with the
least number from 2 on that makes it free.  Identifiers that are made one after the other, each of them
taken for the names after it, are as many as there are names, differ from each other and are none of the
words that were taken at first. -/
theorem unique_minimal :
    (∀ (name : String) (taken : List String),
      (∃ rounds ≤ taken.toFinset.card, ∀ r found,
        Finds (sanitize name) taken (sanitize name) 2 r found ↔
          r = rounds ∧ found = unique name taken) ∧
      ((sanitize name ∉ taken ∧ unique name taken = sanitize name) ∨
        (sanitize name ∈ taken ∧ ∃ k, unique name taken = numbered (sanitize name) k ∧
          IsLeast {k | 2 ≤ k ∧ numbered (sanitize name) k ∉ taken} k ∧
          ∀ j, 2 ≤ j → j < k → numbered (sanitize name) j ∈ taken))) ∧
    ∀ taken names : List String,
      names.foldl (fun taken name => unique name taken :: taken) taken =
        (uniques taken names).reverse ++ taken ∧
      (uniques taken names).length = names.length ∧
      (uniques taken names).Nodup ∧
      ∀ identifier ∈ uniques taken names, identifier ∉ taken := by
  constructor
  · intro name taken
    refine ⟨exists_finds_iff name taken, (unique_cases name taken).imp_right ?_⟩
    rintro ⟨k, hbase, hname, hk, hbefore, hfree⟩
    refine ⟨hbase, k, hname, ⟨⟨hk, hfree⟩, ?_⟩, hbefore⟩
    rintro j ⟨hj, hjfree⟩
    by_contra hlt
    exact hjfree (hbefore j hj (Nat.not_le.1 hlt))
  · intro taken names
    exact ⟨foldl_unique taken names, length_uniques taken names, uniques_new taken names⟩

/-- A name whose identifier is taken with the number 2 as well gets the number 3; and a name that looks
like a numbered candidate gets a number of its own when that candidate was made before. -/
theorem unique_minimal_petId :
    (sanitize "petId" ∈ ["pet_id", "pet_id_2"] ∧
      unique "petId" ["pet_id", "pet_id_2"] = numbered (sanitize "petId") 3 ∧
      (∃ rounds ≤ 2, Finds (sanitize "petId") ["pet_id", "pet_id_2"] (sanitize "petId") 2 rounds
        (unique "petId" ["pet_id", "pet_id_2"])) ∧
      IsLeast {k | 2 ≤ k ∧ numbered (sanitize "petId") k ∉ ["pet_id", "pet_id_2"]} 3) ∧
    uniques ["self"] ["id", "id", "id_2"] = ["id", "id_2", "id_2_2"] ∧
    "id_2_2" ∈ uniques ["self"] ["id", "id", "id_2"] ∧ "id_2_2" ∉ ["self"] := by
  obtain ⟨⟨rounds, hrounds, hfinds⟩, hcases⟩ :=
    unique_minimal.1 "petId" ["pet_id", "pet_id_2"]
  have htaken : sanitize "petId" ∈ ["pet_id", "pet_id_2"] := by decide
  obtain ⟨-, k, hname, hleast, -⟩ := hcases.resolve_left fun h => h.1 htaken
  have hthree : unique "petId" ["pet_id", "pet_id_2"] = numbered (sanitize "petId") 3 := by decide
  obtain rfl : k = 3 := numbered_injective _ (hname.symm.trans hthree)
  have huniques : uniques ["self"] ["id", "id", "id_2"] = ["id", "id_2", "id_2_2"] := by decide
  have hmem : "id_2_2" ∈ uniques ["self"] ["id", "id", "id_2"] := by
    rw [huniques]
    decide
  obtain ⟨-, -, -, hnew⟩ := unique_minimal.2 ["self"] ["id", "id", "id_2"]
  exact ⟨⟨htaken, hthree, ⟨rounds, hrounds, (hfinds _ _).2 ⟨rfl, rfl⟩⟩, hleast⟩, huniques, hmem,
    hnew _ hmem⟩

end ApiShell.Command
