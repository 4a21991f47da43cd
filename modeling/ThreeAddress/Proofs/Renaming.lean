import ThreeAddress.Proofs.Spellings

/-!
# Renaming the numbers of a function

The table of spellings is made in two passes: unnamed numbers get their spellings first, then each
named number, in order, takes the first free candidate of its name.  `Search` is the loop that looks
for this candidate, with a counter that is a word of 32 bits; it has no bound of its own.

A candidate is refused only because it is the spelling of another number, so a table of `n` names
refuses at most `n - 1` candidates of a name.  Hence every search ends, and for a table of fewer
than 2 to the 32nd names its counter does not wrap (`table_renames`).
-/

namespace ThreeAddress
namespace TempNames

section Definitions

/-- A search for a free candidate: the one at hand, and the count of the one after it. -/
structure Search where
  candidate : String
  counter : UInt32
deriving DecidableEq

namespace Search

/-- A search starts with the name itself. -/
def start (name : String) : Search := ⟨name, 1⟩

/-- The next candidate; the counter is a word, and what follows the last word is the first. -/
def next (name : String) (s : Search) : Search :=
  ⟨name ++ "." ++ s.counter.toNat.repr, s.counter + 1⟩

/-- A search goes through these states: it goes on while the candidate is used, and then ends. -/
inductive Visits (used : String → Prop) (name : String) : Search → List Search → Prop
  | found
      {s : Search}
      (hfree : ¬ used s.candidate) :
      Visits used name s [s]
  | onward
      {s : Search} {visited : List Search}
      (hused : used s.candidate)
      (hrest : Visits used name (s.next name) visited) :
      Visits used name s (s :: visited)

end Search

/-- The spelling is that of an unnamed number or of one that is smaller. -/
def Owned (names : List String) (id : Nat) (spelling : String) : Prop :=
  ∃ j, (table names)[j]? = some spelling ∧ (names[j]? = some "" ∨ j < id)

end Definitions

section Searches

variable {used : String → Prop} {name : String} {k : Nat}

namespace Search

/-- The state in which a search looks at a candidate. -/
def nth (name : String) (j : Nat) : Search := ⟨numbered name j, UInt32.ofNat (j + 1)⟩

theorem toNat_counter_nth
    {j : Nat}
    (hj : j + 1 < 2 ^ 32) :
    (nth name j).counter.toNat = j + 1 :=
  UInt32.toNat_ofNat_of_lt hj

/-- As long as the counter is a word it counts the candidates. -/
theorem next_nth
    {j : Nat}
    (hj : j + 1 < 2 ^ 32) :
    (nth name j).next name = nth name (j + 1) := by
  rw [next, toNat_counter_nth hj]
  simp only [nth, numbered, UInt32.ofNat_add]
  rfl

/-- From a candidate on, a search goes through the used ones up to the first that is free. -/
theorem visits_nth
    (hused : ∀ j < k, used (numbered name j))
    (hfree : ¬ used (numbered name k))
    (hk : k + 1 < 2 ^ 32)
    {j m : Nat}
    (hjm : j + m = k) :
    Visits used name (nth name j) ((List.range' j (m + 1)).map (nth name)) := by
  induction m generalizing j with
  | zero =>
      cases hjm
      exact .found hfree
  | succ m ih =>
      have hrest := ih (j := j + 1) (by omega)
      rw [← next_nth (by omega)] at hrest
      rw [List.range'_succ, List.map_cons]
      exact .onward (hused j (by omega)) hrest

end Search

end Searches

section Passes

variable {start j : Nat} {taken names : List String} {name : String}

/-- The reserved spellings are those of the unnamed numbers. -/
theorem mem_reserved_iff
    {s : String} :
    s ∈ reserved start names ↔ ∃ j : Nat, names[j]? = some "" ∧ s = ordinal (start + j) := by
  induction names generalizing start with
  | nil =>
      simp [reserved]
  | cons first rest ih =>
      rw [← Nat.or_exists_add_one, reserved]
      have hshift : ∀ j, ordinal (start + (j + 1)) = ordinal (start + 1 + j) := by
        intro j
        rw [Nat.add_right_comm, Nat.add_assoc]
      by_cases hfirst : first = ""
      · simp [hfirst, ih, hshift]
      · simp [hfirst, ih, hshift]

theorem length_reserved
    (start : Nat)
    (names : List String) :
    (reserved start names).length = names.countP (· = "") := by
  induction names generalizing start with
  | nil =>
      rfl
  | cons first rest ih =>
      by_cases hfirst : first = ""
      · simp [reserved, hfirst, ih]
      · simp [reserved, hfirst, ih]

/-- An unnamed number is spelled by its count. -/
theorem getElem?_assign_unnamed
    (hname : names[j]? = some "") :
    (assign start taken names)[j]? = some (ordinal (start + j)) := by
  induction names generalizing start taken j with
  | nil =>
      cases hname
  | cons first rest ih =>
      cases j with
      | zero =>
          cases hname
          rfl
      | succ j =>
          rw [List.getElem?_cons_succ] at hname
          have hcount : start + 1 + j = start + (j + 1) := Nat.add_right_comm ..
          simp only [assign]
          split <;> rw [List.getElem?_cons_succ, ih hname, hcount]

/--
A named number takes the first free candidate of its name, where what is taken are the spellings
taken at the start and those of the named numbers before it.
-/
theorem getElem?_assign_named
    (start : Nat)
    (taken : List String)
    (hj : names[j]? = some name)
    (hname : name ≠ "") :
    ∃ taken', (assign start taken names)[j]? = some (firstFree taken' name) ∧
      taken'.length = taken.length + (names.take j).countP (· ≠ "") ∧
      ∀ s, s ∈ taken' ↔ s ∈ taken ∨
        ∃ i < j, names[i]? ≠ some "" ∧ (assign start taken names)[i]? = some s := by
  induction names generalizing start taken j with
  | nil =>
      cases hj
  | cons first rest ih =>
      cases j with
      | zero =>
          cases hj
          exact ⟨taken, by simp [assign, hname], by simp, by simp⟩
      | succ j =>
          rw [List.getElem?_cons_succ] at hj
          by_cases hfirst : first = ""
          · have hassign : assign start taken (first :: rest) =
                ordinal start :: assign (start + 1) taken rest := by
              simp [assign, hfirst]
            obtain ⟨taken', hget, hlength, hmem⟩ := ih (start + 1) taken hj
            refine ⟨taken', by rw [hassign]; exact hget, by simpa [hfirst] using hlength, ?_⟩
            intro s
            rw [hmem s, Nat.exists_lt_succ_left, hassign]
            simp [hfirst]
          · let spelling := firstFree taken first
            have hassign : assign start taken (first :: rest) =
                spelling :: assign (start + 1) (spelling :: taken) rest := by
              simp [assign, hfirst, spelling]
            obtain ⟨taken', hget, hlength, hmem⟩ := ih (start + 1) (spelling :: taken) hj
            refine ⟨taken', by rw [hassign]; exact hget, ?_, ?_⟩
            · rw [hlength, List.length_cons, List.take_succ_cons,
                List.countP_cons_of_pos (by simpa using hfirst)]
              omega
            · intro s
              rw [hmem s, Nat.exists_lt_succ_left, hassign]
              simp [hfirst, eq_comm, or_assoc, or_left_comm]

/-- Before a named number there are fewer spellings than numbers. -/
theorem countP_unnamed_add_countP_named_lt
    (hj : names[j]? = some name)
    (hname : name ≠ "") :
    names.countP (· = "") + (names.take j).countP (· ≠ "") < names.length := by
  obtain ⟨hlt, rfl⟩ := List.getElem?_eq_some_iff.mp hj
  have hall : names.length = names.countP (· = "") + names.countP (· ≠ "") := by
    simpa using List.length_eq_countP_add_countP (fun s : String => decide (s = ""))
  have htake : (names.take (j + 1)).countP (· ≠ "") ≤ names.countP (· ≠ "") :=
    (List.take_sublist _ _).countP_le
  rw [← List.take_append_getElem hlt, List.countP_append, List.countP_singleton,
    if_pos (by simpa using hname)] at htake
  omega

end Passes

section Tables

variable {names : List String} {id : Nat} {name : String}

theorem getElem?_table_unnamed
    (hname : names[id]? = some "") :
    (table names)[id]? = some (ordinal id) := by
  rw [table, getElem?_assign_unnamed hname, Nat.zero_add]

/--
A named number is spelled by the first candidate of its name that is not owned, and there are fewer
candidates before it than there are other numbers.
-/
theorem getElem?_table_named
    (hid : names[id]? = some name)
    (hname : name ≠ "") :
    ∃ k < names.length, (table names)[id]? = some (numbered name k) ∧
      ¬ Owned names id (numbered name k) ∧ ∀ j < k, Owned names id (numbered name j) := by
  obtain ⟨taken, hget, hlength, hmem⟩ :=
    getElem?_assign_named 0 (reserved 0 names) hid hname
  have howned : ∀ s, s ∈ taken ↔ Owned names id s := by
    intro s
    rw [hmem, mem_reserved_iff]
    constructor
    · rintro (⟨j, hj, rfl⟩ | ⟨j, hj, _, hs⟩)
      · exact ⟨j, by rw [getElem?_table_unnamed hj, Nat.zero_add], Or.inl hj⟩
      · exact ⟨j, hs, Or.inr hj⟩
    · rintro ⟨j, hs, hj⟩
      by_cases hunnamed : names[j]? = some ""
      · rw [getElem?_table_unnamed hunnamed] at hs
        cases hs
        exact Or.inl ⟨j, hunnamed, by rw [Nat.zero_add]⟩
      · exact Or.inr ⟨j, hj.resolve_left hunnamed, hunnamed, hs⟩
  obtain ⟨k, hk, hfirst, hfree, hbefore⟩ := firstFree_spec taken name
  have hbound := countP_unnamed_add_countP_named_lt hid hname
  rw [hlength, length_reserved] at hk
  refine ⟨k, by omega, hfirst ▸ hget, ?_, ?_⟩
  · rw [← howned]
    exact hfree
  · intro j hj
    rw [← howned]
    exact hbefore j hj

/--
The renaming of a function's numbers ends and is correct.

A table has one spelling for each number, all different.  Unnamed numbers are spelled by their
count.  A named number is spelled by the first of `name`, `name.1`, `name.2`, … that is not the
spelling of an unnamed number or of a smaller one.  The search for it ends there: it looks at these
candidates one after another, and at fewer than there are numbers, so that its counter, which is
one ahead of the candidate, is at most the number of all numbers and does not wrap.
-/
theorem table_renames
    (hlength : names.length < 2 ^ 32) :
    (table names).length = names.length ∧
    (table names).Nodup ∧
    (∀ id : Nat, names[id]? = some "" → (table names)[id]? = some (ordinal id)) ∧
    ∀ (id : Nat) name, names[id]? = some name → name ≠ "" →
      ∃ k < names.length, ∃ visited,
        (table names)[id]? = some (numbered name k) ∧
        ¬ Owned names id (numbered name k) ∧
        (∀ j < k, Owned names id (numbered name j)) ∧
        Search.Visits (Owned names id) name (.start name) visited ∧
        visited.map Search.candidate = (List.range (k + 1)).map (numbered name) ∧
        visited.map (fun s => s.counter.toNat) = (List.range (k + 1)).map (· + 1) := by
  refine ⟨length_table names, table_nodup names, fun _ => getElem?_table_unnamed, ?_⟩
  intro id name hid hname
  obtain ⟨k, hk, hget, hfree, hbefore⟩ := getElem?_table_named hid hname
  have hvisits : Search.Visits (Owned names id) name (.start name)
      ((List.range (k + 1)).map (Search.nth name)) := by
    rw [List.range_eq_range']
    exact Search.visits_nth hbefore hfree (by omega) (Nat.zero_add k)
  refine ⟨k, hk, _, hget, hfree, hbefore, hvisits, by simp [Search.nth], ?_⟩
  rw [List.map_map]
  refine List.map_congr_left fun j hj => ?_
  rw [List.mem_range] at hj
  exact Search.toNat_counter_nth (by omega)

/--
A name given twice, a name that is the spelling of an unnamed number, and a name that is the
spelling made for the repetition: the search for the last goes on to a second count.
-/
theorem repeatedNames_renamed :
    let names := ["x", "", "x", "t1", "x.1"]
    names.length < 2 ^ 32 ∧ table names = ["x", "t1", "x.1", "t1.1", "x.1.1"] ∧
      ∃ visited, Search.Visits (Owned names 4) "x.1" (.start "x.1") visited ∧
        visited.map (fun s => s.counter.toNat) = [1, 2] := by
  intro names
  have hlength : names.length < 2 ^ 32 := by decide
  have htable : table names = ["x", "t1", "x.1", "t1.1", "x.1.1"] := by decide +kernel
  obtain ⟨k, _, visited, hget, _, _, hvisits, _, hcounters⟩ :=
    (table_renames hlength).2.2.2 4 "x.1" rfl (by decide)
  rw [htable] at hget
  have hk : k = 1 := numbered_injective "x.1" (Option.some.inj hget).symm
  subst hk
  exact ⟨hlength, htable, visited, hvisits, hcounters⟩

end Tables

end TempNames
end ThreeAddress
