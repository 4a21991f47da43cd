import ThreeAddress.Proofs.Insertion
import ThreeAddress.Proofs.Renaming

/-!
# Spellings of a growing function

Unnamed numbers are spelled first, so a number that a function gives out late can take a spelling
from one that it gave out early.  It does so in one case only: it has no name, and the spelling
that it must have is that of an earlier number.  All other spellings then follow from the same
searches as before.

`TempNames.take_table_append_iff` says this of tables, `World.spellings_stay` of functions: of one
call that gives out a number, and of runs.
-/

namespace ThreeAddress

namespace TempNames

section Extension

variable {taken taken' names more : List String} {name : String}

/-- More taken names do not change a search that ends at a name that is still free. -/
theorem firstFree_eq_of_subset
    (hsubset : taken ⊆ taken')
    (hfree : firstFree taken name ∉ taken') :
    firstFree taken' name = firstFree taken name := by
  obtain ⟨k, _, hk, _, hbefore⟩ := firstFree_spec taken name
  obtain ⟨k', _, hk', hfree', hbefore'⟩ := firstFree_spec taken' name
  rw [hk] at hfree
  rcases Nat.lt_trichotomy k k' with hlt | rfl | hlt
  · exact absurd (hbefore' k hlt) hfree
  · rw [hk, hk']
  · exact absurd (hsubset (hbefore k' hlt)) hfree'

/-- Spellings do not change when only names are taken that are none of them. -/
theorem assign_eq_of_subset
    {start : Nat}
    (hsubset : taken ⊆ taken')
    (hfree : ∀ s ∈ assign start taken names, s ∉ taken → s ∉ taken') :
    assign start taken' names = assign start taken names := by
  induction names generalizing start taken taken' with
  | nil =>
      rfl
  | cons first rest ih =>
      by_cases hfirst : first = ""
      · simp only [assign, if_pos hfirst, List.mem_cons] at hfree ⊢
        rw [ih hsubset fun s hs => hfree s (Or.inr hs)]
      · simp only [assign, if_neg hfirst, List.mem_cons] at hfree ⊢
        have hspelling : firstFree taken' first = firstFree taken first :=
          firstFree_eq_of_subset hsubset
            (hfree _ (Or.inl rfl) (firstFree_not_mem taken first))
        rw [hspelling, ih (List.cons_subset_cons _ hsubset)]
        intro s hs hnew
        rw [List.mem_cons, not_or] at hnew ⊢
        exact ⟨hnew.1, hfree s (Or.inr hs) hnew.2⟩

theorem reserved_append
    (start : Nat)
    (names more : List String) :
    reserved start (names ++ more) =
      reserved start names ++ reserved (start + names.length) more := by
  induction names generalizing start with
  | nil =>
      rfl
  | cons first rest ih =>
      have hstart : start + 1 + rest.length = start + (rest.length + 1) := by omega
      by_cases hfirst : first = ""
      · simp [reserved, hfirst, ih, hstart]
      · simp [reserved, hfirst, ih, hstart]

/-- Numbers are spelled in order, so later ones play no part while the earlier ones are spelled. -/
theorem take_assign_append
    (start : Nat)
    (taken names more : List String) :
    (assign start taken (names ++ more)).take names.length = assign start taken names := by
  induction names generalizing start taken with
  | nil =>
      rfl
  | cons first rest ih =>
      simp only [List.cons_append, assign]
      split <;> rw [List.length_cons, List.take_succ_cons, ih]

/--
A table that is continued keeps its spellings if and only if no number that is added without a name
must be spelled by one of them.
-/
theorem take_table_append_iff
    (names more : List String) :
    (table (names ++ more)).take names.length = table names ↔
      ∀ s ∈ reserved names.length more, s ∉ table names := by
  constructor
  · intro hkeep s hs
    obtain ⟨j, hj, rfl⟩ := mem_reserved_iff.mp hs
    -- The spelling of the added number stands behind those of the earlier ones.
    have hname : (names ++ more)[names.length + j]? = some "" := by
      rw [List.getElem?_append_right (Nat.le_add_right ..), Nat.add_sub_cancel_left, hj]
    have hlate : ordinal (names.length + j) ∈ (table (names ++ more)).drop names.length := by
      rw [List.mem_iff_getElem?]
      exact ⟨j, by rw [List.getElem?_drop, getElem?_table_unnamed hname]⟩
    have hapart := List.disjoint_take_drop (table_nodup (names ++ more)) (Nat.le_refl names.length)
    rw [hkeep] at hapart
    exact fun hearly => hapart hearly hlate
  · intro hapart
    have hassign : assign 0 (reserved 0 (names ++ more)) names = table names := by
      refine assign_eq_of_subset ?_ ?_
      · rw [reserved_append]
        exact List.subset_append_left ..
      · intro s hs hnew hmem
        rw [reserved_append, Nat.zero_add] at hmem
        rcases List.mem_append.mp hmem with hmem | hmem
        · exact hnew hmem
        · exact hapart s hmem hs
    rw [table, take_assign_append, hassign]

/-- A number of a table has the spelling under which it is looked up. -/
theorem getElem?_table_eq_lookup
    {id : Nat}
    (hid : id < names.length) :
    (table names)[id]? = some (lookup (table names) id) := by
  rw [← length_table names] at hid
  rw [lookup, List.getD_eq_getElem?_getD, List.getElem?_eq_getElem hid, Option.getD_some]

theorem mem_table_iff
    {s : String} :
    s ∈ table names ↔ ∃ id < names.length, lookup (table names) id = s := by
  rw [List.mem_iff_getElem?]
  constructor
  · rintro ⟨id, hid⟩
    have hlt : id < names.length := by
      rw [← length_table names]
      exact (List.getElem?_eq_some_iff.mp hid).1
    rw [getElem?_table_eq_lookup hlt] at hid
    exact ⟨id, hlt, Option.some.inj hid⟩
  · rintro ⟨id, hlt, rfl⟩
    exact ⟨id, getElem?_table_eq_lookup hlt⟩

/-- The first spellings of a longer table are a table if they are looked up as in that table. -/
theorem take_table_append_eq_iff
    (names more : List String) :
    (table (names ++ more)).take names.length = table names ↔
      ∀ id < names.length, lookup (table (names ++ more)) id = lookup (table names) id := by
  have hget : ∀ id < names.length,
      ((table (names ++ more)).take names.length)[id]? =
        some (lookup (table (names ++ more)) id) := by
    intro id hid
    rw [List.getElem?_take_of_lt hid, getElem?_table_eq_lookup]
    rw [List.length_append]
    omega
  constructor
  · intro hkeep id hid
    have hsame := hget id hid
    rw [hkeep, getElem?_table_eq_lookup hid] at hsame
    exact (Option.some.inj hsame).symm
  · intro hsame
    apply List.ext_getElem?
    intro id
    by_cases hid : id < names.length
    · rw [hget id hid, getElem?_table_eq_lookup hid, hsame id hid]
    · rw [List.getElem?_eq_none (by simp; omega),
        List.getElem?_eq_none (by rw [length_table]; omega)]

end Extension

end TempNames

section Functions

/-- The second function spells the numbers of the first as the first does. -/
def Function.SpelledAlike (f f' : Function) : Prop :=
  ∀ id < f.nextId,
    TempNames.lookup (Listing.namesOf f') id = TempNames.lookup (Listing.namesOf f) id

variable {f f' : Function}

/--
A function that has given out more numbers spells the earlier ones as before if and only if none of
them was spelled by the count of a later number without a name.
-/
theorem Function.spelledAlike_iff
    (hnames : f.names <+: f'.names) :
    f.SpelledAlike f' ↔
      ∀ m, f.nextId ≤ m → m < f'.nextId → f'.nameOf m = "" →
        ∀ id < f.nextId, TempNames.lookup (Listing.namesOf f) id ≠ TempNames.ordinal m := by
  obtain ⟨more, hmore⟩ := hnames
  have hlength : f'.nextId = f.nextId + more.length := by
    rw [nextId, ← hmore, List.length_append]
    rfl
  have hname : ∀ j, f'.nameOf (f.nextId + j) = more.getD j "" := by
    intro j
    rw [nameOf, ← hmore, nextId, List.getD_append_right _ _ _ _ (Nat.le_add_right ..),
      Nat.add_sub_cancel_left]
  rw [SpelledAlike, Listing.namesOf, Listing.namesOf, ← hmore]
  refine (TempNames.take_table_append_eq_iff f.names more).symm.trans ?_
  rw [TempNames.take_table_append_iff]
  constructor
  · intro hapart m hm hlt hunnamed id hid hsame
    obtain ⟨j, rfl⟩ := Nat.exists_eq_add_of_le hm
    have hj : j < more.length := by omega
    rw [hname, List.getD_eq_getElem?_getD, List.getElem?_eq_getElem hj, Option.getD_some]
      at hunnamed
    have hreserved : TempNames.ordinal (f.nextId + j) ∈
        TempNames.reserved f.names.length more :=
      TempNames.mem_reserved_iff.mpr
        ⟨j, by rw [List.getElem?_eq_getElem hj, hunnamed], rfl⟩
    exact hapart _ hreserved (TempNames.mem_table_iff.mpr ⟨id, hid, hsame⟩)
  · intro hapart s hs hmem
    obtain ⟨j, hj, rfl⟩ := TempNames.mem_reserved_iff.mp hs
    obtain ⟨id, hid, hsame⟩ := TempNames.mem_table_iff.mp hmem
    have hlt := (List.getElem?_eq_some_iff.mp hj).1
    refine hapart (f.nextId + j) (Nat.le_add_right ..) (by omega) ?_ id hid hsame
    rw [hname, List.getD_eq_getElem?_getD, hj, Option.getD_some]

end Functions

section Calls

variable {fa : FunctionAddr} {f : Function}

/-- A call only adds to the names that a function has given, also where nothing is well-formed. -/
theorem Bench.Step.names_prefix
    {s s' : Bench} {c : Call} {reply : Reply}
    (hstep : s.Step c reply s')
    (hf : fa.read? s.modules = some f) :
    ∃ f', fa.read? s'.modules = some f' ∧ f.names <+: f'.names := by
  have hplaced : ∀ {numbering name a replaced modules'},
      Placed s.modules numbering name a replaced modules' →
      ∃ f', fa.read? modules' = some f' ∧ f.names <+: f'.names := by
    intro numbering name a replaced modules' hplaced
    rw [hplaced.function, hf]
    refine ⟨_, rfl, ?_⟩
    dsimp only
    split
    · exact List.prefix_append ..
    · exact List.prefix_refl _
  cases hstep with
  | startFunction hcheck hg =>
      exact ⟨f, function_read?_openFunction hf _, List.prefix_refl _⟩
  | createBlock hg hcheck =>
      rw [FunctionAddr.read?_modify_eq_map, hf]
      refine ⟨_, rfl, ?_⟩
      split <;> exact List.prefix_refl _
  | param hparam | position hlocate | positionAt hentry | setLoc | constant hconstant =>
      exact ⟨f, hf, List.prefix_refl _⟩
  | emit hdraft hsite hi =>
      exact hplaced (placed_insert (openSite_eq_ok_iff.mp hsite).1 _)
  | terminate hdraft hsite hi =>
      exact hplaced (placed_close (openSite_eq_ok_iff.mp hsite).1 _)

namespace World

variable {w : World}

theorem names_prefix_call
    (hf : fa.read? w.modules = some f)
    (b : Nat)
    (c : Call) :
    ∃ f', fa.read? (w.call b c).2.modules = some f' ∧ f.names <+: f'.names := by
  have hcase := w.callCase b c
  generalize w.call b c = result at hcase
  cases hcase with
  | absent hb | failed hb =>
      exact ⟨f, hf, List.prefix_refl _⟩
  | done hb hstep =>
      exact hstep.names_prefix hf

/-- A run only adds to the names that a function has given. -/
theorem names_prefix_after
    (hf : fa.read? w.modules = some f)
    (calls : List (Nat × Call)) :
    ∃ f', fa.read? (w.after calls).modules = some f' ∧ f.names <+: f'.names := by
  induction calls generalizing w f with
  | nil =>
      exact ⟨f, hf, List.prefix_refl _⟩
  | cons first rest ih =>
      obtain ⟨b, c⟩ := first
      obtain ⟨f', hf', hnames⟩ := names_prefix_call hf b c
      obtain ⟨f'', hf'', hnames'⟩ := ih hf'
      exact ⟨f'', hf'', hnames.trans hnames'⟩

/--
The spellings of a function are stable as it grows.

A call gives out the next number of a function, as an emission or a termination does.  If the
number has a name, every number before it is spelled as before.  If it has none, they all are if and
only if none of them was spelled by the count of the new number.

Over a run that gives out any number of numbers, the earlier ones are spelled as before if and only
if none of them was spelled by the count of a number that was given out without a name.
-/
theorem spellings_stay
    (hf : fa.read? w.modules = some f) :
    (∀ b c f', fa.read? (w.call b c).2.modules = some f' → f'.nextId = f.nextId + 1 →
      (f'.nameOf f.nextId ≠ "" → f.SpelledAlike f') ∧
      (f'.nameOf f.nextId = "" →
        (f.SpelledAlike f' ↔ ∀ id < f.nextId,
          TempNames.lookup (Listing.namesOf f) id ≠ TempNames.ordinal f.nextId))) ∧
    ∀ calls, ∃ f', fa.read? (w.after calls).modules = some f' ∧ f.nextId ≤ f'.nextId ∧
      (f.SpelledAlike f' ↔
        ∀ m, f.nextId ≤ m → m < f'.nextId → f'.nameOf m = "" →
          ∀ id < f.nextId, TempNames.lookup (Listing.namesOf f) id ≠ TempNames.ordinal m) := by
  constructor
  · intro b c f' hf' hnext
    obtain ⟨g, hg, hnames⟩ := names_prefix_call hf b c
    cases hf'.symm.trans hg
    rw [Function.spelledAlike_iff hnames]
    constructor
    · intro hnamed m hm hlt hunnamed
      have hnew : m = f.nextId := by omega
      exact absurd (hnew ▸ hunnamed) hnamed
    · intro hunnamed
      constructor
      · intro hapart
        exact hapart f.nextId (Nat.le_refl _) (by omega) hunnamed
      · intro hapart m hm hlt _
        have hnew : m = f.nextId := by omega
        exact hnew ▸ hapart
  · intro calls
    obtain ⟨f', hf', hnames⟩ := names_prefix_after hf calls
    exact ⟨f', hf', hnames.length_le, Function.spelledAlike_iff hnames⟩

/-- A function with two loads that are named as the next number would be spelled without a name. -/
def crowded : World where
  modules := [{ functions := [
    { name := "f"
      names := ["x", "t3", "t3"]
      params := [{ name := "x", type := (Ty.int 32).pointer }]
      blocks := [{
        label := "entry"
        instrs := [
          { op := .load, type := Ty.int 32, name := "t3", id := 1 },
          { op := .load, type := Ty.int 32, name := "t3", id := 2 }] }] }] }]
  builders := [{ cursor := ⟨some ⟨0, 0⟩, some ⟨0, 0, 0⟩, 2⟩ }]

/-- A further load keeps both spellings, whatever it is named; the end of the block takes one. -/
theorem crowded_spellings :
    let x : Value := .temp 0 (Ty.int 32).pointer 0
    ∃ f, FunctionAddr.read? ⟨0, 0⟩ crowded.modules = some f ∧
      Listing.namesOf f = ["x", "t3", "t3.1"] ∧
      (∃ f', FunctionAddr.read? ⟨0, 0⟩ (crowded.call 0 (.emit (.load x "t3"))).2.modules = some f' ∧
        Listing.namesOf f' = ["x", "t3", "t3.1", "t3.2"] ∧ f.SpelledAlike f') ∧
      ∃ f', FunctionAddr.read? ⟨0, 0⟩ (crowded.call 0 (.terminate (.ret none))).2.modules = some f' ∧
        Listing.namesOf f' = ["x", "t3.1", "t3.2", "t3"] ∧ ¬ f.SpelledAlike f' := by
  intro x
  have hread : FunctionAddr.read? ⟨0, 0⟩ crowded.modules = some _ := rfl
  have hstep := (spellings_stay hread).1 0
  refine ⟨_, rfl, by decide +kernel, ⟨_, rfl, by decide +kernel, ?_⟩, ⟨_, rfl, by decide +kernel, ?_⟩⟩
  · exact (hstep (.emit (.load x "t3")) _ rfl rfl).1 (by decide +kernel)
  · rw [(hstep (.terminate (.ret none)) _ rfl rfl).2 rfl]
    intro hapart
    exact hapart 1 (by decide) (by decide +kernel)

end World

end Calls

end ThreeAddress
