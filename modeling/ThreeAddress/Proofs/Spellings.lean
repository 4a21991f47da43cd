import Mathlib
import ThreeAddress.Listing.TempNames

/-!
# The spelling table

A name is numbered until it is free, and among one more candidate than there are taken names one
is free.  So every entry of a spelling table is the spelling of an unnamed number or new when it is
chosen, and no two numbers of a table are spelled alike (`table_nodup`), whatever the display names
are.
-/

namespace ThreeAddress
namespace TempNames

section Candidates

theorem ordinal_injective :
    Function.Injective ordinal := by
  intro id id' h
  exact Nat.repr_inj.mp ((String.append_right_inj _).mp h)

/-- Different counts make different candidates of a name. -/
theorem numbered_injective
    (name : String) :
    Function.Injective (numbered name) := by
  -- A count only ever makes the name longer.
  have hlonger : ∀ k, numbered name (k + 1) ≠ name := by
    intro k h
    have hlength := congrArg String.length h
    have hpoint : ".".length = 1 := rfl
    simp only [numbered, String.length_append] at hlength
    omega
  intro k k' h
  cases k with
  | zero =>
      cases k' with
      | zero =>
          rfl
      | succ k' =>
          exact absurd h.symm (hlonger k')
  | succ k =>
      cases k' with
      | zero =>
          exact absurd h (hlonger k)
      | succ k' =>
          exact Nat.repr_inj.mp ((String.append_right_inj _).mp h)

/-- The candidate that is chosen for a name is the first one that is free. -/
theorem firstFree_spec
    (taken : List String)
    (name : String) :
    ∃ k ≤ taken.length, firstFree taken name = numbered name k ∧ numbered name k ∉ taken ∧
      ∀ j < k, numbered name j ∈ taken := by
  unfold firstFree
  split
  · rename_i k hk
    obtain ⟨hfree, hlt, hbefore⟩ := List.find?_range_eq_some.mp hk
    exact ⟨k, by simpa [Nat.lt_succ_iff] using hlt, rfl, by simpa using hfree,
      fun j hj => by simpa using hbefore j hj⟩
  · rename_i hnone
    -- All candidates are taken, which are more than there are taken names.
    have htaken : (List.range (taken.length + 1)).map (numbered name) ⊆ taken := by
      intro s hs
      obtain ⟨k, hk, rfl⟩ := List.mem_map.mp hs
      simpa using List.find?_eq_none.mp hnone k hk
    have hnodup : ((List.range (taken.length + 1)).map (numbered name)).Nodup :=
      List.nodup_range.map (numbered_injective name)
    have hlength := (List.subperm_of_subset hnodup htaken).length_le
    simp at hlength

theorem firstFree_not_mem
    (taken : List String)
    (name : String) :
    firstFree taken name ∉ taken := by
  obtain ⟨k, _, hfirst, hfree, _⟩ := firstFree_spec taken name
  rw [hfirst]
  exact hfree

end Candidates

section Tables

theorem length_assign
    (start : Nat)
    (taken names : List String) :
    (assign start taken names).length = names.length := by
  induction names generalizing start taken with
  | nil =>
      rfl
  | cons name rest ih =>
      simp only [assign]
      split <;> simp [ih]

theorem length_table
    (names : List String) :
    (table names).length = names.length :=
  length_assign ..

/-- Every reserved spelling is that of an unnamed number from the start on. -/
theorem mem_reserved
    {start : Nat} {names : List String} {s : String}
    (hs : s ∈ reserved start names) :
    ∃ id, start ≤ id ∧ s = ordinal id := by
  induction names generalizing start with
  | nil =>
      cases hs
  | cons name rest ih =>
      simp only [reserved] at hs
      split at hs
      · rcases List.mem_cons.mp hs with rfl | hs
        · exact ⟨start, Nat.le_refl _, rfl⟩
        · obtain ⟨id, hid, rfl⟩ := ih hs
          exact ⟨id, by omega, rfl⟩
      · obtain ⟨id, hid, rfl⟩ := ih hs
        exact ⟨id, by omega, rfl⟩

/-- An assigned spelling is a reserved one or was not taken. -/
theorem mem_assign
    {start : Nat} {taken names : List String} {s : String}
    (hs : s ∈ assign start taken names) :
    s ∈ reserved start names ∨ s ∉ taken := by
  induction names generalizing start taken with
  | nil =>
      cases hs
  | cons name rest ih =>
      simp only [assign, reserved] at hs ⊢
      split at hs
      · rename_i hname
        rw [if_pos hname]
        rcases List.mem_cons.mp hs with rfl | hs
        · exact Or.inl List.mem_cons_self
        · exact (ih hs).imp_left (List.mem_cons_of_mem _)
      · rename_i hname
        rw [if_neg hname]
        rcases List.mem_cons.mp hs with rfl | hs
        · exact Or.inr (firstFree_not_mem taken name)
        · exact (ih hs).imp_right fun hnew hmem => hnew (List.mem_cons_of_mem _ hmem)

/-- No spelling is assigned twice, if those of unnamed numbers are taken from the start. -/
theorem assign_nodup
    {start : Nat} {taken names : List String}
    (hreserved : reserved start names ⊆ taken) :
    (assign start taken names).Nodup := by
  induction names generalizing start taken with
  | nil =>
      exact List.nodup_nil
  | cons name rest ih =>
      simp only [assign, reserved] at hreserved ⊢
      split
      · rename_i hname
        rw [if_pos hname] at hreserved
        obtain ⟨hstart, hrest⟩ := List.cons_subset.mp hreserved
        refine List.nodup_cons.mpr ⟨?_, ih hrest⟩
        intro hmem
        rcases mem_assign hmem with hlater | hnew
        · obtain ⟨id, hid, heq⟩ := mem_reserved hlater
          have hsame := ordinal_injective heq
          omega
        · exact hnew hstart
      · rename_i hname
        rw [if_neg hname] at hreserved
        have hfree := firstFree_not_mem taken name
        refine List.nodup_cons.mpr ⟨?_, ih (fun s hs => List.mem_cons_of_mem _ (hreserved hs))⟩
        intro hmem
        rcases mem_assign hmem with hlater | hnew
        · exact hfree (hreserved hlater)
        · exact hnew List.mem_cons_self

/-- No two numbers of a table are spelled alike. -/
theorem table_nodup
    (names : List String) :
    (table names).Nodup :=
  assign_nodup (List.Subset.refl _)

/-- Different numbers of a table of display names are looked up under different spellings. -/
theorem lookup_table_inj
    {names : List String} {id id' : Nat}
    (hid : id < names.length)
    (hid' : id' < names.length)
    (h : lookup (table names) id = lookup (table names) id') :
    id = id' := by
  rw [← length_table names] at hid hid'
  simp only [lookup, List.getD_eq_getElem?_getD, List.getElem?_eq_getElem hid,
    List.getElem?_eq_getElem hid', Option.getD_some] at h
  exact (table_nodup names).getElem_inj_iff.mp h

end Tables

end TempNames
end ThreeAddress
