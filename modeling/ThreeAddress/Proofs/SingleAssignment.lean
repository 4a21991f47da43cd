import ThreeAddress.Proofs.Numbering
import ThreeAddress.Proofs.Pieces
import ThreeAddress.Proofs.Spellings

/-!
# Listings in single-assignment form

A numbered function defines no number twice, and its spelling table spells no two numbers alike.
So in the listing of a reachable function everything that is defined, parameters and results, is
written under a spelling of its own, and an operand that names it is written as it is and as
nothing else is.
-/

namespace ThreeAddress

namespace Function

variable {f : Function}

/-- Nothing is defined twice in the listing of a numbered function. -/
theorem Numbered.definitions_nodup
    (hf : f.Numbered) :
    (Listing.definitions (Listing.functionPieces f)).Nodup := by
  rw [Listing.definitions_functionPieces]
  have hsublist :
      (((f.blocks.flatMap Block.contents).filter Instr.hasResult).map (·.id)).Sublist
        ((f.blocks.flatMap Block.contents).map (·.id)) :=
    List.filter_sublist.map _
  have hids : f.ids = f.params.map Param.id ++ (f.blocks.flatMap Block.contents).map (·.id) := by
    rw [ids, List.map_flatMap]
  have hnodup := hf.ids_nodup
  rw [hids] at hnodup
  exact hnodup.sublist ((List.Sublist.refl _).append hsublist)

/-- What is defined in the listing of a numbered function has a number that was given out. -/
theorem Numbered.lt_of_mem_definitions
    {id : Nat}
    (hf : f.Numbered)
    (hid : id ∈ Listing.definitions (Listing.functionPieces f)) :
    id < f.names.length := by
  rw [Listing.definitions_functionPieces] at hid
  refine hf.mem_ids_iff.mp ?_
  rcases List.mem_append.mp hid with hid | hid
  · exact List.mem_append_left _ hid
  · obtain ⟨i, hi, rfl⟩ := List.mem_map.mp hid
    obtain ⟨b, hb, hi⟩ := List.mem_flatMap.mp (List.mem_filter.mp hi).1
    exact mem_ids_of_contents hb hi

/-- What is defined in the listing of a numbered function is spelled differently. -/
theorem Numbered.spelling_inj
    {id id' : Nat}
    (hf : f.Numbered)
    (hid : id ∈ Listing.definitions (Listing.functionPieces f))
    (hid' : id' ∈ Listing.definitions (Listing.functionPieces f))
    (h : TempNames.lookup (Listing.namesOf f) id = TempNames.lookup (Listing.namesOf f) id') :
    id = id' :=
  TempNames.lookup_table_inj (hf.lt_of_mem_definitions hid) (hf.lt_of_mem_definitions hid') h

end Function

namespace World

variable {w : World}

/--
The listing of a function of a reachable world is in single-assignment form.

The listing is made of pieces under the spellings of the function's numbers.  It defines the
parameters and the results of instructions, and all these have different spellings.  It writes
every operand of every instruction, in order; one that is a temporary of the function and names
something defined is written by that spelling, which no other definition has.
-/
theorem listing_single_assignment
    (hw : w.Reachable) :
    ∀ a f, FunctionAddr.read? a w.modules = some f →
      let names := Listing.namesOf f
      let pieces := Listing.functionPieces f
      Listing.ofFunction f = Listing.render names pieces ∧
      Listing.definitions pieces =
        f.params.map Param.id ++
          ((f.blocks.flatMap Block.contents).filter Instr.hasResult).map (·.id) ∧
      ((Listing.definitions pieces).map (TempNames.lookup names)).Nodup ∧
      Listing.operands pieces = (f.blocks.flatMap Block.contents).flatMap (·.operands) ∧
      ∀ id type, Value.temp id type f.index ∈ Listing.operands pieces →
        id ∈ Listing.definitions pieces →
        (Listing.Piece.operand (.temp id type f.index)).render names =
          "%" ++ TempNames.lookup names id ∧
        ∀ id' ∈ Listing.definitions pieces,
          (Listing.Piece.definition id').render names = "%" ++ TempNames.lookup names id ↔
            id' = id := by
  intro a f hf names pieces
  have hnumbered := hw.numbered a f hf
  refine ⟨(Listing.render_functionPieces f).symm, Listing.definitions_functionPieces f, ?_,
    Listing.operands_functionPieces (hw.contents_laidOut hf), ?_⟩
  · exact List.Nodup.map_on (fun id hid id' hid' h => hnumbered.spelling_inj hid hid' h)
      hnumbered.definitions_nodup
  · intro id type _ hid
    refine ⟨rfl, ?_⟩
    intro id' hid'
    constructor
    · intro h
      exact hnumbered.spelling_inj hid' hid ((String.append_right_inj _).mp h)
    · rintro rfl
      rfl

/--
A run that gives one name to two parameters and a sum, and to another sum the spelling that an
unnamed one has.
-/
def repeatedNames : List (Nat × Call) :=
  let x : Value := .temp 0 (Ty.int 32) 0
  [(0, .startFunction "f" (Ty.int 32) [("x", Ty.int 32), ("x", Ty.int 32)]),
    (0, .createBlock ⟨0, 0⟩ "entry"),
    (0, .positionAt .finish ⟨0, 0, 0⟩),
    (0, .emit (.binary .add x (.temp 1 (Ty.int 32) 0) "x")),
    (0, .emit (.binary .mul x (.temp 2 (Ty.int 32) 0) "t4")),
    (0, .emit (.binary .sub (.temp 3 (Ty.int 32) 0) x "")),
    (0, .terminate (.ret (some (.temp 4 (Ty.int 32) 0))))]

/-- Its listing tells all of them apart. -/
theorem repeatedNames_single_assignment :
    ∃ f, FunctionAddr.read? ⟨0, 0⟩ (pair.after repeatedNames).modules = some f ∧
      (Listing.definitions (Listing.functionPieces f)).map
          (TempNames.lookup (Listing.namesOf f)) = ["x", "x.1", "x.2", "t4.1", "t4"] ∧
      ((Listing.definitions (Listing.functionPieces f)).map
          (TempNames.lookup (Listing.namesOf f))).Nodup := by
  have hread : (FunctionAddr.read? ⟨0, 0⟩ (pair.after repeatedNames).modules).map
      (fun f => (Listing.definitions (Listing.functionPieces f)).map
        (TempNames.lookup (Listing.namesOf f))) =
        some ["x", "x.1", "x.2", "t4.1", "t4"] := by
    decide +kernel
  obtain ⟨f, hf, hspellings⟩ := Option.map_eq_some_iff.mp hread
  have hreachable : (pair.after repeatedNames).Reachable :=
    ⟨pair, repeatedNames, pair_fresh, rfl⟩
  exact ⟨f, hf, hspellings, (listing_single_assignment hreachable _ f hf).2.2.1⟩

end World

end ThreeAddress
