/-!
# Names of temporaries in a listing

In a listing every number of a function is written under a name of its own.  A number
without a display name is written by its count, `t7`; a number with one takes it, unless the
name is already the spelling of an unnamed number or of a smaller named one, and then the
first free one among `name.1`, `name.2`, … .
-/

namespace ThreeAddress
namespace TempNames

/-- The spelling of a number without a name. -/
def ordinal (id : Nat) : String :=
  "t" ++ id.repr

/-- The spellings of the unnamed numbers of a table that starts at number `start`. -/
def reserved (start : Nat) : List String → List String
  | [] => []
  | name :: rest =>
      if name = "" then ordinal start :: reserved (start + 1) rest
      else reserved (start + 1) rest

/-- A name, from the first repetition on with its count after a point. -/
def numbered (name : String) : Nat → String
  | 0 => name
  | k + 1 => name ++ "." ++ (k + 1).repr

/--
The first of `name`, `name.1`, `name.2`, … that is not taken.  Among one more candidate than
there are taken names, one is free.
-/
def firstFree (taken : List String) (name : String) : String :=
  match (List.range (taken.length + 1)).find? fun k => !taken.contains (numbered name k) with
  | some k => numbered name k
  | none => name

/-- Spell the numbers from `start` on, given the spellings that are taken. -/
def assign (start : Nat) (taken : List String) : List String → List String
  | [] => []
  | name :: rest =>
      if name = "" then ordinal start :: assign (start + 1) taken rest
      else
        let spelling := firstFree taken name
        spelling :: assign (start + 1) (spelling :: taken) rest

/-- The spelling of every number of a table of display names. -/
def table (names : List String) : List String :=
  assign 0 (reserved 0 names) names

/-- The spelling of a number in a table; a number beyond the table is written by its count. -/
def lookup (table : List String) (id : Nat) : String :=
  table.getD id (ordinal id)

end TempNames
end ThreeAddress
