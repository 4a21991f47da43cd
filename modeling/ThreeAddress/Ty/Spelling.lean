import ThreeAddress.Ty.Basic

/-!
# Spelling of types

Integers are written with their width, pointers by a star after their pointee, arrays with
their count in brackets and structs by their members in braces.  A pointer or an array
without a contained type is spelled as one of void.
-/

namespace ThreeAddress
namespace Ty

mutual

/-- The text of a type. -/
def spelling : Ty → String
  | ⟨.void, _, _, _⟩ => "void"
  | ⟨.int, width, _, _⟩ => "i" ++ width.repr
  | ⟨.half, _, _, _⟩ => "half"
  | ⟨.float, _, _, _⟩ => "float"
  | ⟨.double, _, _, _⟩ => "double"
  | ⟨.pointer, _, _, elems⟩ => firstSpelling elems ++ "*"
  | ⟨.array, _, count, elems⟩ => "[" ++ count.repr ++ " x " ++ firstSpelling elems ++ "]"
  | ⟨.struct, _, _, elems⟩ => "\x7b" ++ ", ".intercalate (spellings elems) ++ "\x7d"
  | ⟨.label, _, _, _⟩ => "label"

/-- The text of the first type of a list, void if there is none. -/
def firstSpelling : List Ty → String
  | [] => "void"
  | t :: _ => spelling t

/-- The texts of all types of a list. -/
def spellings : List Ty → List String
  | [] => []
  | t :: ts => spelling t :: spellings ts

end

theorem spellings_eq_map : ∀ ts : List Ty, spellings ts = ts.map spelling
  | [] => by simp [spellings]
  | t :: ts => by simp [spellings, spellings_eq_map ts]

end Ty
end ThreeAddress
