import ThreeAddress.Code.Block

/-!
# Functions

A function has typed parameters, blocks in the order of their creation, and a table of
names.  The table has one entry for every number given out so far, to a parameter or to an
instruction, so its length is the next free number.
-/

namespace ThreeAddress

/-- A parameter: the first numbers of a function are its parameters. -/
structure Param where
  name : String
  type : Ty
  id : Nat := 0
deriving Repr

/-- A function. -/
structure Function where
  name : String
  /-- The position of the function in its module. -/
  index : Nat := 0
  result : Ty := Ty.void
  params : List Param := []
  /-- The display name of every number given out, empty for none. -/
  names : List String := []
  blocks : List Block := []
deriving Repr

/-- Where in a function an instruction is. -/
structure Position where
  /-- The position of the block among the blocks. -/
  block : Nat
  /-- The position of the instruction in the block. -/
  index : Nat
deriving DecidableEq, Repr

namespace Function

instance : Inhabited Function := ⟨⟨"", 0, Ty.void, [], [], []⟩⟩

/-- A function without blocks; its parameters take the first numbers in order. -/
def declare (name : String) (index : Nat) (result : Ty) (params : List (String × Ty)) :
    Function where
  name := name
  index := index
  result := result
  params := params.zipIdx.map fun (p, id) => ⟨p.1, p.2, id⟩
  names := params.map (·.1)

/--
The number that the next instruction gets.  In the code that is modelled, numbers of instructions
and positions of functions have 32 bits; here they have no bound, and both agree below 2 to the
32nd.
-/
def nextId (f : Function) : Nat := f.names.length

/-- The name given with a number; a number not given out has none. -/
def nameOf (f : Function) (id : Nat) : String := f.names.getD id ""

/-- Give out the next number with a name. -/
def reserve (f : Function) (name : String) : Function :=
  { f with names := f.names ++ [name] }

/-- The position of the first block with a label. -/
def findBlock? (f : Function) (label : String) : Option Nat :=
  f.blocks.findIdx? (·.label == label)

/-- The first block, and in it the first instruction, with a number. -/
def locateIn? (id : Nat) : List Block → Option Position
  | [] => none
  | b :: rest =>
      match b.indexOf? id with
      | some index => some ⟨0, index⟩
      | none => (locateIn? id rest).map fun p => { p with block := p.block + 1 }

/-- Where the instruction with a number is; terminators are nowhere. -/
def locate? (f : Function) (id : Nat) : Option Position :=
  locateIn? id f.blocks

/-- An empty block of a function. -/
def newBlock (f : Function) (label : String) : Block where
  label := label
  parent := f.index

/-- Add an empty block at the end. -/
def addBlock (f : Function) (label : String) : Function :=
  { f with blocks := f.blocks ++ [f.newBlock label] }

/-- Change the block at a position. -/
def modifyBlock (f : Function) (block : Nat) (change : Block → Block) : Function :=
  { f with blocks := f.blocks.modify block change }

end Function
end ThreeAddress
