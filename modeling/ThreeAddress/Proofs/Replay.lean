import ThreeAddress.Proofs.Layout
import ThreeAddress.Proofs.Resolving

/-!
# The trace as a log of edits

A trace record says of an instruction that was placed in which block and at what position it went,
and what it is: its word, its predicate and the number of its result.  The outline of a block is
what such records say of its instructions.

A record is written as a line of words: a tag, the place, the word of the operation, and the
predicate and the result if there are any (`TraceRecord.render_eq_words`).

Records are replayed on outlines, from empty ones on.  A record of an instruction that ends a block
is told by its word.  The replay fails if a position is not in the outline, if the end of a block
is not recorded at its length, and if anything is recorded for a block that has ended.

When all builders on a module trace, the replay of what a run traces succeeds and ends with the
outlines of the blocks of the module (`trace_replays`).  Positions are those at the time of the
placement, so this is a simulation of the run, call by call; that a record names its block by the
names of function and block is enough because these are distinct.
-/

namespace ThreeAddress

section Outlines

/-- What the trace says of an instruction. -/
structure Entry where
  mnemonic : String
  predicate : String
  /-- The number of the result, if there is one. -/
  result : Option Nat
deriving DecidableEq, Repr

/-- What the trace says of a block. -/
structure Outline where
  entries : List Entry := []
  /-- The instruction that ends the block. -/
  ending : Option Entry := none
deriving DecidableEq, Repr

/-- Outlines of blocks, by the name of the function and the label of the block. -/
abbrev Outlines := String → String → Outline

/-- The entry of an instruction; nothing void and nothing that ends a block has a result. -/
def Instr.entry (i : Instr) : Entry where
  mnemonic := i.op.mnemonic
  predicate := i.predicate
  result := if i.op.isTerminator ∨ i.type.kind = .void then none else some i.id

/-- The outline of a block. -/
def Block.outline (b : Block) : Outline where
  entries := b.instrs.map Instr.entry
  ending := b.terminator.map Instr.entry

namespace TraceRecord

/-- The entry that a record makes. -/
def entry (r : TraceRecord) : Entry := ⟨r.mnemonic, r.predicate, r.result⟩

/-- The record is of an instruction that ends its block: its word is one of two. -/
def closes (r : TraceRecord) : Bool :=
  r.mnemonic == "br" || r.mnemonic == "ret"

/-- The words of the line for a record. -/
def words (r : TraceRecord) : List String :=
  ["[tacir.build]", r.function ++ ":" ++ r.block ++ "@" ++ r.position.repr, r.mnemonic] ++
    (if r.predicate = "" then [] else [r.predicate]) ++
    (r.result.map fun id => "%t" ++ id.repr).toList

end TraceRecord

/-- The operations with their words; both kinds of branch share theirs. -/
def Opcode.words : List (Opcode × String) :=
  [(.binary .add, "add"), (.binary .sub, "sub"), (.binary .mul, "mul"),
    (.binary .udiv, "udiv"), (.binary .sdiv, "sdiv"), (.icmp, "icmp"), (.fcmp, "fcmp"),
    (.cast .trunc, "trunc"), (.cast .zext, "zext"), (.cast .sext, "sext"),
    (.cast .fptrunc, "fptrunc"), (.cast .fpext, "fpext"), (.cast .bitcast, "bitcast"),
    (.cast .fptoui, "fptoui"), (.cast .uitofp, "uitofp"), (.cast .fptosi, "fptosi"),
    (.cast .sitofp, "sitofp"), (.alloca, "alloca"), (.load, "load"), (.store, "store"),
    (.jump, "br"), (.branch, "br"), (.ret, "ret")]

/-- The outline of a block after a record of it, if the record can be of it. -/
def Outline.extend? (o : Outline) (r : TraceRecord) : Option Outline :=
  if o.ending.isSome then none
  else if r.closes then
    if r.position = o.entries.length then some { o with ending := some r.entry } else none
  else if r.position ≤ o.entries.length then
    some { o with
      entries := o.entries.take r.position ++ r.entry :: o.entries.drop r.position }
  else none

namespace Outlines

/-- No block has anything in it. -/
def empty : Outlines := fun _ _ => {}

/-- Change the outline of one block. -/
def put (blocks : Outlines) (function label : String) (o : Outline) : Outlines :=
  fun function' label' =>
    if function' = function ∧ label' = label then o else blocks function' label'

/-- Replay records, one after another. -/
def replay? (blocks : Outlines) : List TraceRecord → Option Outlines
  | [] => some blocks
  | r :: rest => do
      let o ← (blocks r.function r.block).extend? r
      (blocks.put r.function r.block o).replay? rest

theorem replay?_append
    (blocks : Outlines)
    (records later : List TraceRecord) :
    blocks.replay? (records ++ later) =
      (blocks.replay? records).bind fun blocks' => blocks'.replay? later := by
  induction records generalizing blocks with
  | nil =>
      rfl
  | cons r rest ih =>
      simp only [List.cons_append, replay?, Option.bind_eq_bind, Option.bind_assoc, ih]

theorem replay?_singleton
    {blocks : Outlines} {r : TraceRecord} {o : Outline}
    (hextend : (blocks r.function r.block).extend? r = some o) :
    blocks.replay? [r] = some (blocks.put r.function r.block o) := by
  simp [replay?, hextend]

end Outlines

end Outlines

section Lines

namespace TraceRecord

variable {words : List String}

theorem intercalate_predicate
    (hwords : words ≠ [])
    (predicate : String) :
    " ".intercalate (words ++ if predicate = "" then [] else [predicate]) =
      " ".intercalate words ++ predicateText predicate := by
  unfold predicateText
  split
  · rw [List.append_nil, String.append_empty]
  · rw [String.intercalate_append_of_ne_nil hwords (List.cons_ne_nil _ _),
      String.intercalate_singleton, String.append_assoc]

theorem intercalate_result
    (hwords : words ≠ [])
    (result : Option Nat) :
    " ".intercalate (words ++ (result.map fun id => "%t" ++ id.repr).toList) =
      " ".intercalate words ++ resultText result := by
  cases result with
  | none =>
      rw [Option.map_none, Option.toList_none, List.append_nil, resultText, String.append_empty]
  | some id =>
      have htag : " %t" = " " ++ "%t" := by decide
      rw [Option.map_some, Option.toList_some,
        String.intercalate_append_of_ne_nil hwords (List.cons_ne_nil _ _),
        String.intercalate_singleton, resultText, htag]
      simp only [String.append_assoc]

/-- The line for a record is its words, with blanks in between. -/
theorem render_eq_words
    (r : TraceRecord) :
    r.render = " ".intercalate r.words ++ "\n" := by
  have htag : "[tacir.build] " = "[tacir.build]" ++ " " := by decide
  have hwords : ∀ tag place : String, [tag, place, r.mnemonic] ≠ [] :=
    fun _ _ => List.cons_ne_nil _ _
  rw [TraceRecord.words,
    intercalate_result (List.append_ne_nil_of_left_ne_nil (hwords _ _) _),
    intercalate_predicate (hwords _ _),
    String.intercalate_cons_cons, String.intercalate_cons_cons, String.intercalate_singleton]
  unfold render
  simp only [htag, String.append_assoc]

end TraceRecord

/-- The word of an operation is the one in the table. -/
theorem Opcode.mem_words
    (op : Opcode) :
    (op, op.mnemonic) ∈ words := by
  have hall : ∀ op ∈ all, (op, op.mnemonic) ∈ words := by
    decide
  exact hall op op.mem_all

end Lines

section Blocks

namespace TraceRecord

variable (function label : String) (position : Nat) (i : Instr)

@[simp]
theorem position_ofInstr :
    (ofInstr function label position i).position = position :=
  rfl

/-- The result of a record is that of the entry: an instruction has one under the same conditions. -/
@[simp]
theorem entry_ofInstr :
    (ofInstr function label position i).entry = i.entry := by
  have hresult : (ofInstr function label position i).result = i.entry.result := by
    by_cases hop : i.op.isTerminator = true
    · simp [ofInstr, Instr.entry, Instr.hasResult, hop]
    · simp [ofInstr, Instr.entry, Instr.hasResult, Ty.isVoid, hop]
  exact congrArg (Entry.mk i.op.mnemonic i.predicate) hresult

/-- The words of the operations that end a block are those that the replay knows. -/
@[simp]
theorem closes_ofInstr :
    (ofInstr function label position i).closes = i.op.isTerminator := by
  have hall : ∀ op ∈ Opcode.all,
      (op.mnemonic == "br" || op.mnemonic == "ret") = op.isTerminator := by
    decide
  exact hall i.op i.op.mem_all

end TraceRecord

namespace Block

variable {b : Block} {i : Instr} {position : Nat}

/-- The record of an instruction put into an open block extends the outline of the block. -/
theorem extend?_outline_insert
    (hopen : b.terminator = none)
    (hop : i.op.isTerminator = false)
    (hposition : position ≤ b.size)
    (function label : String) :
    b.outline.extend? (.ofInstr function label position i) =
      some (b.insert position i).outline := by
  have hlength : position ≤ b.instrs.length := hposition
  simp [Outline.extend?, outline, insert, hopen, hop, hlength]

/-- The record of the instruction that ends an open block extends the outline of the block. -/
theorem extend?_outline_close
    (hopen : b.terminator = none)
    (hop : i.op.isTerminator = true)
    (function label : String) :
    b.outline.extend? (.ofInstr function label b.size i) = some (b.close i).outline := by
  simp [Outline.extend?, outline, close, hopen, hop, size]

end Block

end Blocks

section Modules

/-- The modules have a block with a label in a function with a name. -/
def HasBlock (modules : List Module) (function label : String) : Prop :=
  ∃ a f b, FunctionAddr.read? a modules = some f ∧ b ∈ f.blocks ∧
    f.name = function ∧ b.label = label

/-- Outlines are those of the blocks of the modules, and empty for what is no block of them. -/
structure Outlined (modules : List Module) (blocks : Outlines) : Prop where
  block : ∀ a f, FunctionAddr.read? a modules = some f → ∀ b ∈ f.blocks,
    blocks f.name b.label = b.outline
  absent : ∀ function label, ¬ HasBlock modules function label → blocks function label = {}

/-- No two functions of the modules have the same name. -/
def NamesApart (modules : List Module) : Prop :=
  ∀ a a' f f', FunctionAddr.read? a modules = some f → FunctionAddr.read? a' modules = some f' →
    f.name = f'.name → a = a'

variable {modules modules' : List Module} {blocks : Outlines}

/-- In a single module functions are told apart by their names. -/
theorem WellFormedCode.namesApart
    (hcode : WellFormedCode modules)
    (hsingle : modules.length = 1) :
    NamesApart modules := by
  obtain ⟨m, rfl⟩ := List.length_eq_one_iff.mp hsingle
  have hread : ∀ a f, FunctionAddr.read? a [m] = some f →
      a.moduleAt = 0 ∧ m.findFunction? f.name = some a.functionAt := by
    intro a f hf
    obtain ⟨m', hm, hget⟩ := Option.bind_eq_some_iff.mp hf
    obtain ⟨hlt, _⟩ := List.getElem?_eq_some_iff.mp hm
    have hzero : a.moduleAt = 0 := by simpa using hlt
    have hsame : m' = m := List.mem_singleton.mp (List.mem_of_getElem? hm)
    subst hsame
    exact ⟨hzero, hcode.findFunction?_name List.mem_cons_self hget⟩
  intro a a' f f' hf hf' hname
  obtain ⟨hmodule, hfind⟩ := hread a f hf
  obtain ⟨hmodule', hfind'⟩ := hread a' f' hf'
  rw [hname, hfind'] at hfind
  obtain ⟨moduleAt, functionAt⟩ := a
  obtain ⟨moduleAt', functionAt'⟩ := a'
  cases hmodule
  cases hmodule'
  cases hfind
  rfl

/-- What is a block of modules is one when they have grown. -/
theorem HasBlock.mono
    {function label : String}
    (hblock : HasBlock modules function label)
    (hgrows : Grows modules modules') :
    HasBlock modules' function label := by
  obtain ⟨a, f, b, hf, hb, rfl, rfl⟩ := hblock
  obtain ⟨j, hj⟩ := List.mem_iff_getElem?.mp hb
  obtain ⟨f', hf', hfunction⟩ := hgrows.function a f hf
  obtain ⟨b', hj', hblock⟩ := hfunction.block j b hj
  exact ⟨a, f', b', hf', List.mem_of_getElem? hj', hfunction.name_eq, hblock.label_eq⟩

/-- A new function has no block, so no outline changes. -/
theorem Outlined.addFunction
    {home : Nat} {m : Module} {f : Function}
    (hblocks : Outlined modules blocks)
    (hm : modules[home]? = some m)
    (hempty : f.blocks = [])
    (target : Option String) :
    Outlined (modules.modify home fun m => (m.supplyTarget target).addFunction f) blocks where
  block := by
    intro a g hg b hb
    rw [read?_addFunction hm] at hg
    split at hg
    · cases hg
      rw [hempty] at hb
      cases hb
    · exact hblocks.block a g hg b hb
  absent := by
    intro function label hnone
    refine hblocks.absent function label fun hblock => hnone ?_
    obtain ⟨a, g, b, hg, hb, hnames⟩ := hblock
    refine ⟨a, g, b, ?_, hb, hnames⟩
    have hne : a ≠ ⟨home, m.functions.length⟩ := by
      rintro rfl
      rw [read?_length hm] at hg
      cases hg
    rw [read?_addFunction hm, if_neg hne, hg]

/-- A new block has an empty outline, so no outline changes. -/
theorem Outlined.addBlock
    {a : FunctionAddr} {f : Function} {label : String}
    (hblocks : Outlined modules blocks)
    (hapart : NamesApart modules)
    (hf : a.read? modules = some f)
    (hnew : ∀ b ∈ f.blocks, b.label ≠ label) :
    Outlined (a.modify (fun f => f.addBlock label) modules) blocks where
  block := by
    intro a' f' hf' b hb
    rw [FunctionAddr.read?_modify] at hf'
    split at hf'
    · rename_i haddr
      subst haddr
      rw [hf] at hf'
      cases hf'
      rcases List.mem_append.mp hb with hb | hb
      · exact hblocks.block a' f hf b hb
      · cases List.mem_singleton.mp hb
        refine hblocks.absent f.name label ?_
        rintro ⟨a'', f'', b, hf'', hb, hname, hlabel⟩
        cases hapart _ _ _ _ hf'' hf hname
        cases hf.symm.trans hf''
        exact hnew b hb hlabel
    · exact hblocks.block a' f' hf' b hb
  absent := by
    intro function label' hnone
    have hgrows : Grows modules (a.modify (fun f => f.addBlock label) modules) :=
      grows_modify hf (Function.grows_addBlock f label)
    exact hblocks.absent function label' fun hblock => hnone (hblock.mono hgrows)

/-- When an instruction is placed in a block, the outline of the block changes and no other. -/
theorem Outlined.place
    {a : BlockAddr} {position : Nat} {f : Function} {b : Block} {i : Instr}
    {change : Block → Block}
    (hblocks : Outlined modules blocks)
    (hapart : NamesApart modules)
    (hwell : f.WellFormed position)
    (hf : a.function.read? modules = some f)
    (hb : f.blocks[a.blockAt]? = some b)
    (hgrows : b.Grows (change b)) :
    Outlined (a.function.modify (fun f => f.place a.blockAt i change) modules)
      (blocks.put f.name b.label (change b).outline) where
  block := by
    intro a' f' hf' b' hb'
    rw [FunctionAddr.read?_modify] at hf'
    split at hf'
    · rename_i haddr
      subst haddr
      rw [hf] at hf'
      cases hf'
      obtain ⟨j, hj⟩ := List.mem_iff_getElem?.mp hb'
      rw [Function.place_blocks] at hj
      by_cases hsame : a.blockAt = j
      · subst hsame
        simp only [List.getElem?_modify_eq, hb] at hj
        cases hj
        exact if_pos ⟨rfl, hgrows.label_eq⟩
      · rw [List.getElem?_modify_ne _ _ hsame] at hj
        have hlabel : b'.label ≠ b.label := by
          intro hlabel
          have hfind := (hwell.findBlock?_label hj).1
          rw [hlabel, (hwell.findBlock?_label hb).1] at hfind
          exact hsame (Option.some.inj hfind)
        exact (if_neg fun h => hlabel h.2).trans
          (hblocks.block _ f hf b' (List.mem_of_getElem? hj))
    · rename_i haddr
      have hname : f'.name ≠ f.name := fun hname => haddr (hapart _ _ _ _ hf' hf hname)
      exact (if_neg fun h => hname h.1).trans (hblocks.block a' f' hf' b' hb')
  absent := by
    intro function label hnone
    have hmodules : Grows modules
        (a.function.modify (fun f => f.place a.blockAt i change) modules) :=
      grows_modify hf (Function.grows_place hb hgrows i)
    have hother : ¬ (function = f.name ∧ label = b.label) := by
      rintro ⟨rfl, rfl⟩
      exact hnone (HasBlock.mono ⟨_, f, b, hf, List.mem_of_getElem? hb, rfl, rfl⟩ hmodules)
    exact (if_neg hother).trans
      (hblocks.absent function label fun hblock => hnone (hblock.mono hmodules))

end Modules

section Steps

/-- The operation of the instruction that a call places if it succeeds, if it places one. -/
def Call.op? : Call → Option Opcode
  | .emit (.binary op _ _ _) => some (.binary op)
  | .emit (.intCompare ..) => some .icmp
  | .emit (.floatCompare ..) => some .fcmp
  | .emit (.cast op _ _ _) => some (.cast op)
  | .emit (.alloca ..) => some .alloca
  | .emit (.load ..) => some .load
  | .emit (.store ..) => some .store
  | .terminate (.jump _) => some .jump
  | .terminate (.branch ..) => some .branch
  | .terminate (.ret _) => some .ret
  | _ => none

theorem Call.op?_emit
    {e : Emission Value} {d : Draft}
    (hdraft : e.draft = .ok d) :
    op? (.emit e) = some d.op := by
  cases Emission.draft_eq_ok_iff.mp hdraft <;> rfl

theorem Call.op?_terminate
    (t : Termination Value BlockAddr)
    (label : BlockAddr → String) :
    op? (.terminate t) = some (t.draft label).op := by
  cases t <;> rfl

namespace Bench

variable {s s' : Bench} {site : Site} {i : Instr} {f : Function}

/-- A builder that traces records an instruction at the end of the trace. -/
theorem record_trace
    (htrace : s.builder.options.trace = true)
    (hf : s.function? i.parent = some f)
    (b : Block)
    (position : Nat) :
    (s.record b position i).trace = s.trace ++ [.ofInstr f.name b.label position i] := by
  simp [record, htrace, hf]

/-- The function that is looked up for the record of an instruction is the one that holds it. -/
theorem commit_function?
    (haddress : site.address.function = ⟨s.builder.home, i.parent⟩)
    (hf : site.address.function.read? s.modules = some f)
    (change : Block → Block) :
    (s.commit site i change).function? i.parent =
      some (f.place site.address.blockAt i change) := by
  rw [function?_eq, commit_modules haddress]
  show FunctionAddr.read? ⟨s.builder.home, i.parent⟩ _ = _
  rw [← haddress, FunctionAddr.read?_modify, if_pos rfl, hf]
  rfl

theorem insert_trace
    (htrace : s.builder.options.trace = true)
    (haddress : site.address.function = ⟨s.builder.home, i.parent⟩)
    (hf : site.address.function.read? s.modules = some f) :
    (s.insert site i).trace =
      s.trace ++ [.ofInstr f.name site.block.label (insertPosition site) i] := by
  let placed := (s.commit site i fun b => b.insert (insertPosition site) i).moveTo
    { s.builder.cursor with anchor := insertPosition site + 1 }
  have hfunction : placed.function? i.parent = some _ := commit_function? haddress hf _
  exact record_trace (s := placed) htrace hfunction site.block (insertPosition site)

theorem close_trace
    (htrace : s.builder.options.trace = true)
    (haddress : site.address.function = ⟨s.builder.home, i.parent⟩)
    (hf : site.address.function.read? s.modules = some f) :
    (s.close site i).trace = s.trace ++ [.ofInstr f.name site.block.label site.block.size i] := by
  let placed := s.commit site i fun b => b.close i
  have hfunction : placed.function? i.parent = some _ := commit_function? haddress hf _
  exact record_trace (s := placed) htrace hfunction site.block site.block.size

/-- A call leaves the options of the builder as they are. -/
theorem Step.options_eq
    {c : Call} {reply : Reply}
    (hstep : s.Step c reply s') :
    s'.builder.options = s.builder.options := by
  cases hstep with
  | emit hdraft hsite hi =>
      rw [insert_builder]
  | terminate hdraft hsite hi =>
      rw [close_builder]
  | _ =>
      rfl

/--
A call that succeeds traces one record, with the word of the operation, if it places an instruction
and none otherwise, and the record turns the outlines before the call into those after it.
-/
theorem Step.extends
    {c : Call} {reply : Reply} {blocks : Outlines}
    (hstep : s.Step c reply s')
    (hcode : WellFormedCode s.modules)
    (hbuilder : s.builder.WellPlaced s.modules)
    (htrace : s.builder.options.trace = true)
    (hapart : NamesApart s.modules)
    (hblocks : Outlined s.modules blocks) :
    ∃ records blocks', s'.trace = s.trace ++ records ∧
      records.map TraceRecord.mnemonic = (c.op?.map Opcode.mnemonic).toList ∧
      blocks.replay? records = some blocks' ∧ Outlined s'.modules blocks' := by
  cases hstep with
  | startFunction hcheck hf =>
      subst hf
      exact ⟨[], blocks, (List.append_nil _).symm, rfl, rfl,
        hblocks.addFunction (modules_home hbuilder.home_lt) rfl _⟩
  | @createBlock a label f hf hcheck =>
      refine ⟨[], blocks, (List.append_nil _).symm, rfl, rfl, ?_⟩
      obtain ⟨_, hnew⟩ := admitBlock_eq_ok_iff.mp hcheck
      cases hread : a.read? s.modules with
      | none =>
          simp only [FunctionAddr.modify_eq_self hread]
          exact hblocks
      | some f' =>
          rw [hread] at hf
          subst hf
          exact hblocks.addBlock hapart hread hnew
  | param | position | positionAt | setLoc | constant =>
      exact ⟨[], blocks, (List.append_nil _).symm, rfl, rfl, hblocks⟩
  | @emit e d site i hdraft hsite hi =>
      obtain ⟨hopen, haddress, f, hf, hb, _⟩ := openSite_wellPlaced hcode hbuilder hsite d
      rw [← hi] at haddress
      have hop : i.op.isTerminator = false := by
        rw [hi]
        exact (Emission.draft_laidOut hdraft).2
      have hposition : insertPosition site ≤ site.block.size := Nat.min_le_right ..
      have houtline := hblocks.block _ f hf site.block (List.mem_of_getElem? hb)
      have hextend := Block.extend?_outline_insert hopen hop hposition f.name site.block.label
      refine ⟨_, _, insert_trace htrace haddress hf, by rw [Call.op?_emit hdraft, hi]; rfl,
        Outlines.replay?_singleton (houtline.symm ▸ hextend), ?_⟩
      rw [insert_modules haddress]
      exact hblocks.place hapart (hcode.function _ f hf) hf hb (Block.grows_insert hopen _ _)
  | @terminate t d site i hdraft hsite hi =>
      obtain ⟨hopen, haddress, f, hf, hb, _⟩ := openSite_wellPlaced hcode hbuilder hsite d
      rw [← hi] at haddress
      have hop : i.op.isTerminator = true := by
        rw [hi, hdraft]
        exact (t.draft_laidOut s.labelAt).2
      have houtline := hblocks.block _ f hf site.block (List.mem_of_getElem? hb)
      have hextend := Block.extend?_outline_close hopen hop f.name site.block.label
      refine ⟨_, _, close_trace htrace haddress hf,
        by rw [Call.op?_terminate t s.labelAt, hi, hdraft]; rfl,
        Outlines.replay?_singleton (houtline.symm ▸ hextend), ?_⟩
      rw [close_modules haddress]
      exact hblocks.place hapart (hcode.function _ f hf) hf hb (Block.grows_close hopen _)

end Bench

end Steps

section Runs

namespace World

/--
A world with one module whose builders all trace, and what they traced behind earlier records
replays to the outlines of its blocks.
-/
structure Logged
    (earlier : List TraceRecord)
    (w : World) : Prop where
  wellFormed : w.WellFormed
  single : w.modules.length = 1
  traced : ∀ builder ∈ w.builders, builder.options.trace = true
  log : ∃ records blocks, w.trace = earlier ++ records ∧
    Outlines.empty.replay? records = some blocks ∧ Outlined w.modules blocks

variable {start w : World} {earlier : List TraceRecord} {b : Nat} {builder : Builder} {c : Call}

/-- Nothing was traced in a world without blocks. -/
theorem Fresh.logged
    (hw : w.Fresh)
    (hsingle : w.modules.length = 1)
    (htrace : ∀ builder ∈ w.builders, builder.options.trace = true) :
    w.Logged w.trace where
  wellFormed := hw.wellFormed
  single := hsingle
  traced := htrace
  log := by
    refine ⟨[], Outlines.empty, (List.append_nil _).symm, rfl, ?_, fun _ _ _ => rfl⟩
    intro a f hf
    rw [hw.read?_eq_none] at hf
    cases hf

/-- A step of a builder extends the log by its record, if it makes one. -/
theorem Logged.step
    {reply : Reply} {s : Bench}
    (hw : w.Logged earlier)
    (hb : w.builders[b]? = some builder)
    (hstep : (w.benchOf builder).Step c reply s) :
    ∃ records, s.trace = w.trace ++ records ∧
      records.map TraceRecord.mnemonic = (c.op?.map Opcode.mnemonic).toList ∧
      ∃ before blocks, w.trace = earlier ++ before ∧
        Outlines.empty.replay? (before ++ records) = some blocks ∧ Outlined s.modules blocks := by
  have hmem := List.mem_of_getElem? hb
  obtain ⟨before, blocks, hbefore, hreplay, hblocks⟩ := hw.log
  obtain ⟨records, blocks', htrace, hwords, hreplay', hblocks'⟩ :=
    hstep.extends hw.wellFormed.code (hw.wellFormed.builder _ hmem) (hw.traced _ hmem)
      (hw.wellFormed.code.namesApart hw.single) hblocks
  refine ⟨records, htrace, hwords, before, blocks', hbefore, ?_, hblocks'⟩
  rw [Outlines.replay?_append, hreplay]
  exact hreplay'

/-- Every call keeps the log. -/
theorem Logged.call
    (hw : w.Logged earlier)
    (b : Nat)
    (c : Call) :
    (w.call b c).2.Logged earlier := by
  have hwell := hw.wellFormed.call b c
  have hsingle := (hw.wellFormed.addition b c).grows.length_eq.trans hw.single
  have hcase := w.callCase b c
  generalize w.call b c = result at hwell hsingle hcase
  cases hcase with
  | absent hb =>
      exact hw
  | done hb hstep =>
      refine ⟨hwell, hsingle, ?_, ?_⟩
      · intro builder hbuilder
        rcases List.mem_or_eq_of_mem_set hbuilder with hmem | rfl
        · exact hw.traced builder hmem
        · rw [hstep.options_eq]
          exact hw.traced _ (List.mem_of_getElem? hb)
      · obtain ⟨records, htrace, _, before, blocks, hbefore, hreplay, hblocks⟩ := hw.step hb hstep
        refine ⟨before ++ records, blocks, ?_, hreplay, hblocks⟩
        rw [← List.append_assoc, ← hbefore]
        exact htrace
  | failed hb =>
      exact hw

/--
What a call on a builder traces: one record, with the word of the operation, if it places an
instruction, and otherwise none.
-/
theorem Logged.call_trace
    (hw : w.Logged earlier)
    (hb : w.builders[b]? = some builder) :
    (∀ op, c.op? = some op → (w.call b c).1.isOk = true →
      ∃ r, (w.call b c).2.trace = w.trace ++ [r] ∧ r.mnemonic = op.mnemonic) ∧
    ((w.call b c).1.isOk = false ∨ c.op? = none → (w.call b c).2.trace = w.trace) := by
  have hcase := w.callCase b c
  generalize w.call b c = result at hcase
  cases hcase with
  | absent hb' =>
      rw [hb] at hb'
      cases hb'
  | failed hb' =>
      exact ⟨nofun, fun _ => rfl⟩
  | @done _ reply s hb' hstep =>
      obtain ⟨records, htrace, hwords, _⟩ := hw.step hb' hstep
      constructor
      · intro op hop _
        rw [hop] at hwords
        obtain ⟨r, rfl, hword⟩ := List.map_eq_singleton_iff.mp hwords
        exact ⟨r, htrace, hword⟩
      · rintro (h | hop)
        · cases h
        · rw [hop] at hwords
          rw [List.map_eq_nil_iff.mp hwords, List.append_nil] at htrace
          exact htrace

/-- A record that is traced is written behind the text of the trace, as a line of its words. -/
theorem traceText_concat
    (records : List TraceRecord)
    (r : TraceRecord) :
    traceText (records ++ [r]) = traceText records ++ " ".intercalate r.words ++ "\n" := by
  simp [traceText, r.render_eq_words, String.append_assoc]

/--
The trace is a log of the edits.

In a run on one fresh module by builders that all trace, a call that succeeds and places an
instruction adds one record to the end of the trace, with the word of the operation, which is
written as a line: the tag, the names of the function and the block with the position, the word,
and the predicate and the result if there are any.  Any other call adds nothing.  Replayed from
empty blocks, the records of the run fit where they say that they go, and they lead to the outlines
of the blocks of the module.
-/
theorem trace_replays
    (hstart : start.Fresh)
    (hsingle : start.modules.length = 1)
    (htrace : ∀ builder ∈ start.builders, builder.options.trace = true)
    (calls : List (Nat × Call)) :
    (∀ b builder c, (start.after calls).builders[b]? = some builder →
      let trace := (start.after calls).trace
      let outcome := (start.after calls).call b c
      (∀ op, c.op? = some op → outcome.1.isOk = true →
        ∃ r, outcome.2.trace = trace ++ [r] ∧ (op, r.mnemonic) ∈ Opcode.words ∧
          traceText outcome.2.trace = traceText trace ++ " ".intercalate r.words ++ "\n") ∧
      (outcome.1.isOk = false ∨ c.op? = none → outcome.2.trace = trace)) ∧
    ∃ records blocks, (start.after calls).trace = start.trace ++ records ∧
      Outlines.empty.replay? records = some blocks ∧
      Outlined (start.after calls).modules blocks := by
  have hlogged : (start.after calls).Logged start.trace :=
    after_induction (fun _ b c hw => hw.call b c) (hstart.logged hsingle htrace) calls
  refine ⟨?_, hlogged.log⟩
  intro b builder c hb trace outcome
  obtain ⟨hone, hnone⟩ := hlogged.call_trace (c := c) hb
  refine ⟨?_, hnone⟩
  intro op hop hok
  obtain ⟨r, hr, hword⟩ := hone op hop hok
  refine ⟨r, hr, hword ▸ op.mem_words, ?_⟩
  rw [hr]
  exact traceText_concat trace r

/-- A fresh world: one module and two builders on it that trace. -/
def tracingPair : World :=
  ({} : World).addModule {} |>.addBuilder 0 { trace := true } |>.addBuilder 0 { trace := true }

/--
The traced text of a loop, and what it replays to.  The load is recorded after the comparison and
goes in front of it, so the replay puts it there; the comparison that fails leaves no record.
-/
theorem loopCalls_trace_replays :
    let trace := (tracingPair.after loopCalls).trace
    traceText trace =
        "[tacir.build] f:entry@0 icmp slt %t2\n" ++
        "[tacir.build] f:entry@0 load %t3\n" ++
        "[tacir.build] f:entry@2 br\n" ++
        "[tacir.build] f:done@0 ret\n" ++
        "[tacir.build] f:body@0 br\n" ∧
      ∃ blocks, Outlines.empty.replay? trace = some blocks ∧
        ∀ p ∈ [("entry", Outline.mk [⟨"load", "", some 3⟩, ⟨"icmp", "slt", some 2⟩]
            (some ⟨"br", "", none⟩)),
          ("body", ⟨[], some ⟨"br", "", none⟩⟩), ("done", ⟨[], some ⟨"ret", "", none⟩⟩)],
          blocks "f" p.1 = p.2 := by
  have hfresh : tracingPair.Fresh := by
    constructor <;> simp [tracingPair, addModule, addBuilder]
  obtain ⟨records, blocks, hrecords, hreplay, hblocks⟩ :=
    (trace_replays hfresh rfl (by simp [tracingPair, addModule, addBuilder]) loopCalls).2
  have hread : (FunctionAddr.read? ⟨0, 0⟩ (tracingPair.after loopCalls).modules).map
      (fun f => (f.name, f.blocks.map fun b => (b.label, b.outline))) =
        some ("f", [("entry", ⟨[⟨"load", "", some 3⟩, ⟨"icmp", "slt", some 2⟩],
            some ⟨"br", "", none⟩⟩),
          ("body", ⟨[], some ⟨"br", "", none⟩⟩), ("done", ⟨[], some ⟨"ret", "", none⟩⟩)]) := by
    decide +kernel
  obtain ⟨f, hf, hvalues⟩ := Option.map_eq_some_iff.mp hread
  obtain ⟨hname, hmap⟩ := Prod.mk.inj hvalues
  refine ⟨by decide +kernel, blocks, ?_, ?_⟩
  · rw [hrecords]
    exact hreplay
  · intro p hp
    rw [← hmap] at hp
    obtain ⟨b, hb, rfl⟩ := List.mem_map.mp hp
    rw [← hname]
    exact hblocks.block _ f hf b hb

end World

end Runs

end ThreeAddress
