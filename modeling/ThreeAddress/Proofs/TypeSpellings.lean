import ThreeAddress.Proofs.Runs
import ThreeAddress.Proofs.Texts

/-!
# Types are read off their spellings

The spelling of a type that the constructors build can be told from what follows it, as long as no
digit and no star follows: digits would go on a width, and a star would make a pointer.  So no two
of these types are spelled alike, and a message about operand types that differ shows two different
texts (`Ty.spelling_decodable`).

A type is a stem, which is no pointer, under a number of pointers, and its spelling is that of the
stem with as many stars.  The first character tells the kind of the stem.  A stem is read off its
spelling also where stars follow (`Ty.StemDecodes`), and then the stars are counted.
-/

namespace ThreeAddress

open Texts

namespace Ty

section Definitions

/-- The types that the constructors build: no field is set that the kind does not use. -/
inductive Built : Ty → Prop
  | void : Built void
  | int (width : Nat) : Built (int width)
  | half : Built half
  | float : Built float
  | double : Built double
  | label : Built label
  | pointer
      {target : Ty}
      (htarget : Built target) :
      Built (pointer target)
  | array
      {elem : Ty}
      (helem : Built elem)
      (count : Nat) :
      Built (array elem count)
  | struct
      {members : List Ty}
      (hmembers : ∀ t ∈ members, Built t) :
      Built (struct members)

/-- The text is empty or starts with a character that cannot go on the spelling of a type. -/
def Delimits (s : String) : Prop :=
  ∀ c ∈ s.toList.head?, c.isDigit = false ∧ c ≠ '*'

/-- The characters of a type's spelling. -/
def text (t : Ty) : List Char :=
  t.spelling.toList

/-- A type under a number of pointers. -/
def pointers : Nat → Ty → Ty
  | 0, t => t
  | k + 1, t => pointer (pointers k t)

/-- The characters that can go on the spelling of a type. -/
def goesOn (c : Char) : Bool :=
  c.isDigit || c == '*'

/-- The type is read off a text that starts with its spelling, if nothing goes on the spelling. -/
def Decodes (t : Ty) : Prop :=
  ∀ u s s', Built u → Stops goesOn s → Stops goesOn s' →
    t.text ++ s = u.text ++ s' → t = u ∧ s = s'

/-- The type is no pointer, and among such types it is read off its spelling also before stars. -/
def StemDecodes (t : Ty) : Prop :=
  t.isPointer = false ∧
  ∀ u s s', Built u → u.isPointer = false → Stops Char.isDigit s → Stops Char.isDigit s' →
    t.text ++ s = u.text ++ s' → t = u ∧ s = s'

end Definitions

section Characters

variable (t elem : Ty) (width count : Nat) (members : List Ty)

theorem text_int :
    (int width).text = 'i' :: Nat.toDigits 10 width := by
  simp [text, int, spelling]

theorem text_pointer :
    (pointer t).text = t.text ++ ['*'] := by
  simp [text, pointer, spelling, firstSpelling]

theorem text_array :
    (array elem count).text =
      '[' :: (Nat.toDigits 10 count ++ ' ' :: 'x' :: ' ' :: (elem.text ++ [']'])) := by
  simp [text, array, spelling, firstSpelling]

theorem text_struct :
    (struct members).text = '\x7b' :: ([',', ' '].intercalate (members.map text) ++ ['\x7d']) := by
  have htexts : (spellings members).map String.toList = members.map text := by
    rw [spellings_eq_map, List.map_map]
    rfl
  simp [text, struct, spelling, ← htexts]

theorem text_pointers
    (k : Nat) :
    (pointers k t).text = t.text ++ List.replicate k '*' := by
  induction k with
  | zero =>
      simp [pointers]
  | succ k ih =>
      rw [pointers, text_pointer, ih, List.append_assoc, ← List.replicate_succ']

/-- The character that the spelling of a stem of a kind starts with. -/
def initial : TyKind → Char
  | .void => 'v'
  | .int => 'i'
  | .half => 'h'
  | .float => 'f'
  | .double => 'd'
  | .label => 'l'
  | .array => '['
  | .struct => '\x7b'
  | .pointer => '*'

/-- The kinds whose types are spelled by a word. -/
def isWord : TyKind → Bool
  | .void | .half | .float | .double | .label => true
  | _ => false

theorem initial_injective :
    Function.Injective initial := by
  intro kind kind' h
  cases kind <;> cases kind' <;> first | rfl | exact absurd h (by decide)

end Characters

section Stems

variable {t u : Ty} {s s' : List Char}

theorem Built.text_stem
    (ht : Built t)
    (hstem : t.isPointer = false) :
    ∃ rest, t.text = initial t.kind :: rest := by
  cases ht with
  | void | half | float | double | label =>
      exact ⟨_, rfl⟩
  | int width =>
      exact ⟨_, text_int width⟩
  | pointer htarget =>
      cases hstem
  | array helem count =>
      exact ⟨_, text_array _ count⟩
  | struct hmembers =>
      exact ⟨_, text_struct _⟩

/-- Stems whose spellings start a text are of the same kind. -/
theorem Built.kind_eq
    (ht : Built t)
    (hu : Built u)
    (hstem : t.isPointer = false)
    (hstem' : u.isPointer = false)
    (h : t.text ++ s = u.text ++ s') :
    t.kind = u.kind := by
  obtain ⟨rest, hrest⟩ := ht.text_stem hstem
  obtain ⟨rest', hrest'⟩ := hu.text_stem hstem'
  rw [hrest, hrest'] at h
  exact initial_injective (List.head_eq_of_cons_eq h)

/-- A type is a stem under some number of pointers. -/
theorem Built.exists_stem
    (ht : Built t) :
    ∃ k stem, t = pointers k stem ∧ Built stem ∧ stem.isPointer = false := by
  induction ht with
  | pointer htarget ih =>
      obtain ⟨k, stem, rfl, hstem⟩ := ih
      exact ⟨k + 1, stem, rfl, hstem⟩
  | void | half | float | double | label =>
      exact ⟨0, _, rfl, by constructor, rfl⟩
  | int width =>
      exact ⟨0, _, rfl, .int width, rfl⟩
  | array helem count =>
      exact ⟨0, _, rfl, .array helem count, rfl⟩
  | struct hmembers =>
      exact ⟨0, _, rfl, .struct hmembers, rfl⟩

/-- The first character of a spelling is none that closes a list. -/
theorem Built.exists_head
    (ht : Built t) :
    ∃ c ∈ t.text.head?, c ≠ '\x7d' ∧ c ≠ ']' := by
  obtain ⟨k, stem, rfl, hbuilt, hstem⟩ := ht.exists_stem
  obtain ⟨rest, hrest⟩ := hbuilt.text_stem hstem
  refine ⟨initial stem.kind, ?_, ?_⟩
  · rw [text_pointers, hrest]
    rfl
  · cases stem.kind <;> decide

/-- If a stem is read off its spelling, so are the pointers to it. -/
theorem StemDecodes.pointers
    (ht : StemDecodes t)
    (k : Nat) :
    Decodes (pointers k t) := by
  intro u s s' hu hs hs' h
  obtain ⟨j, stem, rfl, hbuilt, hstem⟩ := hu.exists_stem
  rw [text_pointers, text_pointers, List.append_assoc, List.append_assoc] at h
  have hstars : ∀ (k : Nat) {s}, Stops goesOn s →
      Stops Char.isDigit (List.replicate k '*' ++ s) := by
    intro k s hs
    cases k with
    | zero =>
        intro c hc
        exact (Bool.or_eq_false_iff.mp (hs c hc)).1
    | succ k =>
        exact stops_cons rfl _
  obtain ⟨rfl, hrest⟩ := ht.2 stem _ _ hbuilt hstem (hstars k hs) (hstars j hs') h
  have hstar : ∀ (k : Nat), ∀ c ∈ List.replicate k '*', (c == '*') = true := by
    intro k c hc
    rw [List.eq_of_mem_replicate hc]
    rfl
  have hend : ∀ {s}, Stops goesOn s → Stops (· == '*') s :=
    fun hs c hc => (Bool.or_eq_false_iff.mp (hs c hc)).2
  obtain ⟨hcount, rfl⟩ :=
    append_inj_of_stops (hstar k) (hstar j) (hend hs) (hend hs') hrest
  have hkj : k = j := by
    simpa using congrArg List.length hcount
  exact ⟨hkj ▸ rfl, rfl⟩

end Stems

section Decoding

variable {t elem : Ty} {members : List Ty}

/-- Nothing but the kind is set in a type that is spelled by a word. -/
theorem Built.eq_of_isWord
    (ht : Built t)
    (hword : isWord t.kind = true) :
    t = ⟨t.kind, 0, 0, []⟩ := by
  cases ht with
  | void | half | float | double | label =>
      rfl
  | _ =>
      cases hword

theorem stemDecodes_of_isWord
    (ht : Built t)
    (hstem : t.isPointer = false)
    (hword : isWord t.kind = true) :
    StemDecodes t := by
  refine ⟨hstem, ?_⟩
  intro u s s' hu hstem' _ _ h
  have hkind := ht.kind_eq hu hstem hstem' h
  have htu : t = u := by
    rw [ht.eq_of_isWord hword, hu.eq_of_isWord (hkind ▸ hword), hkind]
  subst htu
  exact ⟨rfl, List.append_cancel_left h⟩

theorem stemDecodes_int
    (width : Nat) :
    StemDecodes (int width) := by
  refine ⟨rfl, ?_⟩
  intro u s s' hu hstem hs hs' h
  have hkind := (Built.int width).kind_eq hu rfl hstem h
  cases hu with
  | int width' =>
      rw [text_int, text_int] at h
      obtain ⟨rfl, hrest⟩ := toDigits_append_inj hs hs' (List.tail_eq_of_cons_eq h)
      exact ⟨rfl, hrest⟩
  | _ =>
      nomatch hkind

theorem stemDecodes_array
    (helem : Built elem)
    (hdecodes : Decodes elem)
    (count : Nat) :
    StemDecodes (array elem count) := by
  refine ⟨rfl, ?_⟩
  intro u s s' hu hstem hs hs' h
  have hkind := (Built.array helem count).kind_eq hu rfl hstem h
  cases hu with
  | @array elem' helem' count' =>
      simp only [text_array, List.cons_append, List.append_assoc, List.nil_append] at h
      obtain ⟨rfl, hrest⟩ := toDigits_append_inj (stops_cons rfl _) (stops_cons rfl _)
        (List.tail_eq_of_cons_eq h)
      simp only [List.cons.injEq, true_and] at hrest
      obtain ⟨rfl, hclose⟩ := hdecodes elem' _ _ helem' (stops_cons rfl _) (stops_cons rfl _) hrest
      exact ⟨rfl, List.tail_eq_of_cons_eq hclose⟩
  | _ =>
      nomatch hkind

theorem stemDecodes_struct
    (hmembers : ∀ m ∈ members, Built m)
    (hdecodes : ∀ m ∈ members, Decodes m) :
    StemDecodes (struct members) := by
  refine ⟨rfl, ?_⟩
  intro u s s' hu hstem hs hs' h
  have hkind := (Built.struct hmembers).kind_eq hu rfl hstem h
  cases hu with
  | @struct members' hmembers' =>
      simp only [text_struct, List.cons_append, List.append_assoc, List.nil_append] at h
      obtain ⟨rfl, hrest⟩ := separated_inj (P := Built) (by decide)
        (fun m hm => by
          obtain ⟨c, hc, hne, _⟩ := hm.exists_head
          exact ⟨c, hc, hne⟩)
        (fun m hm m' hm' s s' hs hs' hcode =>
          hdecodes m hm m' s s' hm' (hs.stops rfl rfl) (hs'.stops rfl rfl) hcode)
        hmembers hmembers' (List.tail_eq_of_cons_eq h)
      exact ⟨rfl, hrest⟩
  | _ =>
      nomatch hkind

/-- Every type that the constructors build is pointers to a stem that is read off its spelling. -/
theorem Built.exists_stemDecodes
    (ht : Built t) :
    ∃ k stem, t = pointers k stem ∧ StemDecodes stem := by
  induction ht with
  | void | half | float | double | label =>
      exact ⟨0, _, rfl, stemDecodes_of_isWord (by constructor) rfl rfl⟩
  | int width =>
      exact ⟨0, _, rfl, stemDecodes_int width⟩
  | pointer htarget ih =>
      obtain ⟨k, stem, rfl, hstem⟩ := ih
      exact ⟨k + 1, stem, rfl, hstem⟩
  | array helem count ih =>
      obtain ⟨k, stem, rfl, hstem⟩ := ih
      exact ⟨0, _, rfl, stemDecodes_array helem (hstem.pointers k) count⟩
  | struct hmembers ih =>
      refine ⟨0, _, rfl, stemDecodes_struct hmembers fun m hm => ?_⟩
      obtain ⟨k, stem, rfl, hstem⟩ := ih m hm
      exact hstem.pointers k

/-- Every type that the constructors build is read off its spelling. -/
theorem Built.decodes
    (ht : Built t) :
    Decodes t := by
  obtain ⟨k, stem, rfl, hstem⟩ := ht.exists_stemDecodes
  exact hstem.pointers k

theorem Delimits.stops
    {s : String}
    (hs : Delimits s) :
    Stops goesOn s.toList := by
  intro c hc
  obtain ⟨hdigit, hstar⟩ := hs c hc
  simp [goesOn, hdigit, hstar]

theorem Built.spelling_append_inj
    {a b : Ty} {s t : String}
    (ha : Built a)
    (hb : Built b)
    (hs : Delimits s)
    (ht : Delimits t)
    (h : a.spelling ++ s = b.spelling ++ t) :
    a = b ∧ s = t := by
  have htext := congrArg String.toList h
  rw [String.toList_append, String.toList_append] at htext
  obtain ⟨hab, hrest⟩ := ha.decodes b _ _ hb hs.stops ht.stops htext
  exact ⟨hab, String.toList_inj.mp hrest⟩

theorem Built.spelling_inj
    {a b : Ty}
    (ha : Built a)
    (hb : Built b)
    (h : a.spelling = b.spelling) :
    a = b :=
  (ha.spelling_append_inj hb (s := "") (t := "") nofun nofun (congrArg (· ++ "") h)).1

/-- A failure to find an open block says nothing about types. -/
theorem kind_ne_typeMismatch_of_openSite
    {s : Bench} {op : Opcode} {fault : Fault}
    (hfault : s.openSite op = .error fault) :
    fault.kind ≠ .typeMismatch := by
  unfold Bench.openSite at hfault
  split at hfault
  · cases hfault
    exact nofun
  · split at hfault
    · cases hfault
      exact nofun
    · cases hfault

/-- The message about an arithmetic operation that is refused for the types of its operands. -/
theorem message_of_typeMismatch
    {w : World} {i : Nat} {op : BinaryOp} {lhs rhs : Value} {name : String} {e : BuildError}
    (herror : (w.call i (.emit (.binary op lhs rhs name))).1 = .error e)
    (hkind : e.kind = .typeMismatch) :
    lhs.type ≠ rhs.type ∧
    e.message =
      op.mnemonic ++ ": operand types differ (" ++ lhs.type.spelling ++ " vs " ++
        rhs.type.spelling ++ ")" := by
  cases hi : w.builders[i]? with
  | none =>
      rw [World.call_absent hi] at herror
      cases herror
  | some builder =>
      rw [World.call_eq hi, Call.perform_eq_plan] at herror
      by_cases htypes : lhs.type = rhs.type
      · simp only [Call.plan, Emission.draft, if_pos htypes, Plan.ok_bind] at herror
        cases hsite : (w.benchOf builder).openSite (.binary op) with
        | ok site =>
            rw [hsite] at herror
            cases herror
        | error fault =>
            rw [hsite] at herror
            cases herror
            exact absurd hkind (kind_ne_typeMismatch_of_openSite hsite)
      · simp only [Call.plan, Emission.draft, if_neg htypes, Plan.error_bind] at herror
        cases herror
        exact ⟨htypes, rfl⟩

/--
The spelling of types is uniquely decodable.

If the spellings of two types, each with something behind it that does not start with a digit or
a star, are the same text, then they are the same type and the same follows.  In particular types
with the same spelling are the same, and an arithmetic operation that is refused because its operand
types differ shows two different spellings.
-/
theorem spelling_decodable :
    (∀ a b s t, Built a → Built b → Delimits s → Delimits t →
      a.spelling ++ s = b.spelling ++ t → a = b ∧ s = t) ∧
    (∀ a b, Built a → Built b → a.spelling = b.spelling → a = b) ∧
    ∀ (w : World) i op lhs rhs name e, Built lhs.type → Built rhs.type →
      (w.call i (.emit (.binary op lhs rhs name))).1 = .error e → e.kind = .typeMismatch →
      e.message =
        op.mnemonic ++ ": operand types differ (" ++ lhs.type.spelling ++ " vs " ++
          rhs.type.spelling ++ ")" ∧
      lhs.type.spelling ≠ rhs.type.spelling := by
  refine ⟨fun a b s t ha hb hs ht h => ha.spelling_append_inj hb hs ht h,
    fun a b ha hb h => ha.spelling_inj hb h, ?_⟩
  intro w i op lhs rhs name e hlhs hrhs herror hkind
  obtain ⟨hdiffer, hmessage⟩ := message_of_typeMismatch herror hkind
  exact ⟨hmessage, fun h => hdiffer (hlhs.spelling_inj hrhs h)⟩

/--
A pointer to a struct of an array and of a struct without members is read off its spelling before
an operand, and a sum of a number and of a truth value shows both types.
-/
theorem struct_spelling_decodable :
    let a := (struct [array (int 8).pointer 4, struct []]).pointer
    a.spelling = "\x7b[4 x i8*], \x7b\x7d\x7d*" ∧ Built a ∧ Delimits " %x" ∧
      (a.spelling ++ " %x" = a.spelling ++ " %x" → a = a ∧ " %x" = " %x") ∧
      ∃ e, (World.pair.call 0 (.emit (.binary .add (.temp 0 (int 32) 0) (.bool true) ""))).1 =
          .error e ∧
        e.message = "add: operand types differ (i32 vs i1)" ∧
        (int 32).spelling ≠ bool.spelling := by
  intro a
  have ha : Built a := by
    refine .pointer (.struct fun t ht => ?_)
    rcases List.mem_cons.mp ht with rfl | ht
    · exact .array (.pointer (.int 8)) 4
    · cases List.mem_singleton.mp ht
      exact .struct nofun
  have hdelimits : Delimits " %x" := by
    intro c hc
    cases hc
    decide
  obtain ⟨hdecode, -, hmessage⟩ := spelling_decodable
  refine ⟨by decide +kernel, ha, hdelimits, hdecode a a " %x" " %x" ha ha hdelimits hdelimits,
    _, rfl, by decide +kernel, ?_⟩
  exact (hmessage World.pair 0 .add (.temp 0 (int 32) 0) (.bool true) "" _ (.int 32) (.int 1)
    rfl rfl).2

end Decoding

end Ty

end ThreeAddress
