import Mathlib

/-!
# Where a text ends

Texts stand next to each other in a listing, and each must be told from what follows it.  A text
whose characters are of one class ends where the class stops (`append_inj_of_stops`), as the digits
of a natural do.  A list whose items are separated by commas ends at the character that closes it,
if every item ends at a comma or at this character (`separated_inj`).
-/

namespace ThreeAddress

namespace Texts

section Classes

/-- The text is empty or starts with a character outside of a class. -/
def Stops (p : Char → Bool) (s : List Char) : Prop :=
  ∀ c ∈ s.head?, p c = false

theorem stops_nil
    (p : Char → Bool) :
    Stops p [] :=
  nofun

theorem stops_cons
    {p : Char → Bool} {c : Char}
    (hc : p c = false)
    (s : List Char) :
    Stops p (c :: s) := by
  intro c' hc'
  cases hc'
  exact hc

variable {p : Char → Bool} {u v s t : List Char}

/-- Characters of a class are the first ones of a text up to where the class stops. -/
theorem takeWhile_append_stops
    (hu : ∀ c ∈ u, p c = true)
    (hs : Stops p s) :
    (u ++ s).takeWhile p = u := by
  have hrest : s.takeWhile p = [] := by
    cases s with
    | nil =>
        rfl
    | cons c rest =>
        rw [List.takeWhile_cons_of_neg]
        rw [hs c rfl]
        exact Bool.false_ne_true
  rw [List.takeWhile_append_of_pos hu, hrest, List.append_nil]

theorem dropWhile_append_stops
    (hu : ∀ c ∈ u, p c = true)
    (hs : Stops p s) :
    (u ++ s).dropWhile p = s := by
  have hsplit := List.takeWhile_append_dropWhile (p := p) (l := u ++ s)
  rw [takeWhile_append_stops hu hs] at hsplit
  exact List.append_cancel_left hsplit

/-- Where characters of a class end, and what follows, is determined by the whole text. -/
theorem append_inj_of_stops
    (hu : ∀ c ∈ u, p c = true)
    (hv : ∀ c ∈ v, p c = true)
    (hs : Stops p s)
    (ht : Stops p t)
    (h : u ++ s = v ++ t) :
    u = v ∧ s = t := by
  have huv : u = v := by
    rw [← takeWhile_append_stops hu hs, h, takeWhile_append_stops hv ht]
  subst huv
  exact ⟨rfl, List.append_cancel_left h⟩

theorem isDigit_of_mem_toDigits
    {n : Nat} :
    ∀ c ∈ Nat.toDigits 10 n, c.isDigit = true :=
  fun _ => Nat.isDigit_of_mem_toDigits (by decide) (by decide)

/-- A natural is read off its digits up to the first other character. -/
theorem toDigits_append_inj
    {m n : Nat}
    (hs : Stops Char.isDigit s)
    (ht : Stops Char.isDigit t)
    (h : Nat.toDigits 10 m ++ s = Nat.toDigits 10 n ++ t) :
    m = n ∧ s = t := by
  obtain ⟨hdigits, hrest⟩ :=
    append_inj_of_stops isDigit_of_mem_toDigits isDigit_of_mem_toDigits hs ht h
  refine ⟨?_, hrest⟩
  rw [← Nat.ofDigitChars_ten_toDigits (n := m), hdigits, Nat.ofDigitChars_ten_toDigits]

end Classes

section Lists

variable {α : Type} {code : α → List Char} {close : Char} {s t : List Char}

/-- The text starts with what may follow an item: a comma or the end of the list. -/
def EndsItem (close : Char) (s : List Char) : Prop :=
  ∃ c ∈ s.head?, c = ',' ∨ c = close

theorem EndsItem.stops
    {p : Char → Bool}
    (hs : EndsItem close s)
    (hcomma : p ',' = false)
    (hclose : p close = false) :
    Stops p s := by
  obtain ⟨c, hc, hend⟩ := hs
  intro c' hc'
  cases hc.symm.trans hc'
  rcases hend with rfl | rfl
  · exact hcomma
  · exact hclose

/-- The items behind the first one, each after a comma, up to the end of the list. -/
def following (code : α → List Char) (close : Char) (xs : List α) (s : List Char) : List Char :=
  xs.flatMap (fun x => ',' :: ' ' :: code x) ++ close :: s

theorem following_cons
    (x : α)
    (xs : List α)
    (s : List Char) :
    following code close (x :: xs) s = ',' :: ' ' :: (code x ++ following code close xs s) := by
  simp [following]

theorem endsItem_following
    (xs : List α)
    (s : List Char) :
    EndsItem close (following code close xs s) := by
  cases xs with
  | nil =>
      exact ⟨close, rfl, Or.inr rfl⟩
  | cons x xs =>
      exact ⟨',', rfl, Or.inl rfl⟩

theorem intercalate_cons_append
    (x : α)
    (xs : List α)
    (s : List Char) :
    [',', ' '].intercalate ((x :: xs).map code) ++ close :: s =
      code x ++ following code close xs s := by
  induction xs generalizing x with
  | nil =>
      simp [following]
  | cons y rest ih =>
      rw [following_cons, ← ih y]
      simp

variable {P : α → Prop} {xs ys : List α}

theorem following_inj
    (hclose : close ≠ ',')
    (hdecode : ∀ x ∈ xs, ∀ y, P y → ∀ s t, EndsItem close s → EndsItem close t →
      code x ++ s = code y ++ t → x = y ∧ s = t)
    (hys : ∀ y ∈ ys, P y)
    (h : following code close xs s = following code close ys t) :
    xs = ys ∧ s = t := by
  induction xs generalizing ys with
  | nil =>
      cases ys with
      | nil =>
          exact ⟨rfl, List.tail_eq_of_cons_eq h⟩
      | cons y ys =>
          rw [following_cons] at h
          exact absurd (List.head_eq_of_cons_eq h) hclose
  | cons x xs ih =>
      cases ys with
      | nil =>
          rw [following_cons] at h
          exact absurd (List.head_eq_of_cons_eq h).symm hclose
      | cons y ys =>
          rw [following_cons, following_cons] at h
          have h := List.tail_eq_of_cons_eq (List.tail_eq_of_cons_eq h)
          obtain ⟨rfl, hrest⟩ := hdecode x List.mem_cons_self y (hys y List.mem_cons_self) _ _
            (endsItem_following ..) (endsItem_following ..) h
          obtain ⟨rfl, hend⟩ := ih (fun x hx => hdecode x (List.mem_cons_of_mem _ hx))
            (fun y hy => hys y (List.mem_cons_of_mem _ hy)) hrest
          exact ⟨rfl, hend⟩

/--
A list is read off its text up to the character that closes it, if every item is read off its text
up to a comma or this character and starts with another one.
-/
theorem separated_inj
    (hclose : close ≠ ',')
    (hstart : ∀ x, P x → ∃ c ∈ (code x).head?, c ≠ close)
    (hdecode : ∀ x ∈ xs, ∀ y, P y → ∀ s t, EndsItem close s → EndsItem close t →
      code x ++ s = code y ++ t → x = y ∧ s = t)
    (hxs : ∀ x ∈ xs, P x)
    (hys : ∀ y ∈ ys, P y)
    (h : [',', ' '].intercalate (xs.map code) ++ close :: s =
      [',', ' '].intercalate (ys.map code) ++ close :: t) :
    xs = ys ∧ s = t := by
  -- The text of an item does not start like the end of the list.
  have hne : ∀ x, P x → ∀ s t, code x ++ s ≠ close :: t := by
    intro x hx s t h
    obtain ⟨c, hc, hne⟩ := hstart x hx
    have hhead := congrArg List.head? h
    rw [List.head?_append, hc] at hhead
    exact hne (Option.some.inj hhead)
  cases xs with
  | nil =>
      cases ys with
      | nil =>
          exact ⟨rfl, List.tail_eq_of_cons_eq h⟩
      | cons y ys =>
          rw [intercalate_cons_append] at h
          exact absurd h.symm (hne y (hys y List.mem_cons_self) _ _)
  | cons x xs =>
      cases ys with
      | nil =>
          rw [intercalate_cons_append] at h
          exact absurd h (hne x (hxs x List.mem_cons_self) _ _)
      | cons y ys =>
          rw [intercalate_cons_append, intercalate_cons_append] at h
          obtain ⟨rfl, hrest⟩ := hdecode x List.mem_cons_self y (hys y List.mem_cons_self) _ _
            (endsItem_following ..) (endsItem_following ..) h
          obtain ⟨rfl, hend⟩ := following_inj hclose
            (fun x hx => hdecode x (List.mem_cons_of_mem _ hx))
            (fun y hy => hys y (List.mem_cons_of_mem _ hy)) hrest
          exact ⟨rfl, hend⟩

end Lists

end Texts

end ThreeAddress
