import RecordSchema.Json.Reader

/-!
# Nesting of JSON texts

The reader has room for a number of arrays and objects within each other.
It runs out of it only on a text that opens more of them than that: each
one opened takes an opening bracket off the text, and nothing that is
read puts one back.
-/

namespace RecordSchema.Json

/-- The number of brackets in a text that open an array or an object. -/
def openings (cs : List Char) : Nat :=
  cs.countP fun c => c == '[' || c == '\x7b'

/-- A reader of a text with `n` openings leaves no more of them, and runs out of its room only
when there are more. -/
def Bounded {α : Type} (room n : Nat) (x : Except Fault (α × Cursor)) : Prop :=
  match x with
  | .ok (_, c) => openings c.rest ≤ n
  | .error f => f.problem = .tooDeep → room < n

variable {α β : Type} {room n m : Nat}

theorem Bounded.mono {x : Except Fault (α × Cursor)} (h : Bounded room n x) (hle : n ≤ m) :
    Bounded room m x := by
  cases x with
  | ok p => exact Nat.le_trans h hle
  | error f => exact fun hdeep => Nat.lt_of_lt_of_le (h hdeep) hle

/-- What is bounded behind an opening bracket, with less room by one, is bounded before it. -/
theorem Bounded.opened {x : Except Fault (α × Cursor)} (h : Bounded room n x) (hlt : n < m) :
    Bounded (room + 1) m x := by
  cases x with
  | ok p => exact Nat.le_of_lt (Nat.lt_of_le_of_lt h hlt)
  | error f => exact fun hdeep => Nat.lt_of_le_of_lt (h hdeep) hlt

theorem Bounded.bind {x : Except Fault (α × Cursor)} {f : α × Cursor → Except Fault (β × Cursor)}
    (hx : Bounded room n x) (hf : ∀ a c, openings c.rest ≤ n → Bounded room n (f (a, c))) :
    Bounded room n (x >>= f) := by
  cases x with
  | ok p => exact hf p.1 p.2 hx
  | error e => exact hx

theorem openings_skip (c : Cursor) (k : Nat) : openings (c.skip k).rest ≤ openings c.rest :=
  (List.drop_sublist k c.rest).countP_le

theorem openings_skipBlanks (c : Cursor) : openings c.skipBlanks.rest ≤ openings c.rest :=
  openings_skip c _

/-- Behind an opening bracket, and the blanks that follow it, there is one opening less. -/
theorem openings_behind {c : Cursor} {b : Char} {r : List Char} (hc : c.rest = b :: r)
    (hb : (b == '[' || b == '\x7b') = true) :
    openings (c.skip 1).skipBlanks.rest < openings c.rest := by
  have hrest : (c.skip 1).rest = r := by rw [Cursor.skip, hc]; rfl
  have hlt : openings (c.skip 1).rest < openings c.rest := by
    rw [hrest, hc, openings, openings, List.countP_cons, if_pos hb]
    exact Nat.lt_succ_self _
  exact Nat.lt_of_le_of_lt (openings_skipBlanks _) hlt

theorem bounded_readString (start : Nat) (acc : List Char) (c : Cursor) (fuel : Nat) :
    Bounded room (openings c.rest) (readString start acc c fuel) := by
  induction fuel generalizing acc c with
  | zero => nofun
  | succ fuel ih =>
    unfold readString
    split
    · nofun
    · exact openings_skip c 1
    · split
      · exact (ih _ _).mono (openings_skip c _)
      · nofun
    · split
      · exact (ih _ _).mono (openings_skip c _)
      · nofun
    · nofun
    · split
      · nofun
      · exact (ih _ _).mono (openings_skip c _)

theorem bounded_readAtom (c : Cursor) : Bounded room (openings c.rest) (readAtom c) := by
  unfold readAtom
  split
  · exact openings_skip c _
  · split
    · exact openings_skip c _
    · nofun

/-- Everything that is read with the fuel is bounded. -/
structure ReadsBounded (fuel : Nat) : Prop where
  value : ∀ {room c}, Bounded room (openings c.rest) (readValue room c fuel)
  items : ∀ {room acc c}, Bounded room (openings c.rest) (readItems room acc c fuel)
  members : ∀ {room acc c}, Bounded room (openings c.rest) (readMembers room acc c fuel)

namespace ReadsBounded

variable {fuel : Nat} {c : Cursor}

theorem zero : ReadsBounded 0 where
  value := by unfold readValue; nofun
  items := by unfold readItems; nofun
  members := by unfold readMembers; nofun

theorem value_succ (h : ReadsBounded fuel) :
    Bounded room (openings c.rest) (readValue room c (fuel + 1)) := by
  unfold readValue
  split
  · exact ((bounded_readString _ _ _ _).mono (openings_skip c 1)).bind fun _ _ hle => hle
  · next hopen =>
    have hlt := openings_behind hopen rfl
    split
    · exact fun _ => Nat.lt_of_le_of_lt (Nat.zero_le _) hlt
    · dsimp only
      split
      · exact Nat.le_trans (openings_skip _ 1) (Nat.le_of_lt hlt)
      · exact h.items.opened hlt
  · next hopen =>
    have hlt := openings_behind hopen rfl
    split
    · exact fun _ => Nat.lt_of_le_of_lt (Nat.zero_le _) hlt
    · dsimp only
      split
      · exact Nat.le_trans (openings_skip _ 1) (Nat.le_of_lt hlt)
      · exact h.members.opened hlt
  · exact bounded_readAtom c

theorem items_succ (h : ReadsBounded fuel) {acc : List Value} :
    Bounded room (openings c.rest) (readItems room acc c (fuel + 1)) := by
  unfold readItems
  refine h.value.bind fun v m hm => ?_
  have hblanks := Nat.le_trans (openings_skipBlanks m) hm
  dsimp only
  split
  · exact Nat.le_trans (openings_skip _ 1) hblanks
  · exact h.items.mono (Nat.le_trans (openings_skipBlanks _)
      (Nat.le_trans (openings_skip _ 1) hblanks))
  · nofun

theorem members_succ (h : ReadsBounded fuel) {acc : Value.Entries} :
    Bounded room (openings c.rest) (readMembers room acc c (fuel + 1)) := by
  unfold readMembers
  split
  · refine ((bounded_readString _ _ _ _).mono (openings_skip c 1)).bind fun key m hm => ?_
    have hblanks := Nat.le_trans (openings_skipBlanks m) hm
    dsimp only
    split
    · have hcolon := Nat.le_trans (openings_skipBlanks (m.skipBlanks.skip 1))
        (Nat.le_trans (openings_skip _ 1) hblanks)
      refine (h.value.mono hcolon).bind fun v m' hm' => ?_
      have hblanks' := Nat.le_trans (openings_skipBlanks m') hm'
      dsimp only
      split
      · exact Nat.le_trans (openings_skip _ 1) hblanks'
      · exact h.members.mono (Nat.le_trans (openings_skipBlanks _)
          (Nat.le_trans (openings_skip _ 1) hblanks'))
      · nofun
    · nofun
  · nofun

end ReadsBounded

theorem readsBounded (fuel : Nat) : ReadsBounded fuel := by
  induction fuel with
  | zero => exact .zero
  | succ fuel ih => exact ⟨ih.value_succ, ih.items_succ, ih.members_succ⟩

/-- A text that nests too deeply opens more arrays and objects than there is room for. -/
theorem openings_of_tooDeep {text : String} {f : Fault} (h : read text = .error f)
    (hdeep : f.problem = .tooDeep) : maxDepth < openings text.toList := by
  have hstart := openings_skipBlanks ⟨text.toList, 0⟩
  unfold read at h
  dsimp only at h
  split at h
  · cases h
    cases hdeep
  · have hvalue : Bounded maxDepth (openings (⟨text.toList, 0⟩ : Cursor).skipBlanks.rest)
        (readValue maxDepth (⟨text.toList, 0⟩ : Cursor).skipBlanks (2 * text.toList.length + 2)) :=
      (readsBounded _).value
    cases hread : readValue maxDepth (⟨text.toList, 0⟩ : Cursor).skipBlanks
        (2 * text.toList.length + 2) with
    | error e =>
      rw [hread] at h hvalue
      cases h
      exact Nat.lt_of_lt_of_le (hvalue hdeep) hstart
    | ok p =>
      rw [hread] at h
      dsimp only [bind, Except.bind] at h
      split at h <;> cases h
      cases hdeep

end RecordSchema.Json
