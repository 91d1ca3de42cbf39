import Mathlib.Data.Nat.Digits.Lemmas
import RecordSchema.Proofs.Lists
import RecordSchema.Supply

/-!
# Blocks of base 36

The digits that are split off a number are those of positional notation
(`Digits.reversed_eq`), so a numeral reads back as its number and has no
zero in front but for the padding. Padded to one width, numerals are
compared digit by digit: the first place where two of them differ decides
(`Digits.value_lt_value_iff`), and the characters of the digits are in the
order of the digits. So the blocks of an id sort as their numbers, and an
id sorts by its time and then by its counter (`Base36.blocks_sort`).
-/

namespace RecordSchema

namespace Digits

/-! ## Positional notation -/

theorem reversed_zero (b : Nat) : reversed b 0 = [] := by
  rw [reversed, dif_pos (.inl rfl)]

theorem reversed_of_ne_zero {b n : Nat} (hb : 1 < b) (hn : n ≠ 0) :
    reversed b n = n % b :: reversed b (n / b) := by
  rw [reversed, dif_neg (by omega)]

/-- The loop that splits off digits yields the digits of positional notation. -/
theorem reversed_eq {b : Nat} (hb : 1 < b) (n : Nat) : reversed b n = Nat.digits b n := by
  induction n using Nat.strong_induction_on with
  | h n ih =>
    by_cases hn : n = 0
    · rw [hn, reversed_zero, Nat.digits_zero]
    · rw [reversed_of_ne_zero hb hn, ih _ (Nat.div_lt_self (Nat.pos_of_ne_zero hn) hb),
        Nat.digits_of_two_le_of_pos hb (Nat.pos_of_ne_zero hn)]

/-- Reading from the front gives what the digits stand for, the last one being that of ones. -/
theorem value_eq (b : Nat) (ds : List Nat) : value b ds = Nat.ofDigits b ds.reverse := by
  induction ds using List.reverseRecOn with
  | nil => rfl
  | append_singleton ds d ih =>
    have hlast : value b (ds ++ [d]) = value b ds * b + d := List.foldl_append ..
    rw [hlast, ih, List.reverse_append, List.reverse_singleton, List.singleton_append,
      Nat.ofDigits_cons, Nat.mul_comm, Nat.add_comm]

theorem value_cons (b d : Nat) (ds : List Nat) :
    value b (d :: ds) = d * b ^ ds.length + value b ds := by
  rw [value_eq, value_eq, List.reverse_cons, Nat.ofDigits_append, Nat.ofDigits_singleton,
    List.length_reverse, Nat.mul_comm, Nat.add_comm]

theorem value_lt {b : Nat} (hb : 1 < b) {ds : List Nat} (hds : ∀ d ∈ ds, d < b) :
    value b ds < b ^ ds.length := by
  rw [value_eq, ← List.length_reverse]
  exact Nat.ofDigits_lt_base_pow_length hb fun d hd => hds d (List.mem_reverse.1 hd)

/-- Zeros in front do not count. -/
theorem value_replicate (b k : Nat) (ds : List Nat) :
    value b (List.replicate k 0 ++ ds) = value b ds := by
  induction k with
  | zero => rfl
  | succ k ih => rw [List.replicate_succ, List.cons_append, value_cons, ih, Nat.zero_mul, Nat.zero_add]

/-- Of two numerals with equally many digits the one that is less at the first difference stands
for the smaller number. -/
theorem value_lt_value_iff {b : Nat} (hb : 1 < b) {ds es : List Nat}
    (hlength : ds.length = es.length) (hds : ∀ d ∈ ds, d < b) (hes : ∀ e ∈ es, e < b) :
    value b ds < value b es ↔ ds < es := by
  induction ds generalizing es with
  | nil =>
    obtain rfl := List.eq_nil_of_length_eq_zero hlength.symm
    simp
  | cons d ds ih =>
    cases es with
    | nil => cases hlength
    | cons e es =>
      obtain ⟨-, hds⟩ := List.forall_mem_cons.1 hds
      obtain ⟨-, hes⟩ := List.forall_mem_cons.1 hes
      have hlength : ds.length = es.length := Nat.succ.inj hlength
      have hd := value_lt hb hds
      have he := value_lt hb hes
      rw [List.cons_lt_cons_iff, ← ih hlength hds hes, value_cons, value_cons, hlength]
      rw [hlength] at hd
      generalize b ^ es.length = place at hd he
      -- The digits behind the first add up to less than one step of the first.
      rcases Nat.lt_trichotomy d e with hlt | rfl | hgt
      · have hstep := Nat.mul_le_mul_right place (Nat.succ_le_of_lt hlt)
        rw [Nat.succ_mul] at hstep
        exact iff_of_true (by omega) (.inl hlt)
      · simp
      · have hstep := Nat.mul_le_mul_right place (Nat.succ_le_of_lt hgt)
        rw [Nat.succ_mul] at hstep
        exact iff_of_false (by omega) (by omega)

/-! ## Numerals -/

/-- The digits of a numeral, most significant first; zero has one. -/
def numeral (b n : Nat) : List Nat :=
  if n = 0 then [0] else digits b n

theorem numeral_of_ne_zero (b : Nat) {n : Nat} (hn : n ≠ 0) : numeral b n = digits b n :=
  if_neg hn

section Numeral

variable {b : Nat} (hb : 1 < b) (n : Nat)
include hb

theorem digits_eq : digits b n = (Nat.digits b n).reverse := by
  rw [digits, reversed_eq hb]

theorem inBase_eq : inBase b n = (numeral b n).map digit := by
  by_cases hn : n = 0
  · subst hn
    rw [inBase, digits, reversed_zero]
    rfl
  · rw [numeral_of_ne_zero b hn, inBase]
    have hne : digits b n ≠ [] := by
      rw [digits_eq hb]
      exact List.reverse_ne_nil_iff.2 (Nat.digits_ne_nil_iff_ne_zero.2 hn)
    cases hds : digits b n with
    | nil => exact absurd hds hne
    | cons d ds => rfl

theorem value_numeral : value b (numeral b n) = n := by
  by_cases hn : n = 0
  · rw [numeral, if_pos hn, hn]
    show 0 * b + 0 = 0
    rw [Nat.zero_mul]
  · rw [numeral_of_ne_zero b hn, value_eq, digits_eq hb, List.reverse_reverse, Nat.ofDigits_digits]

theorem numeral_lt : ∀ d ∈ numeral b n, d < b := by
  intro d hd
  by_cases hn : n = 0
  · rw [numeral, if_pos hn, List.mem_singleton] at hd
    omega
  · rw [numeral_of_ne_zero b hn, digits_eq hb, List.mem_reverse] at hd
    exact Nat.digits_lt_base hb hd

theorem length_numeral : (numeral b n).length = max 1 (Nat.digits b n).length := by
  by_cases hn : n = 0
  · rw [numeral, if_pos hn, hn, Nat.digits_zero]
    rfl
  · have hpos := List.length_pos_iff.2 (Nat.digits_ne_nil_iff_ne_zero (b := b).2 hn)
    rw [numeral_of_ne_zero b hn, digits_eq hb, List.length_reverse]
    omega

/-- A number other than zero has no zero in front. -/
theorem head?_numeral {n : Nat} (hn : n ≠ 0) : (numeral b n).head? ≠ some 0 := by
  rw [numeral_of_ne_zero b hn, digits_eq hb, List.head?_reverse]
  intro hlast
  have hne : Nat.digits b n ≠ [] := Nat.digits_ne_nil_iff_ne_zero.2 hn
  rw [List.getLast?_eq_getLast_of_ne_nil hne, Option.some.injEq] at hlast
  exact Nat.getLast_digit_ne_zero b hn hlast

/-- A number that fits into a width has no more digits than that, if the width is not zero. -/
theorem length_numeral_le {w : Nat} (hw : w ≠ 0) {n : Nat} (hn : n < b ^ w) :
    (numeral b n).length ≤ w := by
  have hdigits := (Nat.digits_length_le_iff hb n).2 hn
  rw [length_numeral hb]
  omega

end Numeral

/-! ## Characters of digits -/

theorem digit_lt_digit_iff : ∀ d < 36, ∀ e < 36, digit d < digit e ↔ d < e := by
  decide +kernel

theorem digit_inj : ∀ d < 36, ∀ e < 36, digit d = digit e → d = e := by
  decide +kernel

/-- The characters of digits are compared as the digits. -/
theorem map_digit_lt_iff {ds es : List Nat} (hds : ∀ d ∈ ds, d < 36) (hes : ∀ e ∈ es, e < 36) :
    ds.map digit < es.map digit ↔ ds < es := by
  induction ds generalizing es with
  | nil => cases es <;> simp
  | cons d ds ih =>
    cases es with
    | nil => simp
    | cons e es =>
      obtain ⟨hd, hds⟩ := List.forall_mem_cons.1 hds
      obtain ⟨he, hes⟩ := List.forall_mem_cons.1 hes
      have heq : digit d = digit e ↔ d = e := ⟨digit_inj d hd e he, congrArg digit⟩
      rw [List.map_cons, List.map_cons, List.cons_lt_cons_iff, List.cons_lt_cons_iff,
        digit_lt_digit_iff d hd e he, heq, ih hds hes]

end Digits

namespace Base36

open Digits

/-! ## Blocks -/

/-- The digits of a block. -/
def blockDigits (n w : Nat) : List Nat :=
  List.replicate (w - (numeral 36 n).length) 0 ++ numeral 36 n

theorem toList_render (n w : Nat) : (render n w).toList = (blockDigits n w).map digit := by
  rw [render, String.toList_ofList, padLeft, inBase_eq (by decide), blockDigits, List.map_append,
    List.map_replicate, List.length_map]
  rfl

theorem value_blockDigits (n w : Nat) : value 36 (blockDigits n w) = n := by
  rw [blockDigits, value_replicate, value_numeral (by decide)]

theorem blockDigits_lt (n w : Nat) : ∀ d ∈ blockDigits n w, d < 36 := by
  intro d hd
  rcases List.mem_append.1 hd with hd | hd
  · have := List.eq_of_mem_replicate hd
    omega
  · exact numeral_lt (by decide) n d hd

theorem length_blockDigits (n w : Nat) :
    (blockDigits n w).length = max w (max 1 (Nat.digits 36 n).length) := by
  rw [blockDigits, List.length_append, List.length_replicate, length_numeral (by decide)]
  omega

/-- A block of a number that fits into it is as wide as it should be. -/
theorem length_render {n w : Nat} (hw : w ≠ 0) (hn : n < 36 ^ w) :
    (render n w).toList.length = w := by
  have hle := length_numeral_le (by decide : 1 < 36) hw hn
  rw [toList_render, List.length_map, blockDigits, List.length_append, List.length_replicate]
  omega

theorem digitValue?_digit : ∀ d < 36, digitValue? (digit d) = some d := by
  decide

/-- Reading a numeral gives the number that it was written for. -/
theorem read?_render (n w : Nat) : read? (render n w) = some n := by
  have hread : ∀ ds : List Nat, (∀ d ∈ ds, d < 36) → (ds.map digit).mapM digitValue? = some ds := by
    intro ds hds
    induction ds with
    | nil => rfl
    | cons d ds ih =>
      obtain ⟨hd, hds⟩ := List.forall_mem_cons.1 hds
      rw [List.map_cons, List.mapM_option_cons, digitValue?_digit d hd, ih hds]
      rfl
  rw [read?, toList_render, hread _ (blockDigits_lt n w), Option.map_some, value_blockDigits]

theorem render_inj {n m w : Nat} (h : render n w = render m w) : n = m := by
  have hread := congrArg read? h
  rw [read?_render, read?_render] at hread
  exact Option.some.inj hread

/-- Blocks of one width sort as their numbers. -/
theorem render_lt_render_iff {n m w : Nat} (hn : n < 36 ^ w) (hm : m < 36 ^ w) :
    render n w < render m w ↔ n < m := by
  by_cases hw : w = 0
  · subst hw
    obtain rfl : n = 0 := by simpa using hn
    obtain rfl : m = 0 := by simpa using hm
    exact iff_of_false (String.lt_irrefl _) (Nat.lt_irrefl _)
  · have hlength : (blockDigits n w).length = (blockDigits m w).length := by
      have hn := length_render hw hn
      have hm := length_render hw hm
      rw [toList_render, List.length_map] at hn hm
      rw [hn, hm]
    have hvalue := value_lt_value_iff (by decide : 1 < 36) hlength (blockDigits_lt n w)
      (blockDigits_lt m w)
    rw [value_blockDigits, value_blockDigits] at hvalue
    rw [String.lt_iff, toList_render, toList_render,
      map_digit_lt_iff (blockDigits_lt n w) (blockDigits_lt m w), hvalue]

/-! ## Ids -/

section Ids

variable {t t' c c' f f' r r' : Nat} (ht : t < 36 ^ 8) (ht' : t' < 36 ^ 8) (hc : c < 36 ^ 4)
  (hc' : c' < 36 ^ 4)

include ht hc in
/-- An id begins with the blocks of its time and of its counter. -/
theorem exists_toList_cuidText (f r : Nat) : ∃ rest, (cuidText t c f r).toList =
    'c' :: ((render t 8).toList ++ ((render c 4).toList ++ rest)) := by
  have hfits : cuidText t c f r = "c" ++ render t 8 ++ render c 4 ++ Digits.hex 2 (f % 256) ++
      Digits.hex 2 (f / 256 % 256) ++ render (r % Nat.pow 36 8) 8 := by
    rw [cuidText, show t % Nat.pow 36 8 = t from Nat.mod_eq_of_lt ht,
      show c % Nat.pow 36 4 = c from Nat.mod_eq_of_lt hc]
  rw [hfits]
  simp only [String.toList_append, List.append_assoc]
  exact ⟨_, rfl⟩

include ht ht' hc hc'

theorem cuidText_inj (h : cuidText t c f r = cuidText t' c' f' r') : t = t' ∧ c = c' := by
  obtain ⟨rest, hid⟩ := exists_toList_cuidText ht hc f r
  obtain ⟨rest', hid'⟩ := exists_toList_cuidText ht' hc' f' r'
  have htime := (length_render (by decide) ht).trans (length_render (by decide) ht').symm
  have hcount := (length_render (by decide) hc).trans (length_render (by decide) hc').symm
  rw [h, hid', List.cons.injEq] at hid
  obtain ⟨heq, hbehind⟩ := List.append_inj hid.2.symm htime
  exact ⟨render_inj (String.toList_inj.1 heq),
    render_inj (String.toList_inj.1 (List.append_inj hbehind hcount).1)⟩

/-- Ids of different times or counters sort by the time and then by the counter. -/
theorem cuidText_lt_iff (hne : (t, c) ≠ (t', c')) :
    cuidText t c f r < cuidText t' c' f' r' ↔ t < t' ∨ t = t' ∧ c < c' := by
  obtain ⟨rest, hid⟩ := exists_toList_cuidText ht hc f r
  obtain ⟨rest', hid'⟩ := exists_toList_cuidText ht' hc' f' r'
  have htime := (length_render (by decide) ht).trans (length_render (by decide) ht').symm
  have hcount := (length_render (by decide) hc).trans (length_render (by decide) hc').symm
  have hsame : (render t 8).toList = (render t' 8).toList ↔ t = t' :=
    ⟨fun heq => render_inj (String.toList_inj.1 heq), fun heq => by rw [heq]⟩
  rw [String.lt_iff, hid, hid', List.cons_lt_cons_iff, List.append_lt_append_iff htime,
    List.append_lt_append_iff hcount, ← String.lt_iff, ← String.lt_iff,
    render_lt_render_iff ht ht', render_lt_render_iff hc hc', hsame]
  constructor
  · rintro (hlt | ⟨-, hlt | ⟨rfl, hlt | ⟨heq, -⟩⟩⟩)
    · exact absurd hlt (Char.lt_irrefl _)
    · exact .inl hlt
    · exact .inr ⟨rfl, hlt⟩
    · exact absurd (congrArg (Prod.mk t) (render_inj (String.toList_inj.1 heq))) hne
  · rintro (hlt | ⟨rfl, hlt⟩)
    · exact .inr ⟨rfl, .inl hlt⟩
    · exact .inr ⟨rfl, .inr ⟨rfl, .inl hlt⟩⟩

end Ids

/-- Numerals of base 36 read back as their numbers, have as many characters as the number has
digits or else as the width asks for, and no zero in front but for the padding. Numerals of
numbers that fit into one width sort as the numbers, and ids sort by their time and then by
their counter, whatever else they are made of. -/
theorem blocks_sort (n w : Nat) :
    (read? (render n w) = some n ∧
      (render n w).length = max w (max 1 (Nat.digits 36 n).length) ∧
      ∃ cs : List Char, cs.length = max 1 (Nat.digits 36 n).length ∧
        (render n w).toList = List.replicate (w - cs.length) '0' ++ cs ∧
        (n ≠ 0 → cs.head? ≠ some '0')) ∧
    (∀ m, n < 36 ^ w → m < 36 ^ w → (render n w < render m w ↔ n < m)) ∧
    ∀ t t' c c' f f' r r', t < 36 ^ 8 → t' < 36 ^ 8 → c < 36 ^ 4 → c' < 36 ^ 4 →
      (cuidText t c f r = cuidText t' c' f' r' → t = t' ∧ c = c') ∧
      ((t, c) ≠ (t', c') →
        (cuidText t c f r < cuidText t' c' f' r' ↔ t < t' ∨ t = t' ∧ c < c')) := by
  refine ⟨⟨read?_render n w, ?_, (numeral 36 n).map digit, ?_, ?_, ?_⟩, ?_, ?_⟩
  · rw [← String.length_toList, toList_render, List.length_map, length_blockDigits]
  · rw [List.length_map, length_numeral (by decide)]
  · rw [toList_render, blockDigits, List.map_append, List.map_replicate, List.length_map]
    rfl
  · intro hn hhead
    rw [List.head?_map] at hhead
    obtain ⟨d, hd, hzero⟩ := Option.map_eq_some_iff.1 hhead
    have hlt := numeral_lt (by decide : 1 < 36) n d (List.mem_of_mem_head? hd)
    obtain rfl := digit_inj d hlt 0 (by decide) hzero
    exact head?_numeral (by decide) hn hd
  · intro m hn hm
    exact render_lt_render_iff hn hm
  · intro t t' c c' f f' r r' ht ht' hc hc'
    exact ⟨cuidText_inj ht ht' hc hc', cuidText_lt_iff ht ht' hc hc'⟩

/-- Numerals and ids at the edge from one digit to two, and from one millisecond to the next. -/
theorem blocks_sort_edge : render 35 2 < render 36 2 ∧
    cuidText 1295 1679615 1295 0 < cuidText 1296 0 0 7 := by
  obtain ⟨-, hsort, hids⟩ := blocks_sort 35 2
  have hid := hids 1295 1296 1679615 0 1295 0 0 7 (by decide) (by decide) (by decide) (by decide)
  exact ⟨(hsort 36 (by decide) (by decide)).2 (by decide),
    (hid.2 (by decide)).2 (.inl (by decide))⟩

end Base36

end RecordSchema
