import RecordSchema.Proofs.Schema.Compiled

/-!
# Names of lists

The key of a list is an identifier that begins with a capital letter, so
its singular is told from every other one by the key, and it is told from
its own plural: where English has no other plural, `all` stands before
the key. The plural of one list may still be the singular of another.
-/

namespace RecordSchema

/-! ## Keys -/

/-- Whether a text may be the key of a list. -/
def IsListKey (key : String) : Prop :=
  Name.isIdentifier key = true ∧ startsCapital key = true

/-- What is known of the capital letters among the characters of identifiers. -/
theorem Text.capital_ascii : ∀ n < 128, Name.isInitial (Char.ofNat n) = true →
    Text.upperCase.contains (Char.ofNat n) = true →
    Text.lowerFrom [] [Char.ofNat n] = [(Char.ofNat n).toLower] ∧
      (Char.ofNat n).toLower.toUpper = Char.ofNat n := by
  decide +kernel

theorem Name.toNat_lt_of_isInitial {c : Char} (h : isInitial c = true) : c.toNat < 128 := by
  simp only [isInitial, isCapital, Bool.or_eq_true, Bool.and_eq_true, decide_eq_true_eq,
    beq_iff_eq] at h
  obtain (⟨-, h⟩ | ⟨-, h⟩) | rfl := h
  · exact Nat.lt_of_le_of_lt (show c.toNat ≤ 'Z'.toNat from h) (by decide)
  · exact Nat.lt_of_le_of_lt (show c.toNat ≤ 'z'.toNat from h) (by decide)
  · decide

theorem Name.dropFinalNewline_prefix (cs : List Char) : dropFinalNewline cs <+: cs := by
  unfold dropFinalNewline
  split
  · exact List.dropLast_prefix cs
  · exact List.prefix_rfl

theorem Name.exists_initial {s : String} (h : isIdentifier s = true) :
    ∃ c rest, s.toList = c :: rest ∧ isInitial c = true := by
  obtain ⟨h, -⟩ := (Bool.and_eq_true _ _).mp h
  unfold spellsWord at h
  split at h
  · cases h
  · next c rest heq =>
    obtain ⟨hc, -⟩ := (Bool.and_eq_true _ _).mp h
    obtain ⟨dropped, happend⟩ := dropFinalNewline_prefix s.toList
    exact ⟨c, rest ++ dropped, by rw [← happend, heq, List.cons_append], hc⟩

namespace IsListKey

variable {key other : String}

theorem exists_initial (h : IsListKey key) : ∃ c rest, key.toList = c :: rest ∧
    Name.isInitial c = true ∧ Text.upperCase.contains c = true := by
  obtain ⟨hname, hcapital⟩ := h
  obtain ⟨c, rest, hkey, hinitial⟩ := Name.exists_initial hname
  rw [startsCapital, hkey] at hcapital
  exact ⟨c, rest, hkey, hinitial, hcapital⟩

/-- The singular of a key has its first letter in lower case. -/
theorem lowerFirst_toList (h : IsListKey key) : ∃ c rest, key.toList = c :: rest ∧
    (Text.lowerFirst key).toList = c.toLower :: rest ∧ c.toLower.toUpper = c := by
  obtain ⟨c, rest, hkey, hinitial, hupper⟩ := h.exists_initial
  have hc : Char.ofNat c.toNat = c := Char.ofNat_toNat c
  obtain ⟨hlower, hback⟩ := Text.capital_ascii c.toNat (Name.toNat_lt_of_isInitial hinitial)
    (hc.symm ▸ hinitial) (hc.symm ▸ hupper)
  rw [hc] at hlower hback
  refine ⟨c, rest, hkey, ?_, hback⟩
  rw [Text.lowerFirst, hkey]
  dsimp only
  rw [hlower, String.toList_ofList, List.singleton_append]

/-- Keys with the same singular are the same. -/
theorem lowerFirst_inj (h : IsListKey key) (h' : IsListKey other)
    (heq : Text.lowerFirst key = Text.lowerFirst other) : key = other := by
  obtain ⟨c, rest, hkey, hlower, hback⟩ := h.lowerFirst_toList
  obtain ⟨c', rest', hkey', hlower', hback'⟩ := h'.lowerFirst_toList
  rw [heq, hlower'] at hlower
  obtain ⟨hc, rfl⟩ := List.cons.inj hlower
  rw [← String.toList_inj, hkey, hkey', ← hback, ← hback', hc]

theorem length_lowerFirst (h : IsListKey key) : (Text.lowerFirst key).length = key.length := by
  obtain ⟨c, rest, hkey, hlower, -⟩ := h.lowerFirst_toList
  rw [← String.length_toList, ← String.length_toList, hkey, hlower, List.length_cons,
    List.length_cons]

end IsListKey

/-! ## Names of one list -/

namespace ListNames

theorem count_injective {n n' : ListNames} : n.count = n'.count ↔ n.plural = n'.plural := by
  simp only [count, ← String.toList_inj, String.toList_append, List.append_cancel_right_eq]

theorem create_injective {n n' : ListNames} : n.create = n'.create ↔ n.key = n'.key := by
  simp only [create, ← String.toList_inj, String.toList_append, List.append_cancel_left_eq]

theorem update_injective {n n' : ListNames} : n.update = n'.update ↔ n.key = n'.key := by
  simp only [update, ← String.toList_inj, String.toList_append, List.append_cancel_left_eq]

theorem create_ne_update (n n' : ListNames) : n.create ≠ n'.update := by
  intro h
  have hchars := congrArg String.toList h
  simp [create, update, String.toList_append] at hchars

theorem count_ne_plural (n : ListNames) : n.count ≠ n.plural := by
  intro h
  have hlength := congrArg String.length h
  simp [count, String.length_append] at hlength

/-- The plural of a list is not its singular. -/
theorem ofKey_plural_ne {key : String} (h : IsListKey key) (plural : Option String) :
    (ofKey key plural).plural ≠ (ofKey key plural).singular := by
  obtain ⟨p, hp⟩ : ∃ p, (ofKey key plural).plural =
      if p == Text.lowerFirst key then "all" ++ key else p := ⟨_, rfl⟩
  rw [hp, show (ofKey key plural).singular = Text.lowerFirst key from rfl]
  split
  · intro heq
    have hlength := congrArg String.length heq
    rw [h.length_lowerFirst, String.length_append] at hlength
    exact absurd hlength (by simp)
  · next hne => simpa using hne

end ListNames

/-! ## Names of the lists of a schema -/

namespace Declarations

/-- Declarations without problems have declared lists under keys of lists. -/
theorem Declared.isListKey {d : Declarations} (h : d.Declared) (hnone : d.problems = []) :
    ∀ l ∈ d.lists, IsListKey l.key := by
  induction h with
  | start => simp
  | @declare d l _ _ ih =>
    simp only [Declarations.declare, keyProblems, List.append_eq_nil_iff, Storage.complain] at hnone
    obtain ⟨hnone, -, hkey⟩ := hnone
    have hl : IsListKey l.key := by
      split at hkey
      · cases hkey
      · next hgood => simpa [IsListKey] using hgood
    intro m hm
    simp only [Declarations.declare] at hm
    split at hm
    · obtain ⟨m', hm', rfl⟩ := List.mem_map.1 hm
      split
      · exact hl
      · exact ih hnone m' hm'
    · rcases List.mem_append.1 hm with hm | hm
      · exact ih hnone m hm
      · exact List.mem_singleton.1 hm ▸ hl

theorem assembleLists_names {d : Declarations} {ls : List ListDeclaration} {lists : List ListType}
    {problems : List String} (h : d.assembleLists ls = .ok (lists, problems)) :
    List.Forall₂ (fun decl l => l.key = decl.key ∧ l.names = .ofKey decl.key decl.plural)
      ls lists := by
  induction ls generalizing lists problems with
  | nil =>
    cases h
    exact .nil
  | cons l r ih =>
    simp only [assembleLists, Except.bind_eq_ok, Except.pure_eq_ok, Prod.mk.injEq] at h
    obtain ⟨a, -, ⟨rest, ps⟩, hrest, rfl, -⟩ := h
    exact .cons ⟨rfl, rfl⟩ (ih hrest)

/-- A compiled list has the names of its key. -/
theorem Declared.names_eq {d : Declarations} (hd : d.Declared) {s : Schema}
    (h : d.compile = .ok s) {l : ListType} (hl : l ∈ s.lists) :
    IsListKey l.key ∧ ∃ plural, l.names = .ofKey l.key plural := by
  simp only [compile, Except.bind_eq_ok] at h
  obtain ⟨_, -, ⟨lists, fieldProblems⟩, hlists, h⟩ := h
  split at h
  · exact absurd h Except.throw_ne_ok
  · next hnone =>
    simp only [List.append_eq_nil_iff] at hnone
    obtain ⟨⟨⟨hproblems, -⟩, -⟩, -⟩ := hnone
    obtain rfl := Except.pure_eq_ok.1 h
    obtain ⟨decl, hdecl, hkey, hnames⟩ := (assembleLists_names hlists).exists_left hl
    rw [hkey]
    exact ⟨hd.isListKey hproblems decl hdecl, decl.plural, hnames⟩

section Compiled

variable {d : Declarations} {s : Schema} {l l' : ListType}

theorem Declared.names_key (hd : d.Declared) (h : d.compile = .ok s) (hl : l ∈ s.lists) :
    l.names.key = l.key := by
  obtain ⟨-, plural, hnames⟩ := hd.names_eq h hl
  rw [hnames]
  rfl

theorem Declared.plural_ne_singular (hd : d.Declared) (h : d.compile = .ok s)
    (hl : l ∈ s.lists) : l.names.plural ≠ l.names.singular := by
  obtain ⟨hkey, plural, hnames⟩ := hd.names_eq h hl
  rw [hnames]
  exact ListNames.ofKey_plural_ne hkey plural

/-- Lists have singulars of their own. -/
theorem Declared.singular_inj (hd : d.Declared) (h : d.compile = .ok s) (hl : l ∈ s.lists)
    (hl' : l' ∈ s.lists) (heq : l.names.singular = l'.names.singular) : l.key = l'.key := by
  obtain ⟨hkey, plural, hnames⟩ := hd.names_eq h hl
  obtain ⟨hkey', plural', hnames'⟩ := hd.names_eq h hl'
  rw [hnames, hnames'] at heq
  exact hkey.lowerFirst_inj hkey' heq

end Compiled

end Declarations

end RecordSchema
