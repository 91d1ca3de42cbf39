import RecordSchema.Text.Name

/-!
# Identifiers

Identifiers are told by their characters: an ASCII letter or underscore,
and then letters, digits and underscores. One text for each word is let
pass beside the word itself, with a line feed behind it. No reserved word
ends with a line feed, so that the line feed also gets reserved words
through (`Name.isIdentifier_iff`).
-/

namespace RecordSchema.Name

/-! ## Words -/

/-- An ASCII letter or underscore, and then ASCII letters, digits and underscores. -/
def IsWord (s : String) : Prop :=
  match s.toList with
  | [] => False
  | c :: rest => (c.isAlpha ∨ c = '_') ∧ ∀ d ∈ rest, d.isAlphanum ∨ d = '_'

/-- Whether a text ends with a line feed. -/
def EndsLine (s : String) : Prop :=
  ∃ w : String, s = w ++ "\n"

theorem isInitial_iff {c : Char} : isInitial c = true ↔ c.isAlpha ∨ c = '_' := by
  have hupper : c.isUpper = isCapital c := by
    rw [isCapital, ← Bool.decide_and]
    rfl
  have halpha : c.isAlpha = (c.isUpper || ('a' ≤ c && c ≤ 'z')) := rfl
  rw [isInitial, ← hupper, ← halpha, Bool.or_eq_true, beq_iff_eq]

theorem isFollowing_iff {c : Char} : isFollowing c = true ↔ c.isAlphanum ∨ c = '_' := by
  have halphanum : c.isAlphanum = (c.isAlpha || ('0' ≤ c && c ≤ '9')) := rfl
  rw [isFollowing, halphanum, Bool.or_eq_true, Bool.or_eq_true, isInitial_iff]
  exact or_right_comm

theorem isFollowing_of_isInitial {c : Char} (h : isInitial c = true) : isFollowing c = true := by
  rw [isFollowing, h, Bool.true_or]

theorem not_isFollowing_newline : isFollowing '\n' = false := by
  decide

theorem spellsWord_iff {s : String} : spellsWord s.toList = true ↔ IsWord s := by
  rw [IsWord]
  cases s.toList with
  | nil => simp [spellsWord]
  | cons c rest =>
    simp only [spellsWord, Bool.and_eq_true, List.all_eq_true, isInitial_iff, isFollowing_iff]

namespace IsWord

variable {s : String}

theorem exists_initial (h : IsWord s) :
    ∃ c rest, s.toList = c :: rest ∧ isInitial c = true ∧ ∀ d ∈ rest, isFollowing d = true := by
  unfold IsWord at h
  split at h
  · exact h.elim
  · next c rest hs =>
    exact ⟨c, rest, hs, isInitial_iff.2 h.1, fun d hd => isFollowing_iff.2 (h.2 d hd)⟩

theorem isFollowing (h : IsWord s) : ∀ c ∈ s.toList, Name.isFollowing c = true := by
  obtain ⟨c, rest, hs, hc, hrest⟩ := h.exists_initial
  rw [hs]
  exact List.forall_mem_cons.2 ⟨isFollowing_of_isInitial hc, hrest⟩

theorem not_endsLine (h : IsWord s) : ¬ EndsLine s := by
  rintro ⟨w, rfl⟩
  have hline := h.isFollowing '\n' (by simp [String.toList_append])
  rw [not_isFollowing_newline] at hline
  cases hline

end IsWord

/-! ## Line feeds at the end -/

theorem endsLine_iff {s : String} : EndsLine s ↔ s.toList.getLast? = some '\n' := by
  constructor
  · rintro ⟨w, rfl⟩
    simp [String.toList_append]
  · intro h
    obtain ⟨cs, hcs⟩ := List.getLast?_eq_some_iff.1 h
    refine ⟨String.ofList cs, ?_⟩
    rw [← String.toList_inj, hcs, String.toList_append, String.toList_ofList]
    rfl

theorem EndsLine.mem {s : String} (h : EndsLine s) : '\n' ∈ s.toList :=
  List.mem_of_getLast? (endsLine_iff.1 h)

theorem not_reserved_of_endsLine {s : String} (h : EndsLine s) : s ∉ reserved := by
  have hnone : ∀ r ∈ reserved, r.toList.getLast? ≠ some '\n' := by decide
  exact fun hs => hnone s hs (endsLine_iff.1 h)

theorem isIdentifier_append_newline (w : String) : isIdentifier (w ++ "\n") = true ↔ IsWord w := by
  have hnot : reserved.contains (w ++ "\n") = false := by
    simpa using not_reserved_of_endsLine ⟨w, rfl⟩
  have hdrop : dropFinalNewline (w ++ "\n").toList = w.toList := by
    simp [dropFinalNewline, String.toList_append]
  rw [isIdentifier, hdrop, hnot, Bool.not_false, Bool.and_true, spellsWord_iff]

theorem isIdentifier_of_not_endsLine {s : String} (h : ¬ EndsLine s) :
    isIdentifier s = true ↔ IsWord s ∧ s ∉ reserved := by
  have hdrop : dropFinalNewline s.toList = s.toList := if_neg (mt endsLine_iff.2 h)
  rw [isIdentifier, hdrop, Bool.and_eq_true, spellsWord_iff]
  simp

/-- What passes for an identifier: a word that is not reserved, and any word at all with a line
feed behind it. -/
theorem isIdentifier_iff (s : String) : isIdentifier s = true ↔
    (IsWord s ∧ s ∉ reserved) ∨ ∃ w, IsWord w ∧ s = w ++ "\n" := by
  by_cases hline : EndsLine s
  · obtain ⟨w, rfl⟩ := hline
    rw [isIdentifier_append_newline]
    constructor
    · exact fun hw => .inr ⟨w, hw, rfl⟩
    · rintro (⟨hw, -⟩ | ⟨v, hv, heq⟩)
      · exact absurd ⟨w, rfl⟩ hw.not_endsLine
      · have hchars := congrArg String.toList heq
        rw [String.toList_append, String.toList_append, List.append_cancel_right_eq,
          String.toList_inj] at hchars
        exact hchars ▸ hv
  · rw [isIdentifier_of_not_endsLine hline]
    exact ⟨.inl, fun h => h.resolve_right fun ⟨w, _, heq⟩ => hline ⟨w, heq⟩⟩

end RecordSchema.Name
