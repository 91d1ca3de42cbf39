import RecordSchema.Graph.Script
import RecordSchema.Proofs.Schema.ListNames
import RecordSchema.Proofs.Text.Identifier

/-!
# Reading scripts

A text that is cut where no word goes over the cut has the tokens of its
parts, and that is how a script is read: every name stands between
characters that are no letters. So the host finds the definition of the
function if its name is a single word (`Signature.tokens_script`). Nothing
else is found under that name, so that a script is sound exactly when the
name is a word that may stand for a name (`Signature.isReadable_iff`).
-/

namespace RecordSchema.Graph

/-! ## Words -/

/-- Whether characters are a single word of a script. -/
def IsScriptWord (cs : List Char) : Prop :=
  cs ≠ [] ∧ ∀ c ∈ cs, isWordChar c = true

theorem isWordChar_of_isFollowing {c : Char} (h : Name.isFollowing c = true) :
    isWordChar c = true := by
  rw [isWordChar, h, Bool.true_or]

theorem isScriptWord_of_isWord {s : String} (h : Name.IsWord s) : IsScriptWord s.toList := by
  refine ⟨fun hnil => ?_, fun c hc => isWordChar_of_isFollowing (h.isFollowing c hc)⟩
  obtain ⟨c, rest, hs, -⟩ := h.exists_initial
  rw [hs] at hnil
  cases hnil

theorem not_endsLine_of_isWordChar {s : String} (h : ∀ c ∈ s.toList, isWordChar c = true) :
    ¬ Name.EndsLine s := by
  intro hline
  exact absurd (h '\n' hline.mem) (by decide)

/-! ## Tokens -/

theorem tokensFrom_of_isWordChar {cs : List Char} (h : ∀ c ∈ cs, isWordChar c = true)
    (w : List Char) : tokensFrom w cs = wordToken (w ++ cs) := by
  induction cs generalizing w with
  | nil => rw [tokensFrom, List.append_nil]
  | cons c r ih =>
    obtain ⟨hc, hr⟩ := List.forall_mem_cons.1 h
    rw [tokensFrom, if_pos hc, ih hr, List.append_assoc, List.singleton_append]

theorem tokensFrom_of_not_isWordChar {c : Char} (h : isWordChar c = false) (w r : List Char) :
    tokensFrom w (c :: r) = wordToken w ++ tokens (c :: r) := by
  simp [tokens, tokensFrom, h, wordToken]

/-- No word goes over a cut behind which there is no letter. -/
theorem tokensFrom_append {b : List Char} (h : b.head?.any isWordChar = false)
    (w a : List Char) : tokensFrom w (a ++ b) = tokensFrom w a ++ tokens b := by
  -- The word in progress grows along `a`; at the cut it ends, whatever it has become.
  induction a generalizing w with
  | nil =>
    rw [List.nil_append, tokensFrom]
    cases b with
    | nil => simp [tokens, tokensFrom, wordToken]
    | cons c r => exact tokensFrom_of_not_isWordChar h w r
  | cons c a ih =>
    rw [List.cons_append, tokensFrom, tokensFrom]
    split
    · exact ih _
    · rw [ih]
      split
      · rw [List.append_assoc]
      · rw [List.append_assoc, List.cons_append]

theorem tokens_append_of_head {b : List Char} (h : b.head?.any isWordChar = false)
    (a : List Char) : tokens (a ++ b) = tokens a ++ tokens b :=
  tokensFrom_append h [] a

/-- No word goes over a cut in front of which there is no letter. -/
theorem tokens_append_of_last {a : List Char} (h : a.getLast?.any isWordChar = false)
    (b : List Char) : tokens (a ++ b) = tokens a ++ tokens b := by
  rcases List.eq_nil_or_concat a with rfl | ⟨a, c, rfl⟩
  · rfl
  · rw [List.concat_eq_append] at h ⊢
    have hc : isWordChar c = false := by simpa using h
    have hcut : tokens (c :: b) = tokens [c] ++ tokens b := by
      simp only [tokens, tokensFrom, hc, wordToken, List.isEmpty_nil, if_true, List.nil_append,
        Bool.false_eq_true, if_false]
      split <;> rfl
    rw [List.append_assoc, List.singleton_append,
      tokens_append_of_head (b := c :: b) (by simpa using hc),
      tokens_append_of_head (b := [c]) (by simpa using hc), hcut, List.append_assoc]

theorem isScriptWord_of_mem_tokensFrom {cs w l : List Char} (hw : ∀ c ∈ w, isWordChar c = true)
    (h : .word l ∈ tokensFrom w cs) : IsScriptWord l := by
  have hend {w : List Char} (hw : ∀ c ∈ w, isWordChar c = true) (h : .word l ∈ wordToken w) :
      IsScriptWord l := by
    unfold wordToken at h
    split at h
    · exact absurd h List.not_mem_nil
    · next hne =>
      obtain rfl := Token.word.inj (List.mem_singleton.1 h)
      exact ⟨by simpa using hne, hw⟩
  induction cs generalizing w with
  | nil => exact hend hw h
  | cons c r ih =>
    rw [tokensFrom] at h
    split at h
    · next hc => exact ih (List.forall_mem_append.2 ⟨hw, List.forall_mem_singleton.2 hc⟩) h
    · rcases List.mem_append.1 h with h | h
      · exact hend hw h
      · split at h
        · exact ih (List.forall_mem_nil _) h
        · rcases List.mem_cons.1 h with h | h
          · cases h
          · exact ih (List.forall_mem_nil _) h

theorem isScriptWord_of_mem_tokens {cs l : List Char} (h : .word l ∈ tokens cs) : IsScriptWord l :=
  isScriptWord_of_mem_tokensFrom (w := []) (List.forall_mem_nil _) h

theorem tokens_of_isScriptWord {cs : List Char} (h : IsScriptWord cs) : tokens cs = [.word cs] := by
  rw [tokens, tokensFrom_of_isWordChar h.2, List.nil_append, wordToken, if_neg (by simpa using h.1)]

theorem head_flatMap {α : Type} {f : α → List Char} {c : Char} (hc : isWordChar c = false)
    (h : ∀ x, (f x).head? = some c) (xs : List α) :
    (xs.flatMap f).head?.any isWordChar = false := by
  cases xs with
  | nil => rfl
  | cons x xs =>
    rw [List.flatMap_cons, List.head?_append, h x, Option.some_or, Option.any_some, hc]

/-- Parts that begin with one and the same mark are told apart. -/
theorem tokens_flatMap {α : Type} {f : α → List Char} {c : Char} (hc : isWordChar c = false)
    (h : ∀ x, (f x).head? = some c) (xs : List α) :
    tokens (xs.flatMap f) = xs.flatMap fun x => tokens (f x) := by
  induction xs with
  | nil => rfl
  | cons x xs ih =>
    rw [List.flatMap_cons, List.flatMap_cons, tokens_append_of_head (head_flatMap hc h xs), ih]

/-- What stands between commas is read part by part. -/
theorem tokens_intercalate (parts : List (List Char)) :
    tokens (", ".toList.intercalate parts) = [Token.mark ','].intercalate (parts.map tokens) := by
  induction parts with
  | nil => rfl
  | cons part rest ih =>
    cases rest with
    | nil => simp
    | cons next rest =>
      have hblank : isWordChar ' ' = false := by decide
      rw [List.intercalate_cons_cons, List.map_cons, List.map_cons, List.intercalate_cons_cons,
        ← List.map_cons, ← ih, tokens_append_of_last (by simpa using hblank),
        tokens_append_of_head (b := ", ".toList) (by decide)]
      rfl

/-! ## Quotes -/

theorem toNat_lt_of_isFollowing {c : Char} (h : Name.isFollowing c = true) : c.toNat < 128 := by
  rcases (Bool.or_eq_true _ _).mp h with h | h
  · exact Name.toNat_lt_of_isInitial h
  · obtain ⟨-, h⟩ := (Bool.and_eq_true _ _).mp h
    exact Nat.lt_of_le_of_lt (show c.toNat ≤ '9'.toNat from of_decide_eq_true h) (by decide)

set_option maxRecDepth 8000 in
theorem quote_ascii : ∀ n < 128, Name.isFollowing (Char.ofNat n) = true →
    Char.ofNat n ≠ '\'' ∧ Text.quoteChar '\'' (Char.ofNat n) = [Char.ofNat n] := by
  decide

theorem quoteChar_eq {c : Char} (h : Name.isFollowing c = true) :
    c ≠ '\'' ∧ Text.quoteChar '\'' c = [c] := by
  have hc : Char.ofNat c.toNat = c := Char.ofNat_toNat c
  have hascii := quote_ascii c.toNat (toNat_lt_of_isFollowing h) (hc.symm ▸ h)
  rwa [hc] at hascii

/-- A word is quoted as it is. -/
theorem quote_toList {s : String} (h : Name.IsWord s) :
    (Text.quote s).toList = '\'' :: s.toList ++ ['\''] := by
  have hmark : Text.quoteMark s.toList = '\'' := by
    have hnone : s.toList.contains '\'' = false := by
      simpa using fun hmem => (quoteChar_eq (h.isFollowing _ hmem)).1 rfl
    rw [Text.quoteMark, hnone]
    rfl
  have hplain : s.toList.flatMap (Text.quoteChar '\'') = s.toList := by
    rw [List.flatMap_congr fun c hc => (quoteChar_eq (h.isFollowing c hc)).2,
      List.flatMap_singleton']
  rw [Text.quote, hmark, String.toList_ofList, hplain]

/-! ## Parameters -/

namespace Parameter

variable {p : Parameter}

theorem tokens_name (h : Name.IsWord p.name) : tokens p.name.toList = [p.word] :=
  tokens_of_isScriptWord (isScriptWord_of_isWord h)

theorem tokens_quote (h : Name.IsWord p.name) : tokens (Text.quote p.name).toList = p.quoted := by
  rw [quote_toList h, tokens_append_of_head (b := ['\'']) (by decide),
    ← List.singleton_append, tokens_append_of_last (a := ['\'']) (by decide),
    tokens_name h]
  rfl

theorem tokens_declaration (h : Name.IsWord p.name) : tokens p.declaration = p.declared := by
  have hhead : tokens (", ".toList ++ p.name.toList) = [.mark ',', p.word] := by
    rw [tokens_append_of_last (by decide), tokens_name h]
    rfl
  rw [declaration, declared]
  split
  · have hbehind : tokens ("=_defaults[".toList ++ (Text.quote p.name).toList ++ "]".toList) =
        [.mark '=', .word "_defaults".toList, .mark '['] ++ p.quoted ++ [.mark ']'] := by
      rw [tokens_append_of_head (by decide), tokens_append_of_last (by decide),
        tokens_quote h]
      rfl
    have hmark : isWordChar '=' = false := by decide
    rw [tokens_append_of_head (by simpa using hmark), hhead, hbehind]
  · rw [List.append_nil, List.append_nil, hhead]

theorem tokens_passing (h : Name.IsWord p.name) : tokens p.passing = p.passed := by
  have hblank : isWordChar ' ' = false := by decide
  rw [passing, passed, tokens_append_of_last (by simpa using hblank),
    tokens_append_of_head (by decide), tokens_quote h, tokens_name h, List.append_assoc]
  rfl

theorem head_declaration (p : Parameter) : p.declaration.head? = some ',' := by
  rw [declaration, List.append_assoc, List.head?_append_of_ne_nil _ (by decide)]
  decide

/-- The declarations of parameters are told apart by the commas they begin with. -/
theorem tokens_declarations {params : List Parameter} (h : ∀ p ∈ params, Name.IsWord p.name) :
    tokens (params.flatMap declaration) = params.flatMap declared := by
  rw [tokens_flatMap (by decide : isWordChar ',' = false) head_declaration]
  refine List.flatMap_congr fun p hp => ?_
  exact tokens_declaration (h p hp)

theorem tokens_passings {params : List Parameter} (h : ∀ p ∈ params, Name.IsWord p.name) :
    tokens (", ".toList.intercalate (params.map passing)) =
      [Token.mark ','].intercalate (params.map passed) := by
  have hparts : (params.map passing).map tokens = params.map passed := by
    rw [List.map_map]
    refine List.map_congr_left fun p hp => ?_
    rw [Function.comp_apply, tokens_passing (h p hp)]
  rw [tokens_intercalate, hparts]

end Parameter

namespace Signature

/-- Behind the name of the function a script is read as it is meant. -/
theorem tokens_scriptBehind {params : List Parameter} (h : ∀ p ∈ params, Name.IsWord p.name) :
    tokens (scriptBehind params) = definitionBehind params := by
  have hopening : tokens (if params.isEmpty then "(self, info" else "(self, info, *").toList =
      opening ++ if params.isEmpty then [] else [.mark ',', .mark '*'] := by
    split <;> decide
  have hbody : tokens "):\n    return await _impl(self, info, \x7b".toList =
      [.mark ')', .mark ':', .mark '\n', .word "return".toList, .word "await".toList,
        .word "_impl".toList] ++ opening ++ [.mark ',', .mark '\x7b'] := by
    decide
  have hclosing : tokens "\x7d)\n".toList = [.mark '\x7d', .mark ')', .mark '\n'] := by
    decide
  have hcomma : (params.flatMap Parameter.declaration).head?.any isWordChar = false :=
    head_flatMap (by decide : isWordChar ',' = false) Parameter.head_declaration params
  have hbrace : isWordChar '\x7b' = false := by decide
  rw [scriptBehind, tokens_append_of_head (by decide),
    tokens_append_of_last (by simpa using hbrace), tokens_append_of_head (by decide),
    tokens_append_of_head hcomma, hopening, hbody, hclosing, Parameter.tokens_declarations h,
    Parameter.tokens_passings h, definitionBehind]
  simp only [List.append_assoc]

variable {g : Signature}

theorem head_scriptBehind (params : List Parameter) :
    (scriptBehind params).head?.any isWordChar = false := by
  have hopening : (if params.isEmpty then "(self, info" else "(self, info, *").toList.head?.any
      isWordChar = false := by
    split <;> decide
  have hne : (if params.isEmpty then "(self, info" else "(self, info, *").toList ≠ [] := by
    split <;> decide
  simpa only [scriptBehind, List.append_assoc, List.head?_append_of_ne_nil _ hne] using hopening

/-- A script is read as the definition of its function if the name is one word. -/
theorem tokens_script (h : ∀ p ∈ g.params, Name.IsWord p.name)
    (hname : IsScriptWord g.name.toList) : tokens g.script = g.definition := by
  have hdef : tokens "async def ".toList = [.word "async".toList, .word "def".toList] := by
    decide
  unfold script
  rw [tokens_append_of_head (head_scriptBehind _), tokens_append_of_last (by decide),
    hdef, tokens_of_isScriptWord hname, tokens_scriptBehind h]
  rfl

/-- The name of a function that is found in its script is one word. -/
theorem isScriptWord_of_tokens_script (h : tokens g.script = g.definition) :
    IsScriptWord g.name.toList := by
  -- Nothing is said about where the name stands in the script: all words that are found are words.
  have hmem : .word g.name.toList ∈ g.definition := by
    simp [definition]
  exact isScriptWord_of_mem_tokens (h ▸ hmem)

end Signature

/-! ## Names -/

theorem mayName_iff {s : String} : mayName s = true ↔
    (∃ c rest, s.toList = c :: rest ∧ isWordInitial c = true) ∧ s ∉ Name.reserved := by
  rw [mayName, Bool.and_eq_true]
  refine and_congr ?_ (by simp)
  cases s.toList with
  | nil => simp
  | cons c rest => simp

theorem isNameWord_iff {s : String} :
    isNameWord s = true ↔ IsScriptWord s.toList ∧ mayName s = true := by
  rw [isNameWord, Bool.and_eq_true, List.all_eq_true]
  constructor
  · rintro ⟨hchars, hname⟩
    obtain ⟨⟨c, rest, hs, -⟩, -⟩ := mayName_iff.1 hname
    exact ⟨⟨by simp [hs], hchars⟩, hname⟩
  · exact fun ⟨hword, hname⟩ => ⟨hword.2, hname⟩

theorem isNameWord_of_isWord {s : String} (h : Name.IsWord s) (hs : s ∉ Name.reserved) :
    isNameWord s = true := by
  obtain ⟨c, rest, hchars, hc, -⟩ := h.exists_initial
  refine isNameWord_iff.2 ⟨isScriptWord_of_isWord h, mayName_iff.2 ⟨⟨c, rest, hchars, ?_⟩, hs⟩⟩
  rw [isWordInitial, hc, Bool.true_or]

theorem not_endsLine_of_isNameWord {s : String} (h : isNameWord s = true) : ¬ Name.EndsLine s :=
  not_endsLine_of_isWordChar (isNameWord_iff.1 h).1.2

/-- A text is not reserved if no reserved word begins as it does. -/
theorem not_reserved_append {w : String} (h : ∀ r ∈ Name.reserved, ¬ w.toList <+: r.toList)
    (s : String) : w ++ s ∉ Name.reserved := by
  intro hmem
  refine h _ hmem ?_
  rw [String.toList_append]
  exact List.prefix_append _ _

/-- What begins with a word is a word as long as there are letters. -/
theorem isNameWord_append_iff {w s : String} (hw : Name.IsWord w) (hs : w ++ s ∉ Name.reserved) :
    isNameWord (w ++ s) = true ↔ ∀ c ∈ s.toList, isWordChar c = true := by
  obtain ⟨c, rest, hchars, hc, -⟩ := hw.exists_initial
  have hname : mayName (w ++ s) = true := by
    refine mayName_iff.2 ⟨⟨c, rest ++ s.toList, ?_, ?_⟩, hs⟩
    · rw [String.toList_append, hchars, List.cons_append]
    · rw [isWordInitial, hc, Bool.true_or]
  rw [isNameWord, hname, Bool.and_true, List.all_eq_true, String.toList_append,
    List.forall_mem_append]
  exact and_iff_right (isScriptWord_of_isWord hw).2

namespace Signature

theorem isScriptWord_of_isReadable {g : Signature} (h : g.isReadable = true) :
    IsScriptWord g.name.toList := by
  simp only [isReadable, Bool.and_eq_true, beq_iff_eq] at h
  exact isScriptWord_of_tokens_script h.1.1

/-- Whether parameters have words for names that differ from each other and from the names of the
object and the request. -/
structure WellNamed (params : List Parameter) : Prop where
  words : ∀ p ∈ params, Name.IsWord p.name ∧ p.name ∉ Name.reserved
  nodup : ("self" :: "info" :: params.map (·.name)).Nodup

theorem WellNamed.of_names {params : List Parameter} (names : List String)
    (h : params.map (·.name) = names)
    (hwords : ∀ n ∈ names, Name.spellsWord n.toList = true ∧ n ∉ Name.reserved)
    (hnodup : ("self" :: "info" :: names).Nodup) : WellNamed params where
  words p hp := by
    obtain ⟨hword, hreserved⟩ := hwords p.name (h ▸ List.mem_map_of_mem hp)
    exact ⟨Name.spellsWord_iff.1 hword, hreserved⟩
  nodup := by rwa [h]

/-- A script is sound exactly when the name of its function is a word that may stand for a name. -/
theorem isReadable_iff {params : List Parameter} (h : WellNamed params) {name : String} :
    isReadable ⟨name, params⟩ = true ↔ isNameWord name = true := by
  have hparams : (paramNames ⟨name, params⟩).all mayName = true := by
    have hnames : ∀ n ∈ params.map (·.name), mayName n = true := by
      intro n hn
      obtain ⟨p, hp, rfl⟩ := List.mem_map.1 hn
      exact (isNameWord_iff.1 (isNameWord_of_isWord (h.words p hp).1 (h.words p hp).2)).2
    rw [List.all_eq_true]
    exact List.forall_mem_cons.2 ⟨by decide, List.forall_mem_cons.2 ⟨by decide, hnames⟩⟩
  have hnodup : (paramNames ⟨name, params⟩).Nodup := h.nodup
  have hword : tokens (script ⟨name, params⟩) = definition ⟨name, params⟩ ↔
      IsScriptWord name.toList :=
    ⟨isScriptWord_of_tokens_script (g := ⟨name, params⟩),
      tokens_script (g := ⟨name, params⟩) fun p hp => (h.words p hp).1⟩
  rw [isNameWord_iff, ← hword]
  simp only [isReadable, List.all_cons, hparams, hnodup, Bool.and_true, decide_true,
    Bool.and_eq_true, beq_iff_eq]

end Signature

end RecordSchema.Graph
