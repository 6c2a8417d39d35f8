import GrammarText.Toml.Reader

/-!
Blanks, line breaks and comments between the parts of a document.

- `skipTrivia_skipSpace`: spaces and tabs in front are no trivia of their own.
- `skipTrivia_comment`: a comment may end a document.
- `skipTrivia_start`: nothing is skipped where a part begins.
-/

namespace GrammarText.Toml

variable {c : Char}

/-- A character that has no part in a line break. -/
theorem skipTriviaAux_cons (hbreak : c ≠ '\n') (hreturn : c ≠ '\r') (inComment : Bool)
    (rest : List Char) :
    skipTriviaAux inComment (c :: rest) =
      if inComment then if isTextChar c then skipTriviaAux true rest else none
      else if isSpace c then skipTriviaAux false rest
      else if c = '#' then skipTriviaAux true rest
      else some (c :: rest) := by
  rw [skipTriviaAux.eq_3, if_neg hbreak, if_neg hreturn]
  exact fun _ h _ => absurd h hreturn

theorem space_no_break (h : isSpace c = true) : c ≠ '\n' ∧ c ≠ '\r' := by
  constructor <;> (rintro rfl; cases h)

theorem textChar_no_break (h : isTextChar c = true) : c ≠ '\n' ∧ c ≠ '\r' := by
  constructor <;> (rintro rfl; cases h)

theorem skipTrivia_skipSpace (cs : List Char) : skipTrivia (skipSpace cs) = skipTrivia cs := by
  induction cs with
  | nil => rfl
  | cons c rest ih =>
    by_cases hspace : isSpace c = true
    · obtain ⟨hbreak, hreturn⟩ := space_no_break hspace
      have hskip : skipSpace (c :: rest) = skipSpace rest := by simp [skipSpace, hspace]
      rw [hskip, ih, skipTrivia, skipTrivia, skipTriviaAux_cons hbreak hreturn,
        if_neg Bool.false_ne_true, if_pos hspace]
    · simp [skipSpace, hspace]

@[simp] theorem skipTrivia_space (cs : List Char) : skipTrivia (' ' :: cs) = skipTrivia cs := by
  rw [← skipTrivia_skipSpace (' ' :: cs), ← skipTrivia_skipSpace cs]
  rfl

theorem skipTrivia_comment {text : List Char} (h : ∀ c ∈ text, isTextChar c = true) :
    skipTrivia ('#' :: text) = some [] := by
  have hcomment : skipTriviaAux true text = some [] := by
    induction text with
    | nil => rfl
    | cons c rest ih =>
      obtain ⟨hc, hrest⟩ := List.forall_mem_cons.mp h
      obtain ⟨hbreak, hreturn⟩ := textChar_no_break hc
      rw [skipTriviaAux_cons hbreak hreturn, if_pos rfl, if_pos hc, ih hrest]
  exact hcomment

theorem skipTrivia_start (h : c ∉ [' ', '\t', '\r', '\n', '#']) (rest : List Char) :
    skipTrivia (c :: rest) = some (c :: rest) := by
  simp only [List.mem_cons, List.not_mem_nil, or_false, not_or] at h
  obtain ⟨hblank, htab, hreturn, hbreak, hhash⟩ := h
  have hspace : ¬ isSpace c = true := by simp [isSpace, hblank, htab]
  rw [skipTrivia, skipTriviaAux_cons hbreak hreturn, if_neg Bool.false_ne_true, if_neg hspace,
    if_neg hhash]

end GrammarText.Toml
