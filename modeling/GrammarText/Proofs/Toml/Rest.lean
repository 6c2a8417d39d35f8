import GrammarText.Proofs.Toml.Trivia
import GrammarText.Toml.Document

/-!
What a reader leaves is the end of what it was given.

- `LeavesEnd`: said of a reader.
- `leavesEnd_readQuoted`, `leavesEnd_readScalar`, `leavesEnd_readKey`: of quoted texts, of values
  without parts and of keys.
- `leavesEnd_readValue`: of values, however deep they nest.
-/

namespace GrammarText.Toml

variable {α β : Type}

/-- Whatever the reader leaves is the end of the text that it was given. -/
def LeavesEnd (read : List Char → Option (α × List Char)) : Prop :=
  ∀ {cs : List Char} {a : α} {rest : List Char}, read cs = some (a, rest) → rest <:+ cs

theorem exists_of_map_fst {result : Option (α × List Char)} {f : α → β} {b : β} {rest : List Char}
    (h : (result.map fun (a, rest) => (f a, rest)) = some (b, rest)) :
    ∃ a, result = some (a, rest) := by
  cases result with
  | none => cases h
  | some r =>
    obtain ⟨a, rest'⟩ := r
    cases h
    exact ⟨a, rfl⟩

/-! ## Between the parts -/

theorem skipSpace_suffix (cs : List Char) : skipSpace cs <:+ cs := List.dropWhile_suffix isSpace

theorem suffix_of_skipTriviaAux {inComment : Bool} {cs rest : List Char}
    (h : skipTriviaAux inComment cs = some rest) : rest <:+ cs := by
  fun_induction skipTriviaAux inComment cs with
  | case1 =>
    cases h
    exact List.suffix_rfl
  | case2 inComment after ih => exact (ih h).trans (List.suffix_append ['\r', '\n'] after)
  | case3 inComment after hr ih => exact (ih h).trans (List.suffix_cons '\n' after)
  | case4 c after hr hbreak htext ih => exact (ih h).trans (List.suffix_cons c after)
  | case6 inComment c after hr hbreak hin hspace ih => exact (ih h).trans (List.suffix_cons c after)
  | case7 inComment after hin hr hbreak hspace ih => exact (ih h).trans (List.suffix_cons '#' after)
  | case9 =>
    cases h
    exact List.suffix_rfl
  | case5 | case8 => cases h

theorem suffix_of_skipTrivia {cs rest : List Char} (h : skipTrivia cs = some rest) : rest <:+ cs :=
  suffix_of_skipTriviaAux h

theorem leavesEnd_readChar (wanted : Char) : LeavesEnd (readChar wanted) := by
  intro cs u rest h
  cases cs with
  | nil => cases h
  | cons c cs =>
    rw [readChar] at h
    split at h
    · cases h
      exact List.suffix_cons c rest
    · cases h

/-! ## Quoted texts -/

theorem leavesEnd_readBasic : LeavesEnd readBasic := by
  intro cs text rest h
  fun_induction readBasic cs generalizing text with
  | case2 =>
    cases h
    exact List.suffix_cons '"' rest
  | case5 after c used hescape text' after' hread ih =>
    cases h
    exact (ih hread).trans ((List.drop_suffix used after).trans (List.suffix_cons '\\' after))
  | case7 c after hquote hslash hc text' after' hread ih =>
    cases h
    exact (ih hread).trans (List.suffix_cons c after)
  | case1 | case3 | case4 | case6 | case8 => cases h

theorem leavesEnd_readLiteral : LeavesEnd readLiteral := by
  intro cs text rest h
  fun_induction readLiteral cs generalizing text with
  | case2 =>
    cases h
    exact List.suffix_cons '\x27' rest
  | case4 c after hquote hc text' after' hread ih =>
    cases h
    exact (ih hread).trans (List.suffix_cons c after)
  | case1 | case3 | case5 => cases h

theorem quotesBeforeClose_suffix (quote : Char) (cs : List Char) :
    (quotesBeforeClose quote cs).2 <:+ cs := by
  unfold quotesBeforeClose
  split
  · exact List.suffix_rfl
  · rename_i c
    split
    · exact List.suffix_cons c []
    · exact List.suffix_rfl
  · rename_i c d rest
    split
    · split
      · exact List.suffix_append [c, d] rest
      · exact List.suffix_cons c (d :: rest)
    · exact List.suffix_rfl

theorem skipBreaks_suffix (cs : List Char) : skipBreaks cs <:+ cs := by
  fun_induction skipBreaks cs with
  | case1 => exact List.suffix_rfl
  | case2 rest ih => exact ih.trans (List.suffix_append ['\r', '\n'] rest)
  | case3 c rest hr hskip ih => exact ih.trans (List.suffix_cons c rest)
  | case4 => exact List.suffix_rfl

theorem leavesEnd_readBasicBlock : LeavesEnd readBasicBlock := by
  intro cs text rest h
  fun_induction readBasicBlock cs generalizing text with
  | case2 after =>
    have hclose := quotesBeforeClose_suffix '"' after
    rw [Option.some.inj h] at hclose
    exact hclose.trans (List.suffix_append ['"', '"', '"'] after)
  | case4 after text' after' hread ih =>
    cases h
    exact (ih hread).trans (List.suffix_append ['\r', '\n'] after)
  | case5 after hends ih =>
    exact (ih h).trans ((skipBreaks_suffix after).trans (List.suffix_cons '\\' after))
  | case8 after hends c used hescape text' after' hread ih =>
    cases h
    exact (ih hread).trans ((List.drop_suffix used after).trans (List.suffix_cons '\\' after))
  | case10 c after hquotes hr hslash hc text' after' hread ih =>
    cases h
    exact (ih hread).trans (List.suffix_cons c after)
  | case1 | case3 | case6 | case7 | case9 | case11 => cases h

theorem leavesEnd_readLiteralBlock : LeavesEnd readLiteralBlock := by
  intro cs text rest h
  fun_induction readLiteralBlock cs generalizing text with
  | case2 after =>
    have hclose := quotesBeforeClose_suffix '\x27' after
    rw [Option.some.inj h] at hclose
    exact hclose.trans (List.suffix_append ['\x27', '\x27', '\x27'] after)
  | case4 after text' after' hread ih =>
    cases h
    exact (ih hread).trans (List.suffix_append ['\r', '\n'] after)
  | case6 c after hquotes hr hc text' after' hread ih =>
    cases h
    exact (ih hread).trans (List.suffix_cons c after)
  | case1 | case3 | case5 | case7 => cases h

theorem dropBreak_suffix (cs : List Char) : dropBreak cs <:+ cs := by
  unfold dropBreak
  split
  · rename_i rest
    exact List.suffix_cons '\n' rest
  · rename_i rest
    exact List.suffix_append ['\r', '\n'] rest
  · exact List.suffix_rfl

theorem leavesEnd_readQuotedLine : LeavesEnd readQuotedLine := by
  intro cs s rest h
  unfold readQuotedLine at h
  split at h
  · rename_i after
    obtain ⟨text, hread⟩ := exists_of_map_fst h
    exact (leavesEnd_readBasic hread).trans (List.suffix_cons '"' after)
  · rename_i after
    obtain ⟨text, hread⟩ := exists_of_map_fst h
    exact (leavesEnd_readLiteral hread).trans (List.suffix_cons '\x27' after)
  · cases h

theorem leavesEnd_readQuoted : LeavesEnd readQuoted := by
  intro cs s rest h
  unfold readQuoted at h
  split at h
  · rename_i after
    obtain ⟨text, hread⟩ := exists_of_map_fst h
    exact (leavesEnd_readBasicBlock hread).trans ((dropBreak_suffix after).trans
      (List.suffix_append ['"', '"', '"'] after))
  · rename_i after
    obtain ⟨text, hread⟩ := exists_of_map_fst h
    exact (leavesEnd_readLiteralBlock hread).trans ((dropBreak_suffix after).trans
      (List.suffix_append ['\x27', '\x27', '\x27'] after))
  · exact leavesEnd_readQuotedLine h

/-! ## Keys and values without parts -/

theorem leavesEnd_readKeyPart : LeavesEnd readKeyPart := by
  intro cs s rest h
  unfold readKeyPart at h
  split at h
  · exact leavesEnd_readQuotedLine h
  · exact leavesEnd_readQuotedLine h
  · dsimp only at h
    split at h
    · cases h
    · cases h
      exact List.dropWhile_suffix isBareChar

theorem leavesEnd_readKeyParts : LeavesEnd readKeyParts := by
  intro cs parts rest h
  fun_induction readKeyParts cs generalizing parts with
  | case2 cs part after hpart start hpoint hshort ih =>
    obtain ⟨parts', hread⟩ := exists_of_map_fst h
    have hstart : start <:+ skipSpace after := hpoint ▸ List.suffix_cons '.' start
    exact (ih hread).trans ((skipSpace_suffix start).trans (hstart.trans
      ((skipSpace_suffix after).trans (leavesEnd_readKeyPart hpart))))
  | case4 cs part after hpart =>
    cases h
    exact leavesEnd_readKeyPart hpart
  | case1 | case3 => cases h

theorem leavesEnd_readKey : LeavesEnd readKey := by
  intro cs parts rest h
  unfold readKey at h
  split at h
  · cases h
  · rename_i parts' rest' hread
    split at h
    · cases h
      exact leavesEnd_readKeyParts hread
    · cases h

theorem splitScalar_suffix (cs : List Char) : (splitScalar cs).2 <:+ cs := by
  unfold splitScalar
  have hdrop := List.dropWhile_suffix (l := cs) (!endsScalar ·)
  dsimp only
  split
  · rename_i c rest hsplit
    rw [hsplit] at hdrop
    split
    · exact (List.dropWhile_suffix _).trans ((List.suffix_cons ' ' (c :: rest)).trans hdrop)
    · exact hdrop
  · exact hdrop

theorem leavesEnd_readScalar : LeavesEnd readScalar := by
  intro cs v rest h
  unfold readScalar at h
  obtain ⟨v', hv⟩ := Option.map_eq_some_iff.mp h
  cases hv.2
  exact splitScalar_suffix cs

/-! ## Arrays, inline tables and values -/

variable {item : Reader Value}

theorem leavesEnd_readItems (hitem : LeavesEnd item) : LeavesEnd (readItems item) := by
  intro cs vs rest h
  fun_induction readItems item cs generalizing vs with
  | case2 cs after hclose =>
    cases h
    exact (List.suffix_cons ']' rest).trans (suffix_of_skipTrivia hclose)
  | case4 cs start hstart htrivia v after hv last hclose =>
    cases h
    have hafter : after <:+ cs := (hitem hv).trans (suffix_of_skipTrivia htrivia)
    exact (List.suffix_cons ']' rest).trans ((suffix_of_skipTrivia hclose).trans hafter)
  | case5 cs start hstart htrivia v after hv next hcomma hshort ih =>
    obtain ⟨vs', hread⟩ := exists_of_map_fst h
    have hafter : after <:+ cs := (hitem hv).trans (suffix_of_skipTrivia htrivia)
    exact (ih hread).trans ((List.suffix_cons ',' next).trans
      ((suffix_of_skipTrivia hcomma).trans hafter))
  | case1 | case3 | case6 | case7 => cases h

theorem leavesEnd_readInlineEntry (hitem : LeavesEnd item) :
    LeavesEnd (readInlineEntry item) := by
  intro cs entry rest h
  simp only [readInlineEntry, Option.bind_eq_bind, Option.bind_eq_some_iff] at h
  obtain ⟨⟨path, afterKey⟩, hkey, sign, hsign, ⟨u, afterSign⟩, hchar, start, hstart, ⟨v, after⟩, hv,
    hresult⟩ := h
  cases hresult
  exact (hitem hv).trans ((suffix_of_skipTrivia hstart).trans ((leavesEnd_readChar '=' hchar).trans
    ((suffix_of_skipTrivia hsign).trans (leavesEnd_readKey hkey))))

theorem leavesEnd_readInlineEntries (hitem : LeavesEnd item) (items : Items) :
    LeavesEnd (readInlineEntries item items) := by
  intro cs entries rest h
  fun_induction readInlineEntries item items cs generalizing entries with
  | case2 items cs after hclose =>
    cases h
    exact (List.suffix_cons '\x7d' rest).trans (suffix_of_skipTrivia hclose)
  | case5 items cs start hstart htrivia path v after hentry items' hinsert last hclose =>
    cases h
    have hafter : after <:+ cs :=
      (leavesEnd_readInlineEntry hitem hentry).trans (suffix_of_skipTrivia htrivia)
    exact (List.suffix_cons '\x7d' rest).trans ((suffix_of_skipTrivia hclose).trans hafter)
  | case6 items cs start hstart htrivia path v after hentry items' hinsert next hcomma hshort ih =>
    have hafter : after <:+ cs :=
      (leavesEnd_readInlineEntry hitem hentry).trans (suffix_of_skipTrivia htrivia)
    exact (ih h).trans ((List.suffix_cons ',' next).trans
      ((suffix_of_skipTrivia hcomma).trans hafter))
  | case1 | case3 | case4 | case7 | case8 => cases h

theorem leavesEnd_readValue (depth : Nat) : LeavesEnd (readValue depth) := by
  -- a value without items or entries is read alike at every depth
  have hplain : LeavesEnd (readValue 0) := by
    intro cs v rest h
    unfold readValue at h
    split at h
    · obtain ⟨s, hread⟩ := exists_of_map_fst h
      exact leavesEnd_readQuoted hread
    · obtain ⟨s, hread⟩ := exists_of_map_fst h
      exact leavesEnd_readQuoted hread
    · exact leavesEnd_readScalar h
  induction depth with
  | zero => exact hplain
  | succ depth ih =>
    intro cs v rest h
    unfold readValue at h
    split at h
    · rename_i start
      obtain ⟨vs, hread⟩ := exists_of_map_fst h
      exact (leavesEnd_readItems ih hread).trans (List.suffix_cons '[' start)
    · rename_i start
      obtain ⟨⟨items, after⟩, hread, hpair⟩ := Option.map_eq_some_iff.mp h
      cases hpair
      exact (leavesEnd_readInlineEntries ih [] hread).trans (List.suffix_cons '\x7b' start)
    · exact hplain h

end GrammarText.Toml
