import GrammarText.Proofs.Text.Lines

/-!
Words with blanks around them.

- `AllBlank`: a text of blanks. `Padded`: a text with blanks around it.
- `trimChars_padded`: trimming takes the blanks around a text without blanks off.
- `Spaced`: words with blanks between them. `words_spaced`: from such a text the words are read again.
-/

namespace GrammarText.Text

variable {bs cs rest : List Char} {c : Char} {name : String} {names : List String}

def AllBlank (bs : List Char) : Prop := ∀ c ∈ bs, isBlank c = true

instance (bs : List Char) : Decidable (AllBlank bs) := List.decidableBAll _ bs

/-- The second text is the first with blanks around it. -/
def Padded (cs padded : List Char) : Prop :=
  ∃ front back, AllBlank front ∧ AllBlank back ∧ padded = front ++ (cs ++ back)

/-- Words in a row, with blanks between them, before the first and behind the last. -/
inductive Spaced : List String → List Char → Prop
  | nil {bs : List Char} : AllBlank bs → Spaced [] bs
  | cons {bs rest : List Char} {name : String} {names : List String} :
      AllBlank bs → name ≠ "" → (∀ c ∈ name.toList, isBlank c = false) →
      (∀ c ∈ rest.head?, isBlank c = true) → Spaced names rest →
      Spaced (name :: names) (bs ++ (name.toList ++ rest))

theorem not_mem_of_allBlank (hbs : AllBlank bs) (hc : isBlank c = false) : c ∉ bs := by
  intro hm
  rw [hbs c hm] at hc
  cases hc

/-! ## Trimming -/

theorem trimChars_blanks_append (hbs : AllBlank bs) (cs : List Char) :
    trimChars (bs ++ cs) = trimChars cs := by
  rw [trimChars_eq, trimChars_eq, List.dropWhile_append_of_pos hbs]

theorem trimChars_around {padded : List Char} (h : Padded cs padded) :
    trimChars padded = trimChars cs := by
  obtain ⟨front, back, hfront, hback, rfl⟩ := h
  rw [trimChars_blanks_append hfront, trimChars_append_blanks hback]

theorem trimChars_padded {padded : List Char} (h : Padded cs padded)
    (hcs : ∀ c ∈ cs, isBlank c = false) : trimChars padded = cs := by
  rw [trimChars_around h, trimChars_of_no_blank hcs]

/-- Before a character that is no blank, only the blanks in front are dropped. -/
theorem dropWhile_append_kept (hc : isBlank c = false) (cs rest : List Char) :
    (cs ++ c :: rest).dropWhile isBlank = cs.dropWhile isBlank ++ c :: rest := by
  rw [List.dropWhile_append, List.dropWhile_cons_of_neg (by rw [hc]; exact Bool.false_ne_true)]
  split
  · rename_i he
    rw [List.isEmpty_iff.mp he, List.nil_append]
  · rfl

/-- Behind a character that is no blank and has no blank behind it, trimming takes nothing off. -/
theorem trimChars_append_kept (hc : isBlank c = false) (hrest : ∀ d ∈ rest, isBlank d = false)
    (cs : List Char) : trimChars (cs ++ c :: rest) = cs.dropWhile isBlank ++ c :: rest := by
  have hkept : (c :: rest).rdropWhile isBlank = c :: rest := by
    rw [List.rdropWhile_eq_self_iff]
    intro hne
    have hlast : ∀ d ∈ c :: rest, isBlank d = false := List.forall_mem_cons.mpr ⟨hc, hrest⟩
    rw [hlast _ (List.getLast_mem hne)]
    exact Bool.false_ne_true
  rw [trimChars_eq, dropWhile_append_kept hc,
    rdropWhile_append_kept (by rw [hkept]; exact List.cons_ne_nil c rest), hkept]

/-! ## Words -/

/-- The longest runs of a text that hold no blank. -/
def wordPieces (cs : List Char) : List (List Char) := (cut isBlank cs).filter (!·.isEmpty)

@[simp]
theorem wordPieces_nil : wordPieces [] = [] := rfl

theorem words_ofList (cs : List Char) :
    words (String.ofList cs) = (wordPieces cs).map String.ofList := by
  rw [words, String.toList_ofList, wordPieces]

theorem wordPieces_blank_cons (hc : isBlank c = true) (rest : List Char) :
    wordPieces (c :: rest) = wordPieces rest := by
  rw [wordPieces, wordPieces, cut_eq, cut_eq, List.splitOnP_cons_eq_if_modifyHead, if_pos hc]
  rfl

theorem wordPieces_blanks_append (hbs : AllBlank bs) (rest : List Char) :
    wordPieces (bs ++ rest) = wordPieces rest := by
  induction bs with
  | nil => rfl
  | cons c bs ih =>
    obtain ⟨hc, hrest⟩ := List.forall_mem_cons.mp hbs
    rw [List.cons_append, wordPieces_blank_cons hc, ih hrest]

theorem wordPieces_word_append (hne : cs ≠ []) (hcs : ∀ c ∈ cs, isBlank c = false)
    (hrest : ∀ c ∈ rest.head?, isBlank c = true) :
    wordPieces (cs ++ rest) = cs :: wordPieces rest := by
  cases rest with
  | nil =>
    rw [List.append_nil, wordPieces, cut_eq, List.splitOnP_eq_singleton hcs]
    simp [hne]
  | cons c rest =>
    have hc : isBlank c = true := hrest c rfl
    rw [wordPieces_blank_cons hc, wordPieces, wordPieces, cut_eq, cut_eq,
      List.splitOnP_append_cons_of_forall_mem hcs c hc rest]
    simp [hne]

theorem words_spaced (h : Spaced names cs) : words (String.ofList cs) = names := by
  rw [words_ofList]
  induction h with
  | nil hbs =>
    have hnil := wordPieces_blanks_append hbs []
    rw [List.append_nil, wordPieces_nil] at hnil
    rw [hnil, List.map_nil]
  | @cons bs rest name names hbs hne hname hrest hspaced ih =>
    have hne' : name.toList ≠ [] := fun he => hne (String.toList_eq_nil_iff.mp he)
    rw [wordPieces_blanks_append hbs, wordPieces_word_append hne' hname hrest, List.map_cons,
      String.ofList_toList, ih]

end GrammarText.Text
