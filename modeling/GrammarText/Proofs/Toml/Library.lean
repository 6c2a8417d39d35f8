import GrammarText.Entries
import GrammarText.Proofs.Name
import GrammarText.Proofs.Text.Lines
import GrammarText.Toml.Library
import GrammarText.Toml.Reader
import Mathlib.Data.List.Forall2

/-!
What is relied on of a library that reads TOML.

The program cannot look into its library. What is proved about values that it reads holds for every
library that keeps to the following parts of TOML 1.0, whatever else it does.

- `ReadsEntries`: a document that begins with an entry. There is a reader of values behind it, which
  says what value a text begins with, and what stands behind that value.
- `ReadsValues`: the forms of values that a context is shown in. `Written`: a text is a value wherever
  values stand. `Broken`: there is none, for an escape that TOML does not have.
- `Presents`: the two forms of one document. `Presented`: of one value, where a date or time is handed
  over as a table with the reserved key.
-/

namespace GrammarText.Toml

/-! ## Entries -/

/-- The characters of the key need no quotes. -/
structure IsBareKey (key : String) : Prop where
  nonempty : key.toList ≠ []
  bare : ∀ c ∈ key.toList, isBareChar c = true

instance (key : String) : Decidable (IsBareKey key) :=
  decidable_of_iff (key.toList ≠ [] ∧ key.toList.all isBareChar = true)
    ⟨fun h => ⟨h.1, List.all_eq_true.mp h.2⟩, fun h => ⟨h.nonempty, List.all_eq_true.mpr h.bare⟩⟩

theorem bare_ne {c d : Char} (hc : isBareChar c = true) (hd : isBareChar d = false) : c ≠ d := by
  rintro rfl
  rw [hc] at hd
  cases hd

theorem bare_bounds {c : Char} (h : isBareChar c = true) : 45 ≤ c.toNat ∧ c.toNat ≤ 122 := by
  have hc : isNameStart c = true ∨ c.isDigit = true ∨ c = '-' := by
    simp only [isBareChar, Char.isAlphanum, Bool.or_eq_true, beq_iff_eq] at h
    simp only [isNameStart, Bool.or_eq_true, beq_iff_eq]
    tauto
  rcases hc with hstart | hdigit | rfl
  · have hbounds := nameStart_bounds hstart
    omega
  · have hval : 48 ≤ c.val ∧ c.val ≤ 57 := by simpa [Char.isDigit] using hdigit
    have hl := UInt32.le_iff_toNat_le.mp hval.1
    have hu := UInt32.le_iff_toNat_le.mp hval.2
    exact ⟨Nat.le_trans (by decide) hl, Nat.le_trans hu (by decide)⟩
  · decide

theorem bare_not_blank {c : Char} (h : isBareChar c = true) : Text.isBlank c = false := by
  have hbounds := bare_bounds h
  exact Text.not_blank_of_bounds (by omega) (by omega)

/-- Nothing, or a comment up to the end of the line. -/
inductive IsComment : List Char → Prop
  | none : IsComment []
  | text {cs : List Char} (h : ∀ c ∈ cs, isTextChar c = true) : IsComment ('#' :: cs)

/-- The end of a text, or of a line. -/
inductive IsBreak : List Char → Prop
  | none : IsBreak []
  | feed (rest : List Char) : IsBreak ('\n' :: rest)
  | returnFeed (rest : List Char) : IsBreak ('\r' :: '\n' :: rest)

/-- Only blanks and a comment stand before the end of the line. -/
def EndsLine (cs : List Char) : Prop :=
  ∃ comment rest, skipSpace cs = comment ++ rest ∧ IsComment comment ∧ IsBreak rest

/-- What stands behind a value but blanks begins with a comment or a line break. -/
theorem EndsLine.head {cs : List Char} (h : EndsLine cs) (hmore : skipSpace cs ≠ []) :
    ∃ c text, skipSpace cs = c :: text ∧ c ∈ ['#', '\n', '\r'] := by
  obtain ⟨comment, rest, htext, hcomment, hbreak⟩ := h
  cases hcomment with
  | @text text _ => exact ⟨'#', text ++ rest, htext, by decide⟩
  | none =>
    cases hbreak with
    | none => exact absurd htext hmore
    | feed rest => exact ⟨'\n', rest, htext, by decide⟩
    | returnFeed rest => exact ⟨'\r', '\n' :: rest, htext, by decide⟩

/-- On one line, that is at most a comment. -/
theorem EndsLine.isComment {cs : List Char} (h : EndsLine cs) (hline : '\n' ∉ cs) :
    IsComment (skipSpace cs) := by
  obtain ⟨comment, rest, htext, hcomment, hbreak⟩ := h
  have hrest : '\n' ∉ rest := by
    intro hmem
    apply hline
    apply (List.dropWhile_suffix isSpace).subset
    rw [← skipSpace, htext]
    exact List.mem_append_right comment hmem
  cases hbreak with
  | none => rwa [htext, List.append_nil]
  | feed => simp at hrest
  | returnFeed => simp at hrest

/-- Documents that begin with an entry, where `value?` reads the value that a text begins with. -/
structure ReadsEntries [Library] (value? : Reader Tree) : Prop where
  leavesEnd : ∀ {cs t behind}, value? cs = some (t, behind) → behind <:+ cs
  /-- If there is such a document, its entry has the value that stands in front of the rest, and
  behind the value the line ends. No further line takes the value away. -/
  front : ∀ {key raw entries}, IsBareKey key → table? (key ++ " = " ++ raw) = some entries →
    ∃ t behind, value? (skipSpace raw.toList) = some (t, behind) ∧ EndsLine behind ∧
      Entries.get? entries key = some t
  /-- An entry with at most a comment behind it is a document. -/
  alone : ∀ {key raw t behind}, IsBareKey key → value? (skipSpace raw.toList) = some (t, behind) →
    IsComment (skipSpace behind) → table? (key ++ " = " ++ raw) = some [(key, t)]

/-! ## Values -/

/-- What may stand behind a value: nothing, a comma, or the end of an array or of an inline table. -/
inductive AfterValue : List Char → Prop
  | nil : AfterValue []
  | comma (rest : List Char) : AfterValue (',' :: rest)
  | bracket (rest : List Char) : AfterValue (']' :: rest)
  | brace (rest : List Char) : AfterValue (' ' :: '\x7d' :: rest)

/-- The text is a value, wherever it stands. -/
def Written (value? : Reader Tree) (text : List Char) (t : Tree) : Prop :=
  ∀ rest, AfterValue rest → value? (text ++ rest) = some (t, rest)

/-- The text is an entry of an inline table: its key, a sign with a space on either side, and its
value. -/
inductive WrittenEntry (value? : Reader Tree) : List Char → String × Tree → Prop
  | mk {key : String} {text : List Char} {t : Tree} : IsBareKey key → Written value? text t →
      WrittenEntry value? (key.toList ++ ' ' :: '=' :: ' ' :: text) (key, t)

/-- The characters that have an escape of two characters, by the second of them. -/
def shortEscapes : List (Char × Char) :=
  [('b', '\x08'), ('t', '\t'), ('n', '\n'), ('f', '\x0c'), ('r', '\r'), ('"', '"'), ('\\', '\\')]

/-- What may stand between double quotes, and the text that it stands for. Characters that are
written by their number are left out. -/
inductive Quoted : List Char → List Char → Prop
  | nil : Quoted [] []
  | plain {c : Char} {written text : List Char} : isTextChar c = true → c ≠ '"' → c ≠ '\\' →
      Quoted written text → Quoted (c :: written) (c :: text)
  | escape {d c : Char} {written text : List Char} : (d, c) ∈ shortEscapes →
      Quoted written text → Quoted ('\\' :: d :: written) (c :: text)

/-- What is no escape behind a backslash. -/
inductive NoEscape : List Char → Prop
  | zero (rest : List Char) : NoEscape ('0' :: rest)
  | brace (rest : List Char) : NoEscape ('u' :: '\x7b' :: rest)

/-- Texts with a comma and a space between every two. -/
def separated (texts : List (List Char)) : List Char := List.intercalate [',', ' '] texts

/-- Texts with a comma and a space behind each. -/
def followed (texts : List (List Char)) : List Char := texts.flatMap (· ++ [',', ' '])

/-- In front of the text there is an escape that is none, in a quoted text, or in an item of an array
or a value of an inline table behind others that are well. -/
inductive Broken (value? : Nat → Reader Tree) : Nat → List Char → Prop
  | escape {n : Nat} {written text rest : List Char} : Quoted written text → NoEscape rest →
      Broken value? n ('"' :: (written ++ '\\' :: rest))
  | item {n : Nat} {texts : List (List Char)} {ts : List Tree} {cs : List Char} :
      List.Forall₂ (Written (value? n)) texts ts → Broken value? n cs →
      Broken value? (n + 1) ('[' :: (followed texts ++ cs))
  | entry {n : Nat} {texts : List (List Char)} {entries : Entries Tree} {key : String}
      {cs : List Char} : (key :: entries.keys).Nodup →
      List.Forall₂ (WrittenEntry (value? n)) texts entries → IsBareKey key → Broken value? n cs →
      Broken value? (n + 1)
        ('\x7b' :: ' ' :: (followed texts ++ (key.toList ++ ' ' :: '=' :: ' ' :: cs)))

/-- Values as they are read at every depth. A library may say how deep values nest: what `value? n`
reads may have values inside of it that `value? (n - 1)` reads. If it does not, all of these are the
same reader. -/
structure ReadsValues (value? : Nat → Reader Tree) : Prop where
  boolean : ∀ n b, Written (value? n) (if b then "true" else "false").toList (.boolean b)
  integer : ∀ n {i}, fitsSigned i = true → Written (value? n) (toString i).toList (.integer i)
  string : ∀ n {written text}, Quoted written text →
    Written (value? n) ('"' :: (written ++ ['"'])) (.string (String.ofList text))
  array : ∀ {n texts ts}, List.Forall₂ (Written (value? n)) texts ts →
    Written (value? (n + 1)) ('[' :: (separated texts ++ [']'])) (.array ts)
  /-- The entries may be kept in any order. -/
  table : ∀ {n texts} {entries : Entries Tree}, entries.keys.Nodup →
    List.Forall₂ (WrittenEntry (value? n)) texts entries →
    ∃ kept, kept.Perm entries ∧
      Written (value? (n + 1)) ('\x7b' :: ' ' :: (separated texts ++ [' ', '\x7d'])) (.table kept)
  /-- Where an escape is none there is no value. -/
  broken : ∀ {n cs}, Broken value? n cs → value? n cs = none

/-! ## The two forms of a document -/

/-- The value and what it is handed over as. The entries of a table come in any order. -/
inductive Presented : Tree → Content → Prop
  | string (s : String) : Presented (.string s) (.string s)
  | integer {n : Int} : fitsSigned n = true → Presented (.integer n) (.integer n)
  | float (x : Float) : Presented (.float x) (.float x)
  | boolean (b : Bool) : Presented (.boolean b) (.boolean b)
  | datetime (text : String) : Presented (.datetime text) (.table [(datetimeKey, .string text)])
  | array {items : List Tree} {contents : List Content} : List.Forall₂ Presented items contents →
      Presented (.array items) (.array contents)
  | table {entries : Entries Tree} {kept contents : Entries Content} : entries.keys.Nodup →
      entries.keys = kept.keys → List.Forall₂ Presented entries.values kept.values →
      kept.Perm contents → Presented (.table entries) (.table contents)

/-- Both forms of the text are there, and the one is presented by the other, or there is neither. -/
def Presents [Library] (text : String) : Prop :=
  match table? text, contents? text with
  | some entries, some contents => Presented (.table entries) (.table contents)
  | none, none => True
  | _, _ => False

end GrammarText.Toml
