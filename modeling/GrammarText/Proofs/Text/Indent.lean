import GrammarText.Proofs.Text.Lines
import GrammarText.Text.Indent

/-!
The lines of an indented block.

- `lines_induct`: the induction over the lines of a text.
- `lines_indentBlock`: the lines of a block are an empty one, the lines of the text, each behind
  four spaces, and an empty one.
- `outdented_indentBlock`: so the text can be read off its block.
- `ShownAt`: the lines of a text stand in another text, all of them behind the indentation of a
  depth. Depths add up (`ShownAt.trans`).
-/

namespace GrammarText.Text

/-! ## Blocks -/

/-- The lines of a text. -/
def lines (s : String) : List (List Char) := cutLines s.toList

/-- What each line of a block begins with. -/
def margin : List Char := [' ', ' ', ' ', ' ']

/-- A property of texts of one line, which passes to a text with one more line in front, holds of
every text. -/
theorem lines_induct {motive : List Char → Prop} (single : ∀ l, '\n' ∉ l → motive l)
    (more : ∀ l rest, '\n' ∉ l → motive rest → motive (l ++ '\n' :: rest)) (cs : List Char) :
    motive cs := by
  -- `l` is what has been read of the first line
  have hread : ∀ l, '\n' ∉ l → motive (l ++ cs) := by
    induction cs with
    | nil =>
      intro l hl
      rw [List.append_nil]
      exact single l hl
    | cons c cs ih =>
      intro l hl
      by_cases hc : c = '\n'
      · subst hc
        exact more l cs hl (ih [] List.not_mem_nil)
      · rw [List.append_cons]
        refine ih (l ++ [c]) ?_
        simp [hl, Ne.symm hc]
  exact hread [] List.not_mem_nil

theorem indentChars_of_not_mem {l : List Char} (h : '\n' ∉ l) : indentChars l = l := by
  induction l with
  | nil => rfl
  | cons c l ih =>
    rw [List.mem_cons, not_or] at h
    rw [indentChars, List.flatMap_cons, if_neg (Ne.symm h.1), List.singleton_append]
    exact congrArg (c :: ·) (ih h.2)

theorem indentChars_append_cons (before rest : List Char) :
    indentChars (before ++ '\n' :: rest)
      = indentChars before ++ '\n' :: (margin ++ indentChars rest) := by
  simp [indentChars, indentMargin, margin]

theorem break_not_mem_margin {l : List Char} (h : '\n' ∉ l) : '\n' ∉ margin ++ l := by
  simp [margin, h]

theorem cutLines_indentChars (cs : List Char) :
    cutLines (margin ++ indentChars cs) = (cutLines cs).map (margin ++ ·) := by
  induction cs using lines_induct with
  | single l hl =>
    rw [indentChars_of_not_mem hl, cutLines_of_not_mem hl,
      cutLines_of_not_mem (break_not_mem_margin hl), List.map_singleton]
  | more l rest hl ih =>
    rw [indentChars_append_cons, indentChars_of_not_mem hl, ← List.append_assoc,
      cutLines_cons (break_not_mem_margin hl), ih, cutLines_cons hl, List.map_cons]

theorem toList_indentBlock {s : String} (h : s ≠ "") :
    (indentBlock s).toList = '\n' :: ((margin ++ indentChars s.toList) ++ ['\n']) := by
  rw [indentBlock, if_neg (by simpa using h), String.toList_ofList]
  rfl

/-- A block between two texts ends the last line of the one and begins the first line of the
other. -/
theorem cutLines_around_block {s : String} (h : s ≠ "") (before after : List Char) :
    cutLines (before ++ (indentBlock s).toList ++ after)
      = cutLines before ++ ((lines s).map (margin ++ ·) ++ cutLines after) := by
  have hsplit : before ++ (indentBlock s).toList ++ after
      = before ++ '\n' :: ((margin ++ indentChars s.toList) ++ '\n' :: after) := by
    simp [toList_indentBlock h]
  rw [hsplit, cutLines_append_cons, cutLines_append_cons, cutLines_indentChars, lines]

theorem lines_indentBlock {s : String} (h : s ≠ "") :
    lines (indentBlock s) = [] :: ((lines s).map (margin ++ ·) ++ [[]]) := by
  have hlines := cutLines_around_block h [] []
  rwa [List.nil_append, List.append_nil] at hlines

/-- The text of a block: the lines inside of it without their margins. -/
def outdented (block : String) : String :=
  String.ofList (['\n'].intercalate (((lines block).drop 1).dropLast.map (·.drop margin.length)))

theorem outdented_indentBlock (s : String) : outdented (indentBlock s) = s := by
  by_cases h : s = ""
  · subst h
    rfl
  · have hmargin : ∀ l : List Char, (margin ++ l).drop margin.length = l := fun l =>
      List.drop_left
    rw [outdented, lines_indentBlock h, List.drop_one, List.tail_cons, List.dropLast_concat,
      List.map_map]
    simp only [Function.comp_def, hmargin, List.map_id', lines, intercalate_cutLines,
      String.ofList_toList]

theorem indentBlock_eq_empty {s : String} : indentBlock s = "" ↔ s = "" := by
  constructor
  · intro h
    rw [← outdented_indentBlock s, h]
    rfl
  · rintro rfl
    rfl

/-! ## Depth -/

def indentation (depth : Nat) : List Char := List.replicate (margin.length * depth) ' '

theorem indentation_one : indentation 1 = margin := rfl

theorem indentation_add (m n : Nat) : indentation (m + n) = indentation m ++ indentation n := by
  rw [indentation, Nat.mul_add, ← List.replicate_append_replicate, indentation, indentation]

/-- The lines of a text stand in another one, without others between them, each behind the
indentation. -/
def ShownAt (depth : Nat) (inner outer : String) : Prop :=
  (lines inner).map (indentation depth ++ ·) <:+: lines outer

theorem ShownAt.refl (s : String) : ShownAt 0 s s := by
  rw [ShownAt, indentation, Nat.mul_zero, List.replicate_zero]
  simp

theorem ShownAt.trans {m n : Nat} {inner middle outer : String} (h : ShownAt m inner middle)
    (h' : ShownAt n middle outer) : ShownAt (n + m) inner outer := by
  have hmap : (lines inner).map (indentation (n + m) ++ ·)
      = ((lines inner).map (indentation m ++ ·)).map (indentation n ++ ·) := by
    simp only [indentation_add, List.map_map, Function.comp_def, List.append_assoc]
  rw [ShownAt, hmap]
  exact (List.IsInfix.map (indentation n ++ ·) h).trans h'

end GrammarText.Text
