import GrammarText.Proofs.Expr.Rewrite
import GrammarText.Proofs.Text.Indent

/-!
Dumps of expressions are nested blocks.

- `Nests`: a dump is a name and, between parentheses, other dumps, each on lines of its own and one
  margin further in. `nests_dumpEntry`: this is what an entry of joined dumps comes to, where none
  of them is empty.
- `Expr.blockName?`: the expressions whose entries hold the dumps of their children.
- `Expr.describe_nests`: the dump of such an expression nests those of its children, in order.
- `Expr.describe_shownAt`: so the dump of whatever is inside, at any depth, is shown whole, at the
  indentation of that depth.
-/

namespace GrammarText

open Text

/-! ## Entries -/

/-- The text is the name with the dumps between its parentheses. The name with the opening
parenthesis, the dumps in their order, with the lines `between` every two of them, and the closing
parenthesis stand on lines of their own, and what is inside one margin further in. Where there are
no dumps, and only there, the parentheses are empty. -/
structure Nests (name : String) (between : List (List Char)) (dumps : List String)
    (text : String) : Prop where
  empty_iff : text = name ++ "()" ↔ dumps = []
  lines_eq : dumps ≠ [] → lines text = lines (name ++ "(")
    ++ ((between.intercalate (dumps.map lines)).map (margin ++ ·) ++ [[')']])

theorem dumpEntry_ne_empty (name content : String) : dumpEntry name content ≠ "" := by
  simp [dumpEntry]

theorem dumpEntry_eq_empty_iff {name content : String} :
    dumpEntry name content = name ++ "()" ↔ content = "" := by
  have hparens : name ++ "()" = name ++ "(" ++ "" ++ ")" := by
    rw [String.append_empty, String.append_assoc]
    rfl
  rw [dumpEntry, hparens, String.append_left_inj, String.append_right_inj, indentBlock_eq_empty]

theorem lines_dumpEntry {content : String} (h : content ≠ "") (name : String) :
    lines (dumpEntry name content)
      = lines (name ++ "(") ++ ((lines content).map (margin ++ ·) ++ [[')']]) := by
  rw [lines, dumpEntry, String.toList_append, String.toList_append]
  exact cutLines_around_block h _ _

variable {name sep dump : String} {between : List (List Char)} {dumps : List String}

theorem intercalate_eq_empty_iff (sep : String) (hdumps : ∀ d ∈ dumps, d ≠ "") :
    String.intercalate sep dumps = "" ↔ dumps = [] := by
  cases dumps with
  | nil => simp
  | cons d rest =>
    have hd : d ≠ "" := hdumps d List.mem_cons_self
    refine iff_of_false ?_ (List.cons_ne_nil d rest)
    cases rest with
    | nil => rwa [String.intercalate_singleton]
    | cons next rest =>
      rw [String.intercalate_cons_cons]
      simp [hd]

theorem nests_dumpEntry (hsep : sep.toList = '\n' :: terminated between)
    (hbetween : ∀ l ∈ between, '\n' ∉ l) (hdumps : ∀ d ∈ dumps, d ≠ "") :
    Nests name between dumps (dumpEntry name (String.intercalate sep dumps)) := by
  have hempty := intercalate_eq_empty_iff sep hdumps
  refine ⟨dumpEntry_eq_empty_iff.trans hempty, fun hne => ?_⟩
  have hjoined : lines (String.intercalate sep dumps) = between.intercalate (dumps.map lines) := by
    have htexts : dumps.map String.toList ≠ [] := by simpa using hne
    rw [lines, String.toList_intercalate, hsep, cutLines_intercalate hbetween htexts, List.map_map]
    rfl
  rw [lines_dumpEntry (mt hempty.mp hne), hjoined]

/-- Each of the dumps is shown whole. -/
theorem Nests.shownAt (h : Nests name between dumps dump) {d : String} (hd : d ∈ dumps) :
    ShownAt 1 d dump := by
  obtain ⟨n, hn⟩ := List.getElem?_of_mem (List.mem_map_of_mem hd)
  have hinside : lines d <:+: between.intercalate (dumps.map lines) :=
    List.infix_of_mem_flatten
      (List.mem_of_getElem? (List.getElem?_intersperse_two_mul.trans hn))
  rw [ShownAt, indentation_one, h.lines_eq (List.ne_nil_of_mem hd)]
  exact (List.IsInfix.map (margin ++ ·) hinside).trans ⟨_, _, List.append_assoc _ _ _⟩

namespace Expr

/-! ## Expressions -/

/-- The name over the dumps of the children. All others hold a text of their own. -/
def blockName? : Expr → Option String
  | tuple _ | group _ => some "Group"
  | list _ | optional _ => some "Optional"
  | choice _ => some "Option"
  | repetition op _ => some op.word
  | template name _ => some ("Template:" ++ name)
  | aliased name _ => some ("Alias:" ++ name)
  | branch key .. => some ("BoolVariable:" ++ key)
  | text _ | literal .. | regexp .. | verbatim _ | handle _ | bounded .. | range .. | deferred .. =>
    none

theorem describe_ne_empty (e : Expr) : describe e ≠ "" := by
  cases e with
  | text s => simp [describe, Text.quote]
  | handle h =>
    rw [describe]
    split <;> exact dumpEntry_ne_empty _ _
  | _ => exact dumpEntry_ne_empty _ _

theorem describe_eq {e : Expr} (h : e.blockName? = some name) :
    describe e = dumpEntry name (String.intercalate "\n" (e.children.map describe)) := by
  cases e with
  | text | literal | regexp | verbatim | handle | bounded | range | deferred => cases h
  | tuple | list | group | optional | choice | repetition | template | aliased =>
    cases h
    rw [describe, describeAll_eq]
    rfl
  | branch key default yes no =>
    cases h
    rw [describe]
    rfl

theorem describe_nests {e : Expr} (h : e.blockName? = some name) :
    Nests name [] (e.children.map describe) (describe e) := by
  rw [describe_eq h]
  refine nests_dumpEntry rfl nofun fun d hd => ?_
  obtain ⟨x, -, rfl⟩ := List.mem_map.mp hd
  exact describe_ne_empty x

/-- The expressions whose dumps the entry of the expression holds. -/
def blockItems (e : Expr) : List Expr := if e.blockName?.isSome then e.children else []

/-- One level down is one margin further in, and so at every depth. -/
theorem describe_shownAt {e x : Expr} {p : Position} (h : follow blockItems p e = some x) :
    ShownAt p.length (describe x) (describe e) := by
  induction p generalizing e with
  | nil =>
    cases h
    exact .refl _
  | cons n p ih =>
    obtain ⟨y, hy, hx⟩ := Option.bind_eq_some_iff.mp h
    have hmem : y ∈ e.blockItems := List.mem_of_getElem? hy
    unfold blockItems at hmem
    cases hname : e.blockName? with
    | none => simp [hname] at hmem
    | some name =>
      rw [hname] at hmem
      have hone : ShownAt 1 (describe y) (describe e) :=
        (describe_nests hname).shownAt (List.mem_map_of_mem hmem)
      rw [List.length_cons, Nat.add_comm]
      exact (ih hx).trans hone

end Expr

end GrammarText
