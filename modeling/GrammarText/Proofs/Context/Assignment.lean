import GrammarText.Proofs.Context.Agreement
import GrammarText.Proofs.Context.Argument
import GrammarText.Proofs.Text.Search
import Mathlib

/-!
One value written in a table of a document and in an assignment.

- `Toml.Tree.hasDatetime`: a date or time stands in the value, at any depth.
- `Value.ofContent?_presented`: what is filled from the content of a value is what the value itself
  becomes, if there is no date or time in it.
- `Context.parse_line`: a value of one line is the same under each key, so in an assignment.
- `Context.assignment_agrees_iff`: a table and an assignment come to the same exactly if no date or
  time stands in the value. `Context.date_disagrees` is a value that is one.
-/

namespace GrammarText

namespace Toml.Tree

mutual

/-- Whether a date or time stands in the value. -/
def hasDatetime : Tree → Bool
  | datetime _ => true
  | array items => anyDatetime items
  | table entries => entriesDatetime entries
  | string _ | integer _ | float _ | boolean _ => false

def anyDatetime : List Tree → Bool
  | [] => false
  | item :: rest => item.hasDatetime || anyDatetime rest

def entriesDatetime : List (String × Tree) → Bool
  | [] => false
  | (_, item) :: rest => item.hasDatetime || entriesDatetime rest

end

end Toml.Tree

namespace Value

theorem ofTreeEntries_eq_map (entries : Entries Toml.Tree) :
    ofTreeEntries entries = entries.map fun e => (e.1, ofTree e.2) := by
  induction entries with
  | nil => rfl
  | cons e rest ih => exact congrArg ((e.1, ofTree e.2) :: ·) ih

theorem keys_ofTreeEntries (entries : Entries Toml.Tree) :
    Entries.keys (ofTreeEntries entries) = entries.keys := by
  rw [ofTreeEntries_eq_map, Entries.keys, List.map_map]
  rfl

/-! ## What fields are filled with -/

section Fields

variable [Toml.Library]

theorem ofContent?_string (s : String) : ofContent? (.string s) = some (str s) := rfl

/-- An integer that fits is never taken for a float. -/
theorem ofContent?_integer {n : Int} (h : fitsSigned n = true) :
    ofContent? (.integer n) = some (int n) := by
  simp [ofContent?, Toml.Content.boolean?, Toml.Content.integer?, h]

theorem ofContent?_float (x : Float) : ofContent? (.float x) = some (float x) := rfl

theorem ofContent?_boolean (b : Bool) : ofContent? (.boolean b) = some (bool b) := rfl

theorem ofContent?_array (items : List Toml.Content) :
    ofContent? (.array items) = (ofContentItems? items).map list := by
  simp [ofContent?, Toml.Content.boolean?, Toml.Content.integer?, Toml.Content.float?,
    Toml.Content.string?]

theorem ofContent?_table (entries : List (String × Toml.Content)) :
    ofContent? (.table entries) = (ofContentEntries? entries).map table := by
  simp [ofContent?, Toml.Content.boolean?, Toml.Content.integer?, Toml.Content.float?,
    Toml.Content.string?]

/-- Entries are filled one by one, under their keys. -/
theorem exists_of_ofContentEntries?_cons {key : String} {content : Toml.Content}
    {rest : Entries Toml.Content} {xs : Entries Value}
    (h : ofContentEntries? ((key, content) :: rest) = some xs) :
    ∃ v vs, ofContent? content = some v ∧ ofContentEntries? rest = some vs ∧
      xs = (key, v) :: vs := by
  rw [ofContentEntries?] at h
  cases hv : ofContent? content with
  | none => rw [hv] at h; cases h
  | some v =>
    rw [hv] at h
    obtain ⟨vs, hrest, rfl⟩ := Option.map_eq_some_iff.mp h
    exact ⟨v, vs, rfl, hrest, rfl⟩

/-- Entries in another order become the same values in another order. -/
theorem ofContentEntries?_perm {entries others : Entries Toml.Content}
    (hperm : entries.Perm others) {xs : Entries Value} (hxs : ofContentEntries? entries = some xs) :
    ∃ ys, ofContentEntries? others = some ys ∧ xs.Perm ys := by
  induction hperm generalizing xs with
  | nil => exact ⟨xs, hxs, .refl xs⟩
  | cons e _ ih =>
    obtain ⟨v, vs, hv, hrest, rfl⟩ := exists_of_ofContentEntries?_cons hxs
    obtain ⟨ys, hys, hperm⟩ := ih hrest
    exact ⟨(e.1, v) :: ys, by simp [ofContentEntries?, hv, hys], hperm.cons _⟩
  | swap e f rest =>
    obtain ⟨w, ws, hw, hnext, rfl⟩ := exists_of_ofContentEntries?_cons hxs
    obtain ⟨v, vs, hv, hrest, rfl⟩ := exists_of_ofContentEntries?_cons hnext
    exact ⟨(e.1, v) :: (f.1, w) :: vs, by simp [ofContentEntries?, hv, hw, hrest], .swap _ _ _⟩
  | trans _ _ ih ih' =>
    obtain ⟨ys, hys, hfirst⟩ := ih hxs
    obtain ⟨zs, hzs, hsecond⟩ := ih' hys
    exact ⟨zs, hzs, hfirst.trans hsecond⟩

/-! ## The two conversions -/

mutual

/-- A content becomes the value that it presents exactly if there is no date or time in it. -/
theorem ofContent?_presented : ∀ (t : Toml.Tree) {content : Toml.Content},
    Toml.Presented t content →
    ∃ x, ofContent? content = some x ∧ (x.Same (ofTree t) ↔ t.hasDatetime = false)
  | .string s, _, .string _ =>
    ⟨str s, ofContent?_string s, by simp [ofTree, Same, Toml.Tree.hasDatetime]⟩
  | .integer n, _, .integer h =>
    ⟨int n, ofContent?_integer h, by simp [ofTree, Same, Toml.Tree.hasDatetime]⟩
  | .float x, _, .float _ =>
    ⟨float x, ofContent?_float x, by simp [ofTree, Same, Toml.Tree.hasDatetime]⟩
  | .boolean b, _, .boolean _ =>
    ⟨bool b, ofContent?_boolean b, by simp [ofTree, Same, Toml.Tree.hasDatetime]⟩
  | .datetime text, _, .datetime _ =>
    ⟨table [(Toml.datetimeKey, str text)], rfl, by simp [ofTree, Same, Toml.Tree.hasDatetime]⟩
  | .array items, _, .array hitems => by
    obtain ⟨xs, hxs, hsame⟩ := ofContentItems?_presented items hitems
    refine ⟨list xs, by rw [ofContent?_array, hxs, Option.map_some], ?_⟩
    rw [ofTree, Same, hsame, Toml.Tree.hasDatetime]
  | .table entries, _, .table hnodup hkeys hvalues hperm => by
    obtain ⟨xs, hxs, hnames, hsame⟩ := ofContentEntries?_presented entries hkeys hvalues
    obtain ⟨ys, hys, hxys⟩ := ofContentEntries?_perm hperm hxs
    refine ⟨table ys, by rw [ofContent?_table, hys, Option.map_some], ?_⟩
    have hnames' : Entries.keys xs = Entries.keys (ofTreeEntries entries) := by
      rw [hnames, keys_ofTreeEntries]
    rw [ofTree, same_table_iff hnames' (hnames ▸ hnodup) hxys (.refl _), hsame,
      Toml.Tree.hasDatetime]

theorem ofContentItems?_presented : ∀ (items : List Toml.Tree) {contents : List Toml.Content},
    List.Forall₂ Toml.Presented items contents →
    ∃ xs, ofContentItems? contents = some xs ∧
      (ItemsSame xs (ofTreeItems items) ↔ Toml.Tree.anyDatetime items = false)
  | [], _, .nil => ⟨[], rfl, by simp [ofTreeItems, ItemsSame, Toml.Tree.anyDatetime]⟩
  | item :: rest, _, .cons hitem hrest => by
    obtain ⟨x, hx, hsame⟩ := ofContent?_presented item hitem
    obtain ⟨xs, hxs, hothers⟩ := ofContentItems?_presented rest hrest
    refine ⟨x :: xs, by rw [ofContentItems?, hx, hxs]; rfl, ?_⟩
    rw [ofTreeItems, ItemsSame, hsame, hothers, Toml.Tree.anyDatetime, Bool.or_eq_false_iff]

theorem ofContentEntries?_presented : ∀ (entries : Entries Toml.Tree)
    {contents : Entries Toml.Content}, entries.keys = contents.keys →
    List.Forall₂ Toml.Presented entries.values contents.values →
    ∃ xs, ofContentEntries? contents = some xs ∧ Entries.keys xs = entries.keys ∧
      (List.Forall₂ Same (Entries.values xs) (Entries.values (ofTreeEntries entries)) ↔
        Toml.Tree.entriesDatetime entries = false)
  | [], [], _, _ =>
    ⟨[], rfl, rfl, by simp [ofTreeEntries, Entries.values, Toml.Tree.entriesDatetime]⟩
  | (key, item) :: rest, (key', content) :: contents, hkeys, .cons hitem hrest => by
    obtain ⟨hkey, hnext⟩ := List.cons.inj hkeys
    obtain rfl : key = key' := hkey
    obtain ⟨x, hx, hsame⟩ := ofContent?_presented item hitem
    obtain ⟨xs, hxs, hnames, hothers⟩ := ofContentEntries?_presented rest hnext hrest
    refine ⟨(key, x) :: xs, by rw [ofContentEntries?, hx, hxs]; rfl,
      congrArg (key :: ·) hnames, ?_⟩
    rw [Toml.Tree.entriesDatetime, Bool.or_eq_false_iff, ← hsame, ← hothers]
    exact List.forall₂_cons

end

end Fields

end Value

/-! ## Assignments -/

namespace Context

section Assignments

variable [Toml.Library] {value? : Toml.Reader Toml.Tree} {key v : String}

/-- A value of one line that stands under a key in a document is the value of an assignment. -/
theorem parse_line (htoml : Toml.ReadsEntries value?) (hk : Toml.IsBareKey key)
    (hline : '\n' ∉ v.toList) {entries : Entries Toml.Tree}
    (h : Toml.table? (key ++ " = " ++ v) = some entries) :
    ∃ t, entries = [(key, t)] ∧ Value.parse v = Value.ofTree t := by
  obtain ⟨t, behind, hvalue, hend, -⟩ := htoml.front hk h
  have hsuffix : behind <:+ v.toList :=
    (htoml.leavesEnd hvalue).trans (List.dropWhile_suffix Toml.isSpace)
  have hcomment := hend.isComment fun hmem => hline (hsuffix.subset hmem)
  rw [htoml.alone hk hvalue hcomment, Option.some.injEq] at h
  refine ⟨t, h.symm, ?_⟩
  rw [Value.parse, Value.parse?_of_comment htoml hvalue hcomment, Option.getD_some]

/-- An assignment is split at its equals sign. -/
theorem parseAssignment?_entry (hk : Toml.IsBareKey key) (htrim : Text.trim v = v) :
    parseAssignment? (key ++ "=" ++ v) = some (key, Value.parse v) := by
  have htext : (key ++ "=" ++ v).toList = key.toList ++ '=' :: v.toList := by simp
  have hsign : '=' ∉ key.toList := fun h => absurd (hk.bare _ h) (by decide)
  have hkey : Text.trimChars key.toList = key.toList :=
    Text.trimChars_of_no_blank fun c hc => Toml.bare_not_blank (hk.bare c hc)
  have hsome : key.toList.isEmpty = false := by simpa using hk.nonempty
  have hvalue : String.ofList (Text.trimChars v.toList) = v := htrim
  rw [parseAssignment?, htext, Text.splitAtFirst?_of_not_mem hsign]
  simp [hkey, hsome, hvalue]

/-- A document of one entry gives a context of one value. -/
theorem parse?_presented {t : Toml.Tree}
    (htable : Toml.table? (key ++ " = " ++ v) = some [(key, t)])
    (hpresents : Toml.Presents (key ++ " = " ++ v)) :
    ∃ x, Context.parse? (key ++ " = " ++ v) = some ⟨[(key, x)]⟩ ∧
      (x.Same (Value.ofTree t) ↔ t.hasDatetime = false) := by
  rw [Toml.Presents, htable] at hpresents
  cases hcontents : Toml.contents? (key ++ " = " ++ v) with
  | none => rw [hcontents] at hpresents; exact hpresents.elim
  | some contents =>
    rw [hcontents] at hpresents
    cases hpresents with
    | @table _ kept _ hnodup hkeys hvalues hperm =>
      -- the only entry that is presented is the one under the key
      obtain ⟨content, rfl⟩ : ∃ content, kept = [(key, content)] := by
        match kept, hkeys with
        | [(other, content)], hkeys =>
          obtain ⟨hother, -⟩ := List.cons.inj hkeys
          exact ⟨content, by rw [← show key = other from hother]⟩
      obtain rfl := List.perm_singleton.mp hperm.symm
      obtain ⟨x, hx, hsame⟩ := Value.ofContent?_presented t (List.forall₂_cons.mp hvalues).1
      refine ⟨x, ?_, hsame⟩
      rw [Context.parse?, hcontents, Option.bind_some, ofContents?, Value.ofContentEntries?, hx]
      rfl

/-- A value of one line that a document takes under a key gives a context of one value, and is taken
from an assignment as well, under the same key. Both store the same value exactly if no date or time
stands in it. -/
theorem assignment_agrees_iff {entries : Entries Toml.Tree} (htoml : Toml.ReadsEntries value?)
    (hpresents : Toml.Presents (key ++ " = " ++ v)) (hk : Toml.IsBareKey key)
    (hline : '\n' ∉ v.toList) (htrim : Text.trim v = v)
    (htable : Toml.table? (key ++ " = " ++ v) = some entries) :
    ∃ t c y, entries = [(key, t)] ∧ Context.parse? (key ++ " = " ++ v) = some c ∧ c.size = 1 ∧
      parseAssignment? (key ++ "=" ++ v) = some (key, y) ∧
      ∀ base : Context, ∃ a b, c.get? key = some a ∧ (base.set key y).get? key = some b ∧
        (a.Same b ↔ t.hasDatetime = false) := by
  obtain ⟨t, rfl, hassigned⟩ := parse_line htoml hk hline htable
  obtain ⟨x, hparse, hsame⟩ := parse?_presented htable hpresents
  refine ⟨t, ⟨[(key, x)]⟩, Value.parse v, rfl, hparse, rfl, parseAssignment?_entry hk htrim,
    fun base => ?_⟩
  refine ⟨x, Value.parse v, ?_, Entries.get?_put_self base.entries key (Value.parse v), ?_⟩
  · simp [get?, Entries.get?]
  · rw [hassigned, hsame]

end Assignments

/-- A table with an array in it. -/
def nestedTable : String := "\x7b a = [1, 0x1F], b = \"x\" \x7d"

/-- Its value in a document. -/
def nestedTree : Toml.Tree := .table [("a", .array [.integer 1, .integer 31]), ("b", .string "x")]

/-- What a field is filled from. -/
def nestedContent : Toml.Content :=
  .table [("a", .array [.integer 1, .integer 31]), ("b", .string "x")]

theorem fits_nestedTable : fitsSigned 1 = true ∧ fitsSigned 31 = true := by decide +kernel

theorem read_nestedTable :
    Toml.table? ("k" ++ " = " ++ nestedTable) = some [("k", nestedTree)] ∧
      Toml.contents? ("k" ++ " = " ++ nestedTable) = some [("k", nestedContent)] := by
  have hparse : Toml.parse ("k" ++ " = " ++ nestedTable) =
      some [("k", .table [("a", .array [.integer 1, .integer 31]), ("b", .string "x")])] := by
    cbv
  simp only [Toml.table?, Toml.contents?, hparse]
  constructor
  · simp [Toml.treeEntries?, Toml.treeItems?, Toml.Value.tree?, Toml.reservedDatetime?,
      Toml.datetimeKey, nestedTree, fits_nestedTable]
  · rfl

theorem presents_nestedTable : Toml.Presents ("k" ++ " = " ++ nestedTable) := by
  have harray : Toml.Presented (.array [.integer 1, .integer 31])
      (.array [.integer 1, .integer 31]) :=
    .array (.cons (.integer fits_nestedTable.1) (.cons (.integer fits_nestedTable.2) .nil))
  have hinner : Toml.Presented nestedTree nestedContent := by
    refine .table (by decide) rfl ?_ (.refl _)
    exact .cons harray (.cons (.string "x") .nil)
  rw [Toml.Presents, read_nestedTable.1, read_nestedTable.2]
  refine .table (by decide) rfl ?_ (.refl _)
  exact .cons hinner .nil

theorem nestedTable_agrees :
    Toml.ReadsEntries (Toml.readTree Toml.maxNesting) ∧
      Toml.Presents ("k" ++ " = " ++ nestedTable) ∧ Toml.IsBareKey "k" ∧
      '\n' ∉ nestedTable.toList ∧ Text.trim nestedTable = nestedTable ∧
      Toml.table? ("k" ++ " = " ++ nestedTable) = some [("k", nestedTree)] ∧
      ∃ c y a b, Context.parse? ("k" ++ " = " ++ nestedTable) = some c ∧
        parseAssignment? ("k" ++ "=" ++ nestedTable) = some ("k", y) ∧
        c.get? "k" = some a ∧ (empty.set "k" y).get? "k" = some b ∧ a.Same b := by
  have hk : Toml.IsBareKey "k" := by decide
  have hline : '\n' ∉ nestedTable.toList := by simp [nestedTable]
  have htrim : Text.trim nestedTable = nestedTable := by decide
  obtain ⟨t, c, y, hentries, hparse, -, hassign, hagree⟩ := assignment_agrees_iff
    Toml.readsEntries_standard presents_nestedTable hk hline htrim read_nestedTable.1
  cases hentries
  obtain ⟨a, b, ha, hb, hsame⟩ := hagree empty
  exact ⟨Toml.readsEntries_standard, presents_nestedTable, hk, hline, htrim, read_nestedTable.1,
    c, y, a, b, hparse, hassign, ha, hb, hsame.mpr rfl⟩

/-- A date becomes a table in a document and a text in an assignment. -/
theorem date_disagrees :
    Toml.Presents "k = 1979-05-27" ∧
      Context.parse? "k = 1979-05-27" =
        some ⟨[("k", .table [("$__toml_private_datetime", .str "1979-05-27")])]⟩ ∧
      parseAssignment? "k=1979-05-27" = some ("k", .str "1979-05-27") := by
  have htable : Toml.table? "k = 1979-05-27" = some [("k", .datetime "1979-05-27")] := by cbv
  have hcontents : Toml.contents? "k = 1979-05-27" =
      some [("k", .table [(Toml.datetimeKey, .string "1979-05-27")])] := by cbv
  refine ⟨?_, by cbv, by cbv⟩
  rw [Toml.Presents, htable, hcontents]
  refine .table (by decide) rfl ?_ (.refl _)
  exact .cons (.datetime "1979-05-27") .nil

end Context

end GrammarText
