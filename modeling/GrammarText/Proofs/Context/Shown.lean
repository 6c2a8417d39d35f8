import GrammarText.Proofs.Context.Assignment
import GrammarText.Proofs.Text.Shown
import GrammarText.Proofs.Text.Token

/-!
Values that are shown and read again as arguments.

The two sides do not share their rules. A value is shown with the escapes that a reader of a program
knows and with its keys as they are; it is read by the rules of TOML. So a text with another escape
keeps the whole value from being read, and it stays a text.

- `Value.hasBareKeys`: the keys of a table need no quotes. `Value.isReadable`: a text holds only
  characters that TOML reads as they are shown.
- `Value.written_shown`: a shown value whose texts are readable is a value of TOML, and the same one.
- `Value.broken_shown`: any other is none.
- `Value.same_parse_shown_iff`: with keys that need no quotes, a value is read again exactly if its
  texts are readable.
-/

namespace GrammarText.Value

open Toml (Written WrittenEntry Broken separated followed ReadsEntries ReadsValues)

/-! ## Values and their parts -/

/-- A part whose keys stand without quotes in a document. -/
def hasBareKeys : Value → Bool
  | table entries => decide (∀ key ∈ Entries.keys entries, Toml.IsBareKey key)
  | _ => true

/-- A part that, if it is a text, is read as it is shown. -/
def isReadable : Value → Bool
  | str s => s.toList.all Text.isReadable
  | _ => true

mutual

/-- How many lists and tables stand inside each other. -/
def depth : Value → Nat
  | list items => itemsDepth items + 1
  | table entries => entriesDepth entries + 1
  | bool _ | int _ | float _ | str _ => 0

def itemsDepth : List Value → Nat
  | [] => 0
  | v :: rest => max v.depth (itemsDepth rest)

def entriesDepth : List (String × Value) → Nat
  | [] => 0
  | (_, v) :: rest => max v.depth (entriesDepth rest)

end

/-- An entry of a shown table. -/
def shownEntry (e : String × Value) : List Char :=
  e.1.toList ++ ' ' :: '=' :: ' ' :: e.2.shown.toList

theorem toList_shownItems (items : List Value) :
    (shownItems items).toList = separated (items.map (·.shown.toList)) := by
  induction items with
  | nil => rfl
  | cons v rest ih =>
    cases rest with
    | nil => simp [shownItems, separated]
    | cons w more =>
      rw [shownItems, String.toList_append, String.toList_append, ih]
      simp [separated, List.intercalate_cons_cons]

theorem toList_shownEntries (entries : List (String × Value)) :
    (shownEntries entries).toList = separated (entries.map shownEntry) := by
  induction entries with
  | nil => rfl
  | cons e rest ih =>
    obtain ⟨key, v⟩ := e
    cases rest with
    | nil => simp [shownEntries, shownEntry, separated]
    | cons f more =>
      rw [shownEntries, String.toList_append, String.toList_append, ih]
      simp [shownEntry, separated, List.intercalate_cons_cons]

theorem toList_shown_list (items : List Value) :
    (list items).shown.toList = '[' :: (separated (items.map (·.shown.toList)) ++ [']']) := by
  simp [shown, toList_shownItems]

theorem toList_shown_table (entries : List (String × Value)) :
    (table entries).shown.toList =
      '\x7b' :: ' ' :: (separated (entries.map shownEntry) ++ [' ', '\x7d']) := by
  simp [shown, toList_shownEntries]

theorem skipSpace_shown {v : Value} (hv : v.isExact = true) :
    Toml.skipSpace v.shown.toList = v.shown.toList := by
  have hstart : ∃ c text, v.shown.toList = c :: text ∧ Toml.isSpace c = false := by
    cases v with
    | bool b => cases b with
      | false => exact ⟨'f', _, rfl, rfl⟩
      | true => exact ⟨'t', _, rfl, rfl⟩
    | int n =>
      obtain ⟨c, text, htext, hc⟩ := Text.number_head n
      refine ⟨c, text, htext, Bool.eq_false_iff.mpr fun hspace => ?_⟩
      simp only [Toml.isSpace, Bool.or_eq_true, beq_iff_eq] at hspace
      obtain rfl | rfl := hspace <;> cases hc
    | float x => cases hv
    | str s => exact ⟨'"', _, Text.toList_shown s, rfl⟩
    | list items => exact ⟨'[', _, toList_shown_list items, rfl⟩
    | table entries => exact ⟨'\x7b', _, toList_shown_table entries, rfl⟩
  obtain ⟨c, text, htext, hc⟩ := hstart
  simp [htext, Toml.skipSpace, hc]

variable {value? : Nat → Toml.Reader Toml.Tree}

/-! ## Values that are read -/

mutual

/-- A shown value with readable texts is a value of TOML. -/
theorem written_shown (htoml : ReadsValues value?) : ∀ (v : Value) {n : Nat},
    everyPart isExact v = true → everyPart hasBareKeys v = true → everyPart isReadable v = true →
    v.depth ≤ n → ∃ t, Written (value? n) v.shown.toList t ∧ v.Same (ofTree t)
  | bool b, n, _, _, _, _ => ⟨.boolean b, by
      have hword := htoml.boolean n b
      rwa [shown], by simp [ofTree, Same]⟩
  | int i, n, hexact, _, _, _ => ⟨.integer i, htoml.integer n hexact, by simp [ofTree, Same]⟩
  | float x, _, hexact, _, _, _ => by cases hexact
  | str s, n, _, _, hread, _ => by
    refine ⟨.string s, ?_, by simp [ofTree, Same]⟩
    have hstring := htoml.string n (Text.quoted_shown hread)
    rwa [String.ofList_toList, ← Text.toList_shown] at hstring
  | list items, n, hexact, hkeys, hread, hdepth => by
    rw [everyPart, Bool.and_eq_true] at hexact hkeys hread
    obtain ⟨m, rfl⟩ : ∃ m, n = m + 1 := ⟨n - 1, by rw [depth] at hdepth; omega⟩
    obtain ⟨ts, hts, hsame⟩ := written_shownItems htoml items hexact.2 hkeys.2 hread.2
      (Nat.le_of_succ_le_succ hdepth)
    refine ⟨.array ts, ?_, by rwa [ofTree, Same]⟩
    rw [toList_shown_list]
    exact htoml.array hts
  | table entries, n, hexact, hkeys, hread, hdepth => by
    rw [everyPart, Bool.and_eq_true] at hexact hkeys hread
    obtain ⟨m, rfl⟩ : ∃ m, n = m + 1 := ⟨n - 1, by rw [depth] at hdepth; omega⟩
    obtain ⟨es, hes, hnames, hsame⟩ := written_shownEntries htoml entries hexact.2 hkeys.2 hread.2
      (of_decide_eq_true hkeys.1) (Nat.le_of_succ_le_succ hdepth)
    have hnodup : (Entries.keys entries).Nodup := of_decide_eq_true hexact.1
    obtain ⟨kept, hperm, hwritten⟩ := htoml.table (hnames ▸ hnodup) hes
    refine ⟨.table kept, by rwa [toList_shown_table], ?_⟩
    have hkept : (ofTreeEntries es).Perm (ofTreeEntries kept) := by
      rw [ofTreeEntries_eq_map, ofTreeEntries_eq_map]
      exact hperm.symm.map _
    have hnames' : Entries.keys entries = Entries.keys (ofTreeEntries es) := by
      rw [keys_ofTreeEntries, hnames]
    rw [ofTree, same_table_iff hnames' hnodup (.refl _) hkept]
    exact hsame

theorem written_shownItems (htoml : ReadsValues value?) : ∀ (items : List Value) {n : Nat},
    everyItem isExact items = true → everyItem hasBareKeys items = true →
    everyItem isReadable items = true → itemsDepth items ≤ n →
    ∃ ts, List.Forall₂ (Written (value? n)) (items.map (·.shown.toList)) ts ∧
      ItemsSame items (ofTreeItems ts)
  | [], _, _, _, _, _ => ⟨[], .nil, by simp [ofTreeItems, ItemsSame]⟩
  | v :: rest, n, hexact, hkeys, hread, hdepth => by
    rw [everyItem, Bool.and_eq_true] at hexact hkeys hread
    rw [itemsDepth, Nat.max_le] at hdepth
    obtain ⟨t, ht, hsame⟩ := written_shown htoml v hexact.1 hkeys.1 hread.1 hdepth.1
    obtain ⟨ts, hts, hothers⟩ := written_shownItems htoml rest hexact.2 hkeys.2 hread.2 hdepth.2
    exact ⟨t :: ts, .cons ht hts, hsame, hothers⟩

theorem written_shownEntries (htoml : ReadsValues value?) : ∀ (entries : Entries Value) {n : Nat},
    everyEntry isExact entries = true → everyEntry hasBareKeys entries = true →
    everyEntry isReadable entries = true → (∀ key ∈ entries.keys, Toml.IsBareKey key) →
    entriesDepth entries ≤ n →
    ∃ es, List.Forall₂ (WrittenEntry (value? n)) (entries.map shownEntry) es ∧
      Entries.keys es = entries.keys ∧
      List.Forall₂ Same entries.values (Entries.values (ofTreeEntries es))
  | [], _, _, _, _, _, _ => ⟨[], .nil, rfl, .nil⟩
  | (key, v) :: rest, n, hexact, hkeys, hread, hbare, hdepth => by
    rw [everyEntry, Bool.and_eq_true] at hexact hkeys hread
    rw [entriesDepth, Nat.max_le] at hdepth
    obtain ⟨hkey, hbare⟩ := List.forall_mem_cons.mp hbare
    obtain ⟨t, ht, hsame⟩ := written_shown htoml v hexact.1 hkeys.1 hread.1 hdepth.1
    obtain ⟨es, hes, hnames, hothers⟩ :=
      written_shownEntries htoml rest hexact.2 hkeys.2 hread.2 hbare hdepth.2
    exact ⟨(key, t) :: es, .cons (.mk hkey ht) hes, congrArg (key :: ·) hnames, .cons hsame hothers⟩

end

/-! ## Values that are not read -/

theorem separated_cons (text : List Char) (texts : List (List Char)) :
    ∃ tail, separated (text :: texts) = text ++ tail := by
  cases texts with
  | nil => exact ⟨[], by simp [separated]⟩
  | cons other more => exact ⟨_, by rw [separated, List.intercalate_cons_cons, List.append_assoc]⟩

/-- What has been read counts to what stands in front. -/
theorem followed_separated (front texts : List (List Char)) (text other : List Char)
    (more : List Char) :
    followed front ++ (separated (text :: other :: texts) ++ more) =
      followed (front ++ [text]) ++ (separated (other :: texts) ++ more) := by
  simp [followed, separated, List.intercalate_cons_cons]

mutual

/-- A shown value in which a text is not readable is broken, whatever stands behind it. -/
theorem broken_shown (htoml : ReadsValues value?) : ∀ (v : Value) {n : Nat},
    everyPart isExact v = true → everyPart hasBareKeys v = true → everyPart isReadable v = false →
    v.depth ≤ n → ∀ more, Broken value? n (v.shown.toList ++ more)
  | bool b, _, _, _, hread, _, _ => by cases hread
  | int i, _, _, _, hread, _, _ => by cases hread
  | float x, _, _, _, hread, _, _ => by cases hread
  | str s, n, _, _, hread, _, more => by
    obtain ⟨written, text, escape, hbody, hquoted, hnone⟩ := Text.shown_noEscape hread
    have hbroken : Broken value? n ('"' :: (written ++ '\\' :: (escape ++ '"' :: more))) :=
      .escape hquoted (hnone _)
    rw [shown, Text.toList_shown, hbody]
    simpa using hbroken
  | list items, n, hexact, hkeys, hread, hdepth, more => by
    rw [everyPart, Bool.and_eq_true] at hexact hkeys
    obtain ⟨m, rfl⟩ : ∃ m, n = m + 1 := ⟨n - 1, by rw [depth] at hdepth; omega⟩
    have hbroken := broken_shownItems htoml items .nil hexact.2 hkeys.2 hread
      (Nat.le_of_succ_le_succ hdepth) (']' :: more)
    rw [toList_shown_list]
    simpa [followed] using hbroken
  | table entries, n, hexact, hkeys, hread, hdepth, more => by
    rw [everyPart, Bool.and_eq_true] at hexact hkeys
    obtain ⟨m, rfl⟩ : ∃ m, n = m + 1 := ⟨n - 1, by rw [depth] at hdepth; omega⟩
    have hfront : List.Forall₂ (WrittenEntry (value? m)) [] ([] : Entries Toml.Tree) := .nil
    have hbroken := broken_shownEntries htoml entries hfront hexact.2 hkeys.2 hread
      (of_decide_eq_true hkeys.1) (of_decide_eq_true hexact.1) (Nat.le_of_succ_le_succ hdepth)
      (' ' :: '\x7d' :: more)
    rw [toList_shown_table]
    simpa [followed] using hbroken

/-- The items in front are well; one of the others is not. -/
theorem broken_shownItems (htoml : ReadsValues value?) : ∀ (items : List Value) {n : Nat}
    {front : List (List Char)} {ts : List Toml.Tree}, List.Forall₂ (Written (value? n)) front ts →
    everyItem isExact items = true → everyItem hasBareKeys items = true →
    everyItem isReadable items = false → itemsDepth items ≤ n → ∀ more,
    Broken value? (n + 1)
      ('[' :: (followed front ++ (separated (items.map (·.shown.toList)) ++ more)))
  | [], _, _, _, _, _, _, hread, _, _ => by cases hread
  | v :: rest, n, front, ts, hfront, hexact, hkeys, hread, hdepth, more => by
    rw [everyItem, Bool.and_eq_true] at hexact hkeys
    rw [itemsDepth, Nat.max_le] at hdepth
    rw [everyItem] at hread
    cases hv : everyPart isReadable v with
    | false =>
      obtain ⟨tail, htail⟩ := separated_cons v.shown.toList (rest.map (·.shown.toList))
      rw [List.map_cons, htail, List.append_assoc]
      exact .item hfront (broken_shown htoml v hexact.1 hkeys.1 hv hdepth.1 _)
    | true =>
      rw [hv, Bool.true_and] at hread
      obtain ⟨t, ht, -⟩ := written_shown htoml v hexact.1 hkeys.1 hv hdepth.1
      have hbroken := broken_shownItems htoml rest
        (List.rel_append hfront (.cons ht .nil)) hexact.2 hkeys.2 hread hdepth.2 more
      cases rest with
      | nil => cases hread
      | cons w others =>
        rw [List.map_cons, List.map_cons, followed_separated]
        exact hbroken

/-- The entries in front are well; the value of one of the others is not. -/
theorem broken_shownEntries (htoml : ReadsValues value?) : ∀ (entries : Entries Value) {n : Nat}
    {front : List (List Char)} {es : Entries Toml.Tree},
    List.Forall₂ (WrittenEntry (value? n)) front es →
    everyEntry isExact entries = true → everyEntry hasBareKeys entries = true →
    everyEntry isReadable entries = false → (∀ key ∈ entries.keys, Toml.IsBareKey key) →
    (es.keys ++ entries.keys).Nodup → entriesDepth entries ≤ n → ∀ more,
    Broken value? (n + 1) ('\x7b' :: ' ' ::
      (followed front ++ (separated (entries.map shownEntry) ++ more)))
  | [], _, _, _, _, _, _, hread, _, _, _, _ => by cases hread
  | (key, v) :: rest, n, front, es, hfront, hexact, hkeys, hread, hbare, hnodup, hdepth, more => by
    rw [everyEntry, Bool.and_eq_true] at hexact hkeys
    rw [entriesDepth, Nat.max_le] at hdepth
    rw [everyEntry] at hread
    obtain ⟨hkey, hbare⟩ := List.forall_mem_cons.mp hbare
    cases hv : everyPart isReadable v with
    | false =>
      obtain ⟨tail, htail⟩ := separated_cons (shownEntry (key, v)) (rest.map shownEntry)
      have hfree : (key :: es.keys).Nodup :=
        (List.nodup_middle.mp hnodup).sublist ((List.sublist_append_left _ _).cons_cons key)
      have hbroken := Broken.entry hfree hfront hkey
        (broken_shown htoml v hexact.1 hkeys.1 hv hdepth.1 (tail ++ more))
      rw [List.map_cons, htail]
      simpa [shownEntry] using hbroken
    | true =>
      rw [hv, Bool.true_and] at hread
      obtain ⟨t, ht, -⟩ := written_shown htoml v hexact.1 hkeys.1 hv hdepth.1
      have hnodup' : ((es ++ [(key, t)] : Entries Toml.Tree).keys ++ Entries.keys rest).Nodup := by
        simpa [Entries.keys] using hnodup
      have hfront' : List.Forall₂ (WrittenEntry (value? n)) (front ++ [shownEntry (key, v)])
          (es ++ [(key, t)]) := List.rel_append hfront (.cons (.mk hkey ht) .nil)
      have hbroken := broken_shownEntries htoml rest hfront' hexact.2 hkeys.2 hread hbare hnodup'
        hdepth.2 more
      cases rest with
      | nil => cases hread
      | cons f others =>
        rw [List.map_cons, List.map_cons, followed_separated]
        exact hbroken

end

/-! ## Shown and read again -/

/-- No value is the text that shows it. -/
theorem not_same_shown (v : Value) : ¬ v.Same (str v.shown) := by
  cases v with
  | str s =>
    rw [Same, shown]
    intro h
    have hlength := Text.length_lt_shown s
    rw [← h] at hlength
    omega
  | bool | int | float | list | table => simp [Same]

/-- Of the values whose keys need no quotes, those whose texts are readable come back, and any other
stays the text that shows it. Documents must be read with room for as many arrays and inline tables
inside each other as there are in the value. -/
theorem same_parse_shown_iff [Toml.Library] {v : Value} (hentries : ReadsEntries (value? v.depth))
    (hvalues : ReadsValues value?) (hexact : v.everyPart isExact = true)
    (hkeys : v.everyPart hasBareKeys = true) :
    (v.Same (parse v.shown) ↔ v.everyPart isReadable = true) ∧
      (v.everyPart isReadable = false → parse v.shown = str v.shown) := by
  have hskip := skipSpace_shown (everyPart_self hexact)
  cases hread : v.everyPart isReadable with
  | true =>
    obtain ⟨t, hwritten, hsame⟩ := written_shown hvalues v hexact hkeys hread (Nat.le_refl _)
    have hvalue := hwritten [] .nil
    rw [List.append_nil, ← hskip] at hvalue
    have hparse : parse v.shown = ofTree t := by
      rw [parse, parse?_of_comment hentries hvalue .none, Option.getD_some]
    simp [hparse, hsame]
  | false =>
    have hnone := hvalues.broken (broken_shown hvalues v hexact hkeys hread (Nat.le_refl _) [])
    rw [List.append_nil, ← hskip] at hnone
    have hparse : parse v.shown = str v.shown := by
      rw [parse, parse?_eq_none hentries hnone, Option.getD_none]
    simp [hparse, not_same_shown]

/-- A table whose keys are out of order, with values of all kinds. -/
def nested : Value :=
  table [("b", list [int (-3), str "a\"\n\u00e9"]), ("a", table []), ("c-1", bool true)]

theorem nested_reads_back :
    ReadsEntries (Toml.readTree Toml.maxNesting) ∧ ReadsValues (fun n => Toml.readTree (n + 78)) ∧
      nested.everyPart isExact = true ∧ nested.everyPart hasBareKeys = true ∧
      nested.everyPart isReadable = true ∧ nested.Same (parse nested.shown) := by
  have hexact : nested.everyPart isExact = true := by decide +kernel
  have hkeys : nested.everyPart hasBareKeys = true := by decide +kernel
  have hreadable : nested.everyPart isReadable = true := by decide +kernel
  have hvalues := Toml.readsValues_standard 78
  have hentries := Toml.readsEntries_standard
  exact ⟨hentries, hvalues, hexact, hkeys, hreadable,
    (same_parse_shown_iff hentries hvalues hexact hkeys).1.mpr hreadable⟩

/-- NUL is shown with an escape that is none of TOML, and a key with a space is none without
quotes. -/
theorem nul_and_spaced_key_stay_shown :
    parse (str "\x00").shown = str "\"\\0\"" ∧ ¬ (str "\x00").Same (parse (str "\x00").shown) ∧
      ¬ (table [("a b", bool true)]).Same (parse (table [("a b", bool true)]).shown) := by
  have hnul : (str "\x00").shown = "\"\\0\"" := by decide +kernel
  have hnulnone : parse? "\"\\0\"" = none := by cbv
  have htable : (table [("a b", bool true)]).shown = "\x7b a b = true \x7d" := by decide +kernel
  have hnone : parse? "\x7b a b = true \x7d" = none := by cbv
  rw [hnul, htable, parse, parse, hnone, hnulnone]
  simp [Same]

end GrammarText.Value
