import GrammarText.Proofs.Toml.Compound
import GrammarText.Proofs.Toml.Quoted
import GrammarText.Toml.Standard

/-!
The library that the program runs with keeps to what is relied on.

- `readTree`: its reader of values, which `Toml.parse` uses behind every key.
- `readsEntries_standard`: documents that begin with an entry are read with it.
- `readsValues_standard`: at every depth it reads what a context is shown in, and gives up where it
  should.
-/

namespace GrammarText.Toml

/-- Reads a value with at most `depth` arrays and inline tables inside each other, in the form in
which it is kept. -/
def readTree (depth : Nat) : Reader Tree := fun cs =>
  (readValue depth cs).bind fun (v, rest) => v.tree?.map fun t => (t, rest)

theorem readTree_eq_some {depth : Nat} {cs rest : List Char} {t : Tree} :
    readTree depth cs = some (t, rest) ↔
      ∃ v, readValue depth cs = some (v, rest) ∧ v.tree? = some t := by
  simp only [readTree, Option.bind_eq_some_iff, Option.map_eq_some_iff, Prod.mk.injEq]
  constructor
  · rintro ⟨⟨v, rest'⟩, hread, t', ht, rfl, rfl⟩
    exact ⟨v, hread, ht⟩
  · rintro ⟨v, hread, ht⟩
    exact ⟨(v, rest), hread, t, ht, rfl, rfl⟩

/-! ## Entries of a document -/

/-- Entries are kept one by one, under their keys. -/
theorem exists_of_treeEntries?_cons {key : String} {v : Value} {rest : List (String × Value)}
    {entries : List (String × Tree)} (h : treeEntries? ((key, v) :: rest) = some entries) :
    ∃ t others, v.tree? = some t ∧ treeEntries? rest = some others ∧
      entries = (key, t) :: others := by
  rw [treeEntries?] at h
  cases hv : v.tree? with
  | none => rw [hv] at h; cases h
  | some t =>
    rw [hv] at h
    obtain ⟨others, hrest, rfl⟩ := Option.map_eq_some_iff.mp h
    exact ⟨t, others, rfl, hrest, rfl⟩

/-- Where all entries of a document are kept, each is found under its key. -/
theorem get?_treeEntries? {es : List (String × Value)} {entries : List (String × Tree)}
    (h : treeEntries? es = some entries) {key : String} {v : Value}
    (hv : Entries.get? es key = some v) :
    ∃ t, v.tree? = some t ∧ Entries.get? entries key = some t := by
  induction es generalizing entries with
  | nil => cases hv
  | cons e rest ih =>
    obtain ⟨t, others, hfirst, hrest, rfl⟩ := exists_of_treeEntries?_cons h
    rw [Entries.get?] at hv ⊢
    by_cases hk : e.1 = key
    · rw [if_pos hk] at hv ⊢
      cases hv
      exact ⟨t, hfirst, rfl⟩
    · rw [if_neg hk] at hv ⊢
      exact ih hrest hv

/-- A comment is skipped up to the end of its line. -/
theorem comment_of_skipTriviaAux {cs : List Char} (h : skipTriviaAux true cs ≠ none) :
    ∃ text rest, cs = text ++ rest ∧ (∀ c ∈ text, isTextChar c = true) ∧ IsBreak rest := by
  induction cs with
  | nil => exact ⟨[], [], rfl, by simp, .none⟩
  | cons c cs ih =>
    unfold skipTriviaAux at h
    split at h
    · rename_i hnil
      cases hnil
    · rename_i rest hbreak
      exact ⟨[], c :: cs, rfl, by simp, hbreak ▸ .returnFeed rest⟩
    · rename_i c' rest hreturn hcons
      obtain ⟨rfl, rfl⟩ := List.cons.inj hcons
      by_cases hfeed : c = '\n'
      · exact ⟨[], c :: cs, rfl, by simp, hfeed ▸ .feed cs⟩
      · rw [if_neg hfeed, if_pos rfl] at h
        by_cases htext : isTextChar c = true
        · rw [if_pos htext] at h
          obtain ⟨text, rest, rfl, hall, hbreak⟩ := ih h
          exact ⟨c :: text, rest, rfl, List.forall_mem_cons.mpr ⟨htext, hall⟩, hbreak⟩
        · rw [if_neg htext] at h
          exact absurd rfl h

/-- Where a line may end and the document goes on, it does end. -/
theorem endsLine_of_atLineEnd {cs : List Char} (hend : atLineEnd cs = true)
    (htrivia : skipTrivia cs ≠ none) : EndsLine cs := by
  rw [← skipTrivia_skipSpace] at htrivia
  rw [atLineEnd] at hend
  cases hcs : skipSpace cs with
  | nil => exact ⟨[], [], hcs, .none, .none⟩
  | cons c rest =>
    simp only [hcs, Bool.or_eq_true, beq_iff_eq] at hend
    rw [hcs] at htrivia
    obtain (rfl | rfl) | rfl := hend
    · exact ⟨[], '\n' :: rest, hcs, .none, .feed rest⟩
    · -- a carriage return is skipped before a line feed only
      unfold skipTrivia skipTriviaAux at htrivia
      split at htrivia
      · rename_i hnil
        cases hnil
      · rename_i more hbreak
        obtain rfl := (List.cons.inj hbreak).2
        exact ⟨[], '\r' :: '\n' :: more, hcs, .none, .returnFeed more⟩
      · rename_i c more hreturn hcons
        obtain ⟨rfl, rfl⟩ := List.cons.inj hcons
        simp [isSpace] at htrivia
    · have hcomment : skipTriviaAux true rest ≠ none := by
        rw [skipTrivia, skipTriviaAux_cons (by decide) (by decide)] at htrivia
        simpa [isSpace] using htrivia
      obtain ⟨text, more, rfl, htext, hbreak⟩ := comment_of_skipTriviaAux hcomment
      exact ⟨'#' :: text, more, hcs, .text htext, hbreak⟩

theorem readLines_comment (d : Draft) {cs : List Char} (h : IsComment (skipSpace cs)) :
    atLineEnd cs = true ∧ readLines d cs = some d := by
  have htrivia : skipTrivia cs = some [] := by
    rw [← skipTrivia_skipSpace]
    generalize skipSpace cs = rest at h
    cases h with
    | none => rfl
    | text htext => exact skipTrivia_comment htext
  constructor
  · rw [atLineEnd]
    generalize skipSpace cs = rest at h
    cases h <;> rfl
  · rw [readLines, htrivia]

theorem readsEntries_standard : ReadsEntries (readTree maxNesting) where
  leavesEnd h := by
    obtain ⟨v, hread, -⟩ := readTree_eq_some.mp h
    exact leavesEnd_readValue maxNesting hread
  front {key raw entries} hk h := by
    obtain ⟨es, hparse, hes⟩ := Option.bind_eq_some_iff.mp h
    rw [parse_first hk] at hparse
    cases hread : readValue maxNesting (skipSpace raw.toList) with
    | none => rw [hread] at hparse; cases hparse
    | some r =>
      obtain ⟨v, behind⟩ := r
      simp only [hread] at hparse
      by_cases hend : atLineEnd behind = true
      · rw [if_pos hend] at hparse
        obtain ⟨d, hlines, rfl⟩ := Option.map_eq_some_iff.mp hparse
        -- the lines behind the value leave it under its key
        have hroot : d.root.get? key = some (.leaf v) :=
          readLines_keeps hlines (by simp [Entries.get?])
        have hitem : Entries.get? (entriesValue d.root) key = some v := by
          rw [get?_entriesValue, hroot]
          rfl
        obtain ⟨t, ht, hget⟩ := get?_treeEntries? hes hitem
        have htrivia : skipTrivia behind ≠ none := by
          intro hnone
          rw [readLines, hnone] at hlines
          cases hlines
        exact ⟨t, behind, readTree_eq_some.mpr ⟨v, hread, ht⟩, endsLine_of_atLineEnd hend htrivia,
          hget⟩
      · rw [if_neg hend] at hparse
        cases hparse
  alone {key raw t behind} hk h hcomment := by
    obtain ⟨v, hread, ht⟩ := readTree_eq_some.mp h
    obtain ⟨hend, hlines⟩ := readLines_comment ⟨[(key, .leaf v)], []⟩ hcomment
    have hparse : parse (key ++ " = " ++ raw) = some [(key, v)] := by
      rw [parse_first hk, hread]
      simp only [if_pos hend, hlines, Option.map_some, entriesValue, Item.value]
    show (parse _).bind treeEntries? = _
    rw [hparse, Option.bind_some, treeEntries?, ht]
    rfl

/-! ## Values -/

/-- No blank, line break or comment stands here, and no end of an array or an inline table. -/
def Begins (cs : List Char) : Prop := ∀ c ∈ cs.head?, c ∉ [' ', '\t', '\r', '\n', '#', ']', '\x7d']

theorem skipTrivia_begins {cs : List Char} (h : Begins cs) : skipTrivia cs = some cs := by
  cases cs with
  | nil => rfl
  | cons c rest =>
    refine skipTrivia_start (fun hc => h c rfl ?_) rest
    exact List.mem_append_left [']', '\x7d'] hc

/-- A value begins where it is read. -/
theorem begins_of_readValue {depth : Nat} {cs rest : List Char} {v : Value}
    (h : readValue depth cs = some (v, rest)) : Begins cs := by
  intro c hc hmem
  cases cs with
  | nil => cases hc
  | cons d text =>
    obtain rfl : d = c := Option.some.inj hc
    have hkind : ∀ e ∈ [' ', '\t', '\r', '\n', '#', ']', '\x7d'],
        e ∉ ['"', '\x27', '[', '\x7b'] ∧ endsScalar e = true := List.all_iff_forall_prop.mp (by decide)
    -- behind such a character the value would be a word without characters, and that is none
    obtain ⟨hplain, hends⟩ := hkind d hmem
    have hnone : scalar? [] = none := rfl
    have hfirst : (splitScalar (d :: text)).1 = [] := by
      have hdate : isDate [] = false := rfl
      simp only [splitScalar, List.takeWhile_cons, hends, Bool.not_true, Bool.false_eq_true, if_false,
        hdate, Bool.false_and]
      split <;> rfl
    rw [readValue_scalar hplain, readScalar] at h
    simp only [hfirst, hnone, Option.map_none] at h
    cases h

/-- What follows a written value is left where the value is read. -/
theorem Written.readValue {depth : Nat} {text : List Char} {t : Tree}
    (h : Written (readTree depth) text t) {rest : List Char} (hrest : AfterValue rest) :
    ∃ v, readValue depth (text ++ rest) = some (v, rest) ∧ v.tree? = some t :=
  readTree_eq_some.mp (h rest hrest)

theorem written_word (depth : Nat) {word : List Char} (hne : word ≠ [])
    (hword : ∀ c ∈ word, endsScalar c = false) {v : Value} (hv : scalar? word = some v) {t : Tree}
    (ht : v.tree? = some t) : Written (readTree depth) word t := by
  intro rest hrest
  rw [readTree_eq_some]
  exact ⟨v, by rw [readValue_word depth hne hword hrest, hv, Option.map_some], ht⟩

theorem written_boolean (depth : Nat) (b : Bool) :
    Written (readTree depth) (if b then "true" else "false").toList (.boolean b) := by
  cases b with
  | false =>
    have hread : scalar? "false".toList = some (.boolean false) := rfl
    exact written_word depth (by decide) (List.all_iff_forall_prop.mp (by decide)) hread rfl
  | true =>
    have hread : scalar? "true".toList = some (.boolean true) := rfl
    exact written_word depth (by decide) (List.all_iff_forall_prop.mp (by decide)) hread rfl

theorem written_integer (depth : Nat) {i : Int} (h : fitsSigned i = true) :
    Written (readTree depth) (toString i).toList (.integer i) := by
  obtain ⟨c, text, htext, -⟩ := Text.number_head i
  have hne : (toString i).toList ≠ [] := by
    rw [htext]
    exact List.cons_ne_nil c text
  exact written_word depth hne (fun c hc => number_in_scalar (Text.mem_number hc))
    (scalar?_toString i) (by rw [Value.tree?, if_pos h])

theorem written_string (depth : Nat) {written text : List Char} (h : Quoted written text) :
    Written (readTree depth) ('"' :: (written ++ ['"'])) (.string (String.ofList text)) := by
  intro rest hrest
  rw [readTree_eq_some, List.cons_append, List.append_assoc, List.singleton_append]
  exact ⟨_, readValue_quoted depth h hrest, by rw [Value.tree?]⟩

theorem separated_more (text other : List Char) (texts : List (List Char)) (rest : List Char) :
    separated (text :: other :: texts) ++ rest =
      text ++ ',' :: ' ' :: (separated (other :: texts) ++ rest) := by
  simp [separated, List.intercalate_cons_cons]

theorem followed_more (text : List Char) (texts : List (List Char)) (rest : List Char) :
    followed (text :: texts) ++ rest = text ++ ',' :: ' ' :: (followed texts ++ rest) := by
  simp [followed]

/-! ## Arrays -/

variable {depth : Nat} {texts : List (List Char)}

theorem readItems_written {ts : List Tree} (h : List.Forall₂ (Written (readTree depth)) texts ts)
    (rest : List Char) {cs : List Char}
    (hcs : skipTrivia cs = skipTrivia (separated texts ++ ']' :: rest)) :
    ∃ vs, readItems (readValue depth) cs = some (vs, rest) ∧ treeItems? vs = some ts := by
  -- behind an item stands the bracket, or a comma and what the induction is about
  induction h generalizing cs with
  | nil =>
    exact ⟨[], readItems_end (hcs.trans (skipTrivia_start (by decide) rest)), rfl⟩
  | @cons text t texts ts ht hts ih =>
    cases hts with
    | nil =>
      obtain ⟨v, hread, hv⟩ := ht.readValue (.bracket rest)
      have hbegins := begins_of_readValue hread
      have htext : separated [text] = text := by simp [separated]
      rw [htext, skipTrivia_begins hbegins] at hcs
      refine ⟨[v], readItems_last hcs ?_ hread, by simp [treeItems?, hv]⟩
      exact fun hhead => hbegins ']' hhead (by decide)
    | @cons other u more us hother hmore =>
      rw [separated_more] at hcs
      obtain ⟨v, hread, hv⟩ := ht.readValue
        (.comma (' ' :: (separated (other :: more) ++ ']' :: rest)))
      have hbegins := begins_of_readValue hread
      rw [skipTrivia_begins hbegins] at hcs
      obtain ⟨vs, hvs, htrees⟩ := ih (skipTrivia_space _)
      refine ⟨v :: vs, ?_, by simp [treeItems?, hv, htrees]⟩
      rw [readItems_more (leavesEnd_readValue depth) hcs
        (fun hhead => hbegins ']' hhead (by decide)) hread, hvs]
      rfl

theorem written_array {ts : List Tree} (h : List.Forall₂ (Written (readTree depth)) texts ts) :
    Written (readTree (depth + 1)) ('[' :: (separated texts ++ [']'])) (.array ts) := by
  intro rest hrest
  obtain ⟨vs, hread, hvs⟩ := readItems_written h rest rfl
  rw [readTree_eq_some, List.cons_append, List.append_assoc, List.singleton_append]
  exact ⟨.array vs, by rw [readValue_array, hread, Option.map_some],
    by rw [Value.tree?, hvs, Option.map_some]⟩

/-! ## Inline tables -/

/-- The key that stands for a date or time has a dollar sign. -/
theorem reservedDatetime?_of_bare {entries : List (String × Value)}
    (h : ∀ key ∈ Entries.keys entries, IsBareKey key) : reservedDatetime? entries = none := by
  have hreserved : ¬ IsBareKey datetimeKey := by decide
  cases entries with
  | nil => rfl
  | cons e rest =>
    have hkey : e.1 ≠ datetimeKey := by
      intro he
      apply hreserved
      rw [← he]
      exact h e.1 List.mem_cons_self
    simp [reservedDatetime?, hkey]

theorem keys_treeEntries? {es : Entries Value} {entries : Entries Tree}
    (h : treeEntries? es = some entries) : entries.keys = es.keys := by
  induction es generalizing entries with
  | nil =>
    cases h
    rfl
  | cons e rest ih =>
    obtain ⟨t, others, -, hrest, rfl⟩ := exists_of_treeEntries?_cons h
    exact congrArg (e.1 :: ·) (ih hrest)

theorem treeEntries?_insertSorted {es : Entries Value} {entries : Entries Tree}
    (h : treeEntries? es = some entries) (key : String) {v : Value} {t : Tree}
    (ht : v.tree? = some t) :
    treeEntries? (insertSorted key v es) = some (insertSorted key t entries) := by
  induction es generalizing entries with
  | nil =>
    cases h
    simp [insertSorted, treeEntries?, ht]
  | cons e rest ih =>
    obtain ⟨u, others, hfirst, hrest, rfl⟩ := exists_of_treeEntries?_cons h
    rw [insertSorted, insertSorted]
    split
    · simp [treeEntries?, ht, hfirst, hrest]
    · simp [treeEntries?, hfirst, ih hrest]

theorem treeEntries?_sortOnto {es fs : Entries Value} {entries others : Entries Tree}
    (hes : treeEntries? es = some entries) (hfs : treeEntries? fs = some others) :
    treeEntries? (sortOnto es fs) = some (sortOnto entries others) := by
  induction fs generalizing es entries others with
  | nil =>
    cases hfs
    exact hes
  | cons e rest ih =>
    obtain ⟨key, v⟩ := e
    obtain ⟨t, more, hv, hrest, rfl⟩ := exists_of_treeEntries?_cons hfs
    show treeEntries? (sortOnto (insertSorted key v es) rest) =
      some (sortOnto (insertSorted key t entries) more)
    exact ih (treeEntries?_insertSorted hes key hv) hrest

/-- None of the keys is in the table, and each once among themselves. -/
structure CanAdd (keys : List String) (items : Items) : Prop where
  once : keys.Nodup
  free : ∀ key ∈ keys, items.has key = false

theorem CanAdd.next {key : String} {keys : List String} {items : Items}
    (h : CanAdd (key :: keys) items) (item : Item) : CanAdd keys (insertSorted key item items) := by
  obtain ⟨hfirst, honce⟩ := List.nodup_cons.mp h.once
  refine ⟨honce, fun other hother => ?_⟩
  have hne : key ≠ other := by
    rintro rfl
    exact hfirst hother
  rw [Entries.has, get?_insertSorted_ne hne]
  exact h.free other (List.mem_cons_of_mem _ hother)

/-- The entries as parts of the table that is read. -/
def leaves (es : Entries Value) : Items := es.map fun e => (e.1, .leaf e.2)

/-- A written entry is read before whatever may follow its value. -/
theorem WrittenEntry.readInlineEntry {text : List Char} {e : String × Tree}
    (h : WrittenEntry (readTree depth) text e) {rest : List Char} (hrest : AfterValue rest) :
    IsBareKey e.1 ∧ skipTrivia (text ++ rest) = some (text ++ rest) ∧
      (text ++ rest).head? ≠ some '\x7d' ∧
      ∃ v, readInlineEntry (readValue depth) (text ++ rest) = some (([e.1], v), rest) ∧
        v.tree? = some e.2 := by
  cases h with
  | @mk key text t hk ht =>
    obtain ⟨v, hread, hv⟩ := ht.readValue hrest
    have htext : key.toList ++ ' ' :: '=' :: ' ' :: text ++ rest =
        key.toList ++ ' ' :: '=' :: ' ' :: (text ++ rest) := by simp
    obtain ⟨hskip, hhead⟩ := bare_begins hk (' ' :: '=' :: ' ' :: (text ++ rest))
    rw [htext]
    refine ⟨hk, hskip, hhead, v, ?_, hv⟩
    rw [readInlineEntry_bare hk (skipTrivia_begins (begins_of_readValue hread)), hread,
      Option.map_some]

theorem readInlineEntries_written {entries : Entries Tree}
    (h : List.Forall₂ (WrittenEntry (readTree depth)) texts entries) (rest : List Char)
    {items : Items} (hadd : CanAdd entries.keys items) {cs : List Char}
    (hcs : skipTrivia cs = skipTrivia (separated texts ++ ' ' :: '\x7d' :: rest)) :
    ∃ es, readInlineEntries (readValue depth) items cs = some (sortOnto items (leaves es), rest) ∧
      treeEntries? es = some entries := by
  induction h generalizing cs items with
  | nil =>
    refine ⟨[], readInlineEntries_end (hcs.trans ?_), rfl⟩
    exact (skipTrivia_space _).trans (skipTrivia_start (by decide) rest)
  | @cons text e texts entries he hentries ih =>
    obtain ⟨key, t⟩ := e
    have hfree : items.has key = false := hadd.free key List.mem_cons_self
    cases hentries with
    | nil =>
      obtain ⟨-, hskip, hhead, v, hread, hv⟩ := he.readInlineEntry (.brace rest)
      have htext : separated [text] = text := by simp [separated]
      rw [htext, hskip] at hcs
      refine ⟨[(key, v)], readInlineEntries_last hcs hhead hread hfree ?_, ?_⟩
      · exact (skipTrivia_space _).trans (skipTrivia_start (by decide) rest)
      · simp [treeEntries?, show v.tree? = some t from hv]
    | @cons other f more others hother hmore =>
      rw [separated_more] at hcs
      obtain ⟨-, hskip, hhead, v, hread, hv⟩ := he.readInlineEntry
        (.comma (' ' :: (separated (other :: more) ++ ' ' :: '\x7d' :: rest)))
      rw [hskip] at hcs
      obtain ⟨es, hes, htrees⟩ := ih (hadd.next (.leaf v)) (skipTrivia_space _)
      refine ⟨(key, v) :: es, ?_, by simp [treeEntries?, show v.tree? = some t from hv, htrees]⟩
      rw [readInlineEntries_more (leavesEnd_readValue depth) hcs hhead hread hfree, hes]
      rfl

theorem bare_of_written {entries : Entries Tree}
    (h : List.Forall₂ (WrittenEntry (readTree depth)) texts entries) :
    ∀ key ∈ entries.keys, IsBareKey key := by
  induction h with
  | nil => simp [Entries.keys]
  | cons he _ ih => exact List.forall_mem_cons.mpr ⟨(he.readInlineEntry .nil).1, ih⟩

theorem written_table {entries : Entries Tree} (hnodup : entries.keys.Nodup)
    (h : List.Forall₂ (WrittenEntry (readTree depth)) texts entries) :
    Written (readTree (depth + 1)) ('\x7b' :: ' ' :: (separated texts ++ [' ', '\x7d']))
      (.table (sortOnto [] entries)) := by
  intro rest hrest
  have hadd : CanAdd entries.keys [] := ⟨hnodup, fun _ _ => rfl⟩
  obtain ⟨es, hread, hes⟩ := readInlineEntries_written h rest hadd (skipTrivia_space _)
  have htext : '\x7b' :: ' ' :: (separated texts ++ [' ', '\x7d']) ++ rest =
      '\x7b' :: (' ' :: (separated texts ++ ' ' :: '\x7d' :: rest)) := by simp
  have hbare : ∀ key ∈ Entries.keys (sortOnto [] es), IsBareKey key := by
    intro key hkey
    have hmem := (perm_keys_sorted es).mem_iff.mp hkey
    rw [← keys_treeEntries? hes] at hmem
    exact bare_of_written h key hmem
  rw [readTree_eq_some, htext, readValue_table, hread, Option.map_some]
  refine ⟨.table (sortOnto [] es), ?_, ?_⟩
  · dsimp only
    rw [leaves, entriesValue_sortOnto]
    rfl
  · rw [Value.tree?, reservedDatetime?_of_bare hbare]
    dsimp only
    have hempty : treeEntries? [] = some [] := rfl
    rw [treeEntries?_sortOnto hempty hes, Option.map_some]

/-! ## Values that are none -/

variable {more : Nat}

theorem Broken.begins {value? : Nat → Reader Tree} {n : Nat} {cs : List Char}
    (h : Broken value? n cs) : Begins cs := by
  intro c hc
  cases h <;> (cases hc; decide)

/-- Behind the items that are well an array does not go on. -/
theorem readItems_followed {ts : List Tree} (h : List.Forall₂ (Written (readTree depth)) texts ts)
    {cs : List Char} (hbegins : Begins cs) (hnone : readValue depth cs = none) {start : List Char}
    (hstart : skipTrivia start = skipTrivia (followed texts ++ cs)) :
    readItems (readValue depth) start = none := by
  induction h generalizing start with
  | nil =>
    exact readItems_refused (hstart.trans (skipTrivia_begins hbegins))
      (fun hhead => hbegins ']' hhead (by decide)) hnone
  | @cons text t texts ts ht hts ih =>
    rw [followed_more] at hstart
    obtain ⟨v, hv, -⟩ := ht.readValue (.comma (' ' :: (followed texts ++ cs)))
    have hfirst := begins_of_readValue hv
    rw [skipTrivia_begins hfirst] at hstart
    rw [readItems_more (leavesEnd_readValue depth) hstart
      (fun hhead => hfirst ']' hhead (by decide)) hv, ih (skipTrivia_space _)]
    rfl

/-- Behind the entries that are well an inline table does not go on. -/
theorem readInlineEntries_followed {entries : Entries Tree}
    (h : List.Forall₂ (WrittenEntry (readTree depth)) texts entries) {key : String} {cs : List Char}
    (hk : IsBareKey key) (hbegins : Begins cs) (hnone : readValue depth cs = none) {items : Items}
    (hadd : CanAdd entries.keys items) {start : List Char}
    (hstart : skipTrivia start =
      skipTrivia (followed texts ++ (key.toList ++ ' ' :: '=' :: ' ' :: cs))) :
    readInlineEntries (readValue depth) items start = none := by
  induction h generalizing start items with
  | nil =>
    obtain ⟨hskip, hhead⟩ := bare_begins hk (' ' :: '=' :: ' ' :: cs)
    refine readInlineEntries_refused (hstart.trans hskip) hhead ?_
    rw [readInlineEntry_bare hk (skipTrivia_begins hbegins), hnone, Option.map_none]
  | @cons text e texts entries he hentries ih =>
    obtain ⟨other, t⟩ := e
    have hfree : items.has other = false := hadd.free other List.mem_cons_self
    rw [followed_more] at hstart
    obtain ⟨-, hskip, hhead, v, hread, -⟩ := he.readInlineEntry
      (.comma (' ' :: (followed texts ++ (key.toList ++ ' ' :: '=' :: ' ' :: cs))))
    rw [hskip] at hstart
    rw [readInlineEntries_more (leavesEnd_readValue depth) hstart hhead hread hfree]
    exact ih (hadd.next (.leaf v)) (skipTrivia_space _)

theorem readValue_broken {n : Nat} {cs : List Char}
    (h : Broken (fun n => readTree (n + more)) n cs) : readValue (n + more) cs = none := by
  -- on where the escape stands: each array or inline table around it takes a level of `n`
  induction h with
  | escape hquoted hrest => exact readValue_noEscape _ hquoted hrest
  | @item n texts ts cs hitems hcs ih =>
    rw [Nat.add_right_comm, readValue_array, readItems_followed hitems hcs.begins ih rfl,
      Option.map_none]
  | @entry n texts entries key cs hnodup hentries hk hcs ih =>
    have hadd : CanAdd entries.keys [] := ⟨(List.nodup_cons.mp hnodup).2, fun _ _ => rfl⟩
    rw [Nat.add_right_comm, readValue_table,
      readInlineEntries_followed hentries hk hcs.begins ih hadd (skipTrivia_space _),
      Option.map_none]

/-- The reader of values leaves room for `more` arrays and inline tables around them. -/
theorem readsValues_standard (more : Nat) : ReadsValues fun n => readTree (n + more) where
  boolean n b := written_boolean (n + more) b
  integer n _ h := written_integer (n + more) h
  string n _ _ h := written_string (n + more) h
  array {n _ _} h := by
    have hwritten := written_array h
    rwa [Nat.add_right_comm] at hwritten
  table {n _ entries} hnodup h := by
    have hwritten := written_table hnodup h
    rw [Nat.add_right_comm] at hwritten
    exact ⟨sortOnto [] entries, perm_sorted entries, hwritten⟩
  broken h := by rw [readTree, readValue_broken h, Option.bind_none]

end GrammarText.Toml
