import GrammarText.Proofs.Grammar.Steps
import GrammarText.Proofs.Grammar.Frame
import GrammarText.Proofs.Grammar.Undefined
import GrammarText.Proofs.Text.Search
import GrammarText.Proofs.Text.Words

/-!
The names that a directive brings in, and what they take from the list of undefined references.

- `NoArrow`, `IsListedName`: a text without an arrow, and a name as a directive lists it.
- `imported_list`, `imported_point`, `imported_arrow`, `declared_spaced`: the names of a directive are
  the ones that were written in it, for each way to write them.
- `parenthesizedNames?_eq_some`, `parenthesizedNames?_eq_none`: the names in parentheses are those of a
  piece of the text, and they are read whenever there is such a piece.
- `Grammar.undefined_directive`: a directive without references takes its names from the list, and
  nothing else, wherever it stands among the directives.
- `Grammar.declared_as_written`: all of this as one theorem.
-/

namespace GrammarText

open Text

/-! ## Arrows -/

def NoArrow (cs : List Char) : Prop := ¬ ['-', '>'] <:+: cs

instance (cs : List Char) : Decidable (NoArrow cs) := inferInstanceAs (Decidable (¬ _))

variable {cs xs ys : List Char} {c : Char}

/-- An arrow between two texts would begin with the last character of the first. -/
theorem NoArrow.append (hx : NoArrow xs) (hy : NoArrow ys) (h : '-' ∈ xs → ys.head? ≠ some '>') :
    NoArrow (xs ++ ys) := by
  rw [NoArrow, List.infix_append_iff, not_or, not_or]
  refine ⟨hx, hy, ?_⟩
  rintro ⟨l₁, l₂, heq, hsuffix, hprefix⟩
  cases l₁ with
  | nil =>
    rw [List.nil_append] at heq
    exact hy (heq ▸ hprefix.isInfix)
  | cons a l₁ =>
    obtain ⟨rfl, htail⟩ := List.cons.inj heq
    cases l₁ with
    | nil =>
      obtain rfl : ['>'] = l₂ := htail
      obtain ⟨t, rfl⟩ := hprefix
      exact h (hsuffix.subset List.mem_cons_self) rfl
    | cons b l₁ =>
      obtain ⟨rfl, hnil⟩ := List.cons.inj htail
      obtain ⟨rfl, rfl⟩ := List.append_eq_nil_iff.mp hnil.symm
      exact hx hsuffix.isInfix

theorem noArrow_of_not_mem (h : '-' ∉ cs) : NoArrow cs := fun hi => h (hi.subset List.mem_cons_self)

theorem NoArrow.cons (hy : NoArrow ys) (hc : c ≠ '-') : NoArrow (c :: ys) := by
  have hc' : '-' ∉ [c] := by simpa using hc.symm
  exact (noArrow_of_not_mem hc').append hy fun hm => absurd hm hc'

/-- A text with another character behind it. -/
theorem NoArrow.append_cons (hx : NoArrow xs) (hy : NoArrow ys) (hc : c ≠ '-') (hc' : c ≠ '>') :
    NoArrow (xs ++ c :: ys) := by
  refine hx.append (hy.cons hc) fun _ => ?_
  simpa using hc'

theorem noArrow_of_allBlank {bs : List Char} (h : AllBlank bs) : NoArrow bs :=
  noArrow_of_not_mem (not_mem_of_allBlank h (by decide))

theorem NoArrow.padded {padded : List Char} (h : NoArrow cs) (hp : Padded cs padded) :
    NoArrow padded := by
  obtain ⟨front, back, hfront, hback, rfl⟩ := hp
  have hend : back.head? ≠ some '>' := fun he =>
    not_mem_of_allBlank hback (by decide : isBlank '>' = false) (List.mem_of_mem_head? he)
  refine (noArrow_of_allBlank hfront).append (h.append (noArrow_of_allBlank hback) fun _ => hend) ?_
  exact fun hm => absurd hm (not_mem_of_allBlank hfront (by decide))

theorem noArrow_intercalate {pieces : List (List Char)} (h : ∀ p ∈ pieces, NoArrow p) :
    NoArrow (List.intercalate [','] pieces) := by
  induction pieces with
  | nil => decide
  | cons p rest ih =>
    obtain ⟨hp, hrest⟩ := List.forall_mem_cons.mp h
    cases rest with
    | nil => rwa [List.intercalate_singleton]
    | cons q rest =>
      rw [List.intercalate_cons_cons, List.append_assoc, List.singleton_append]
      exact hp.append_cons (ih hrest) (by decide) (by decide)

/-! ## Names in parentheses -/

/-- The names between the commas of a text; an entry of blanks names nothing. -/
def listedNames (inner : List Char) : List String :=
  ((cut (· == ',') inner).map fun piece => String.ofList (trimChars piece)).filter (· ≠ "")

theorem parenthesizedNames?_of_split {before after : List Char} (hbefore : '(' ∉ before)
    (inner : List Char) (hafter : ')' ∉ after) :
    parenthesizedNames? (before ++ '(' :: (inner ++ ')' :: after)) = some (listedNames inner) := by
  have hreverse : (inner ++ ')' :: after).reverse = after.reverse ++ ')' :: inner.reverse := by simp
  have hafter' : ')' ∉ after.reverse := fun hm => hafter (List.mem_reverse.mp hm)
  rw [parenthesizedNames?, splitAtFirst?_of_not_mem hbefore]
  simp only [hreverse, splitAtFirst?_of_not_mem hafter', List.reverse_reverse]
  rfl

theorem parenthesizedNames?_eq_some {start stop : Nat} (hstart : FirstAt '(' cs start)
    (hstop : LastAt ')' cs stop) (horder : start < stop) :
    ∃ inner, (∀ piece, IsSlice cs (start + 1) stop piece ↔ piece = inner) ∧
      parenthesizedNames? cs = some (listedNames inner) := by
  obtain ⟨before, inner, after, rfl, hbefore, hafter, hslice⟩ := slice_between hstart hstop horder
  refine ⟨inner, fun piece => ⟨fun h => h.unique hslice, ?_⟩,
    parenthesizedNames?_of_split hbefore inner hafter⟩
  rintro rfl
  exact hslice

theorem parenthesizedNames?_of_not_mem (h : '(' ∉ cs) : parenthesizedNames? cs = none := by
  rw [parenthesizedNames?, splitAtFirst?_eq_none_of_not_mem h]

/-- No names are read in parentheses exactly if no closing parenthesis stands behind the first
opening one. -/
theorem parenthesizedNames?_eq_none : parenthesizedNames? cs = none ↔
    ∀ start stop, FirstAt '(' cs start → LastAt ')' cs stop → stop ≤ start := by
  constructor
  · intro hnone start stop hstart hstop
    by_contra hle
    obtain ⟨inner, -, hsome⟩ := parenthesizedNames?_eq_some hstart hstop (by omega)
    rw [hnone] at hsome
    cases hsome
  · intro horder
    by_cases hopen : '(' ∈ cs
    · obtain ⟨before, rest, rfl, hbefore⟩ := List.eq_append_cons_of_mem hopen
      by_cases hclose : ')' ∈ rest.reverse
      · obtain ⟨after, inner, heq, hafter⟩ := List.eq_append_cons_of_mem hclose
        have hrest : rest = inner.reverse ++ ')' :: after.reverse := by
          rw [← List.reverse_reverse rest, heq]
          simp
        have hlast : LastAt ')' (before ++ '(' :: rest)
            (byteLength (before ++ '(' :: inner.reverse)) :=
          ⟨_, after.reverse, by simp [hrest], by simpa using hafter, rfl⟩
        have hle := horder _ _ ⟨before, rest, rfl, hbefore, rfl⟩ hlast
        -- behind the opening parenthesis is not in front of it
        rw [byteLength_append, byteLength] at hle
        have hwidth : 0 < '('.utf8Size := '('.utf8Size_pos
        omega
      · rw [parenthesizedNames?, splitAtFirst?_of_not_mem hbefore]
        simp only [splitAtFirst?_eq_none_of_not_mem hclose]
    · exact parenthesizedNames?_of_not_mem hopen

/-! ## Names as they are written -/

/-- A name as directives list them: not empty, and without blanks, commas, points, parentheses and
arrows. -/
structure IsListedName (name : String) : Prop where
  not_empty : name ≠ ""
  not_blank : ∀ c ∈ name.toList, isBlank c = false
  not_mark : ∀ c ∈ name.toList, c ∉ [',', '.', '(', ')']
  no_arrow : NoArrow name.toList

theorem isListedName_iff {name : String} : IsListedName name ↔ name ≠ "" ∧
    (name.toList.all fun c => !isBlank c && !(c ∈ [',', '.', '(', ')'])) = true ∧
      NoArrow name.toList := by
  simp only [List.all_eq_true, Bool.and_eq_true, Bool.not_eq_true', decide_eq_false_iff_not]
  exact ⟨fun h => ⟨h.not_empty, fun c hc => ⟨h.not_blank c hc, h.not_mark c hc⟩, h.no_arrow⟩,
    fun ⟨hne, hchars, harrow⟩ => ⟨hne, fun c hc => (hchars c hc).1, fun c hc => (hchars c hc).2,
      harrow⟩⟩

instance (name : String) : Decidable (IsListedName name) := decidable_of_iff _ isListedName_iff.symm

theorem IsListedName.not_mem {name : String} (h : IsListedName name) (hc : c ∈ [',', '.', '(', ')']) :
    c ∉ name.toList := fun hm => h.not_mark c hm hc

/-- The entries of a list in parentheses: names with blanks around them, and blanks alone. -/
def Listing (entries : List String) (pieces : List (List Char)) : Prop :=
  List.Forall₂ (fun entry piece => (entry = "" ∨ IsListedName entry) ∧ Padded entry.toList piece)
    entries pieces

theorem listing_piece {entries : List String} {pieces : List (List Char)}
    (h : Listing entries pieces) : ∀ p ∈ pieces, NoArrow p ∧ ',' ∉ p := by
  induction h with
  | nil => exact fun p hp => absurd hp List.not_mem_nil
  | @cons entry piece _ _ hpiece _ ih =>
    refine List.forall_mem_cons.mpr ⟨?_, ih⟩
    obtain ⟨hentry, hpad⟩ := hpiece
    obtain ⟨hname, hcomma⟩ : NoArrow entry.toList ∧ ',' ∉ entry.toList := by
      rcases hentry with rfl | hlisted
      · decide
      · exact ⟨hlisted.no_arrow, hlisted.not_mem (by decide)⟩
    refine ⟨hname.padded hpad, ?_⟩
    obtain ⟨front, back, hfront, hback, rfl⟩ := hpad
    have hblank : isBlank ',' = false := by decide
    simp [not_mem_of_allBlank hfront hblank, not_mem_of_allBlank hback hblank, hcomma]

theorem listing_trimmed {entries : List String} {pieces : List (List Char)}
    (h : Listing entries pieces) :
    pieces.map (fun piece => String.ofList (trimChars piece)) = entries := by
  induction h with
  | nil => rfl
  | @cons entry piece _ _ hpiece _ ih =>
    obtain ⟨hentry, hpad⟩ := hpiece
    have hblank : ∀ c ∈ entry.toList, isBlank c = false := by
      rcases hentry with rfl | hlisted
      · simp
      · exact hlisted.not_blank
    rw [List.map_cons, trimChars_padded hpad hblank, String.ofList_toList, ih]

theorem listedNames_listing {entries : List String} {pieces : List (List Char)}
    (h : Listing entries pieces) :
    listedNames (List.intercalate [','] pieces) = entries.filter (· ≠ "") := by
  by_cases hnil : pieces = []
  · subst hnil
    cases h with
    | nil => decide
  · have hcut : cut (· == ',') (List.intercalate [','] pieces) = pieces := by
      rw [cut_eq]
      exact List.splitOn_intercalate ',' (fun p hp => (listing_piece h p hp).2) hnil
    rw [listedNames, hcut, listing_trimmed h]

namespace Directive

/-- The directive `import` with the text. -/
def importing (text : List Char) : Directive := ⟨"import", .raw (String.ofList text)⟩

/-- The directive `declare` with the text. -/
def declaring (text : List Char) : Directive := ⟨"declare", .raw (String.ofList text)⟩

theorem declaredNames_importing (text : List Char) :
    (importing text).declaredNames = importedNames text := by
  simp [declaredNames, importing]

/-- Without an arrow the names in parentheses count, or else the last piece of the path. -/
theorem declaredNames_of_noArrow {text : List Char} (h : NoArrow text) :
    (importing text).declaredNames
      = (parenthesizedNames? text).getD [String.ofList (lastPiece (trimChars text))] := by
  rw [declaredNames_importing, importedNames, splitAtFirst?_eq_none.mpr h]
  cases parenthesizedNames? text <;> rfl

theorem imported_list {path gap : List Char} {entries : List String} {pieces : List (List Char)}
    (hpath : NoArrow path) (hopen : '(' ∉ path) (hgap : AllBlank gap) (h : Listing entries pieces) :
    (importing (path ++ (gap ++ '(' :: (List.intercalate [','] pieces ++ [')'])))).declaredNames
      = entries.filter (· ≠ "") := by
  have hinner : NoArrow (List.intercalate [','] pieces) :=
    noArrow_intercalate fun p hp => (listing_piece h p hp).1
  have hrest : NoArrow (gap ++ '(' :: (List.intercalate [','] pieces ++ [')'])) :=
    (noArrow_of_allBlank hgap).append_cons
      (hinner.append_cons (by decide) (by decide) (by decide)) (by decide) (by decide)
  have hstart : (gap ++ '(' :: (List.intercalate [','] pieces ++ [')'])).head? ≠ some '>' := by
    cases gap with
    | nil => simp
    | cons c gap =>
      rintro ⟨⟩
      exact absurd (hgap '>' List.mem_cons_self) (by decide)
  have hbefore : '(' ∉ path ++ gap := by
    simp [hopen, not_mem_of_allBlank hgap (by decide : isBlank '(' = false)]
  have hnames := parenthesizedNames?_of_split hbefore (List.intercalate [','] pieces)
    (List.not_mem_nil : ')' ∉ [])
  rw [List.append_assoc] at hnames
  rw [declaredNames_of_noArrow (hpath.append hrest fun _ => hstart), hnames, Option.getD_some,
    listedNames_listing h]

theorem lastPiece_append {name : List Char} (h : '.' ∉ name) (front : List Char) :
    lastPiece (front ++ '.' :: name) = name := by
  have hname : ∀ c ∈ name.reverse, decide (c ≠ '.') = true := by
    intro c hc
    rw [decide_eq_true_eq]
    rintro rfl
    exact h (List.mem_reverse.mp hc)
  have hreverse : (front ++ '.' :: name).reverse = name.reverse ++ '.' :: front.reverse := by simp
  rw [lastPiece, hreverse, List.takeWhile_append_of_pos hname,
    List.takeWhile_cons_of_neg (by decide), List.append_nil, List.reverse_reverse]

theorem imported_point {path text : List Char} {name : String} (hpath : NoArrow path)
    (hopen : '(' ∉ path) (hname : IsListedName name) (h : Padded (path ++ '.' :: name.toList) text) :
    (importing text).declaredNames = [name] := by
  have harrow : NoArrow text :=
    (hpath.append_cons hname.no_arrow (by decide) (by decide)).padded h
  have hnames : parenthesizedNames? text = none := by
    refine parenthesizedNames?_of_not_mem ?_
    obtain ⟨front, back, hfront, hback, rfl⟩ := h
    have hblank : isBlank '(' = false := by decide
    simp [not_mem_of_allBlank hfront hblank, not_mem_of_allBlank hback hblank, hopen,
      hname.not_mem (by decide : '(' ∈ [',', '.', '(', ')'])]
  have htrim : trimChars text = path.dropWhile isBlank ++ '.' :: name.toList := by
    rw [trimChars_around h, trimChars_append_kept (by decide) hname.not_blank]
  rw [declaredNames_of_noArrow harrow, hnames, htrim, lastPiece_append (hname.not_mem (by decide)),
    Option.getD_none, String.ofList_toList]

theorem imported_arrow {front rest : List Char} {name : String} (hfront : NoArrow front)
    (hname : IsListedName name) (h : Padded name.toList rest) :
    (importing (front ++ '-' :: '>' :: rest)).declaredNames = [name] := by
  have hfirst : ¬ ['-', '>'] <:+: front ++ ['-'] :=
    hfront.append (by decide) fun _ => by decide
  have hsplit := splitAtFirst?_of_not_infix (List.cons_ne_nil '-' ['>']) hfirst rest
  rw [declaredNames_importing, importedNames]
  simp only [List.cons_append, List.nil_append] at hsplit
  rw [hsplit]
  simp only [trimChars_padded h hname.not_blank, String.ofList_toList]

theorem declared_spaced {names : List String} {text : List Char} (h : Spaced names text) :
    (declaring text).declaredNames = names := by
  simp [declaredNames, declaring, words_spaced h]

theorem declaredNames_of_other {d : Directive} (himport : d.name ≠ "import")
    (hdeclare : d.name ≠ "declare") : d.declaredNames = [] := by
  obtain ⟨name, content⟩ := d
  cases content with
  | raw text => exact (if_neg hdeclare).trans (if_neg himport)
  | node e => rfl

end Directive

/-! ## What the names take from the list -/

namespace Grammar

/-- The names of a scope that are neither defined, nor declared, nor its own. -/
def Scope.missing (defined : String → Bool) (declared : List String) (s : Scope) : List String :=
  s.names.filter fun name =>
    !defined name && !declared.contains name && !s.locals.contains name

theorem undefinedReferences_eq (g : Grammar) :
    g.undefinedReferences = (g.scopes.flatMap
      (Scope.missing g.isDefined (g.directives.flatMap (·.declaredNames)))).eraseDups := rfl

theorem Scope.missing_of_declared (defined : String → Bool) (front names back : List String)
    (s : Scope) : s.missing defined (front ++ (names ++ back))
      = (s.missing defined (front ++ back)).filter (· ∉ names) := by
  rw [missing, missing, List.filter_filter]
  refine List.filter_congr fun name _ => ?_
  simp only [List.contains_eq_mem, List.mem_append, decide_not]
  by_cases h : name ∈ names <;> simp [h]

/-- A scope that keeps no name can be left out. -/
theorem flatMap_scopes_directive {kept : Scope → List String} {d : Directive}
    (hkept : kept { names := d.references } = []) (g : Grammar) (front back : List Directive) :
    ({ g with directives := front ++ d :: back } : Grammar).scopes.flatMap kept
      = ({ g with directives := front ++ back } : Grammar).scopes.flatMap kept := by
  simp [scopes, hkept]

/-- Wherever a directive without references stands, its names are taken from the list. The other
names keep their order. -/
theorem undefined_directive (g : Grammar) (front back : List Directive) {d : Directive}
    (hd : d.references = []) :
    ({ g with directives := front ++ d :: back } : Grammar).undefinedReferences
      = ({ g with directives := front ++ back } : Grammar).undefinedReferences.filter
          (· ∉ d.declaredNames) := by
  let declared := fun ds : List Directive => ds.flatMap (·.declaredNames)
  have hdeclared : declared (front ++ d :: back)
      = declared front ++ (d.declaredNames ++ declared back) := by
    simp [declared]
  have hnone : Scope.missing g.isDefined (declared (front ++ d :: back)) { names := d.references }
      = [] := by
    rw [Scope.missing, hd, List.filter_nil]
  rw [undefinedReferences_eq, undefinedReferences_eq, ← Entries.eraseDups_filter, List.filter_flatMap]
  congr 1
  refine (flatMap_scopes_directive hnone g front back).trans ?_
  rw [hdeclared]
  refine List.flatMap_congr fun s _ => ?_
  rw [Scope.missing_of_declared, ← List.flatMap_append]
  rfl

theorem undefined_appendDirective {g g' : Grammar} {name text : String}
    (h : g.perform (.appendDirective name (.raw text)) = (.ok (), g')) :
    g'.undefinedReferences = g.undefinedReferences.filter
      (· ∉ (⟨name, .raw text⟩ : Directive).declaredNames) := by
  have hrun := perform_ok.mp h
  simp only [Operation.run, appendDirective_eq] at hrun
  split at hrun
  · cases hrun
  · cases hrun
    have hlast := undefined_directive g g.directives [] (d := ⟨name, .raw text⟩) rfl
    rwa [List.append_nil] at hlast

/-- The names of a raw directive are read back as they are written. In an import they stand in
parentheses behind a path, between commas and with any blanks around them and any empty entries, or
behind the last point of the path, or behind the first arrow; in a declaration they stand between
blanks. No other directive brings a name in. Whatever the text is, the piece in parentheses is one of
the text: it begins behind the first opening parenthesis, ends in front of the last closing one, and
is looked for only if they stand in this order. Appending a raw directive takes the names that it
brings in from the list of undefined references, and leaves the others in their order. -/
theorem declared_as_written :
    (∀ (path gap : List Char) (entries : List String) (pieces : List (List Char)),
      NoArrow path → '(' ∉ path → AllBlank gap → Listing entries pieces →
      (Directive.importing
        (path ++ (gap ++ '(' :: (List.intercalate [','] pieces ++ [')'])))).declaredNames
          = entries.filter (· ≠ "")) ∧
    (∀ (path text : List Char) (name : String), NoArrow path → '(' ∉ path → IsListedName name →
      Padded (path ++ '.' :: name.toList) text →
      (Directive.importing text).declaredNames = [name]) ∧
    (∀ (front rest : List Char) (name : String), NoArrow front → IsListedName name →
      Padded name.toList rest →
      (Directive.importing (front ++ '-' :: '>' :: rest)).declaredNames = [name]) ∧
    (∀ (names : List String) (text : List Char), Spaced names text →
      (Directive.declaring text).declaredNames = names) ∧
    (∀ d : Directive, d.name ≠ "import" → d.name ≠ "declare" → d.declaredNames = []) ∧
    (∀ (text : List Char) (start stop : Nat), FirstAt '(' text start → LastAt ')' text stop →
      start < stop → ∃ inner, (∀ piece, IsSlice text (start + 1) stop piece ↔ piece = inner) ∧
        parenthesizedNames? text = some (listedNames inner)) ∧
    (∀ text : List Char, parenthesizedNames? text = none ↔
      ∀ start stop, FirstAt '(' text start → LastAt ')' text stop → stop ≤ start) ∧
    ∀ (g g' : Grammar) (name text : String),
      g.perform (.appendDirective name (.raw text)) = (.ok (), g') →
      g'.undefinedReferences = g.undefinedReferences.filter
        (· ∉ (⟨name, .raw text⟩ : Directive).declaredNames) :=
  ⟨fun _ _ _ _ => Directive.imported_list, fun _ _ _ => Directive.imported_point,
    fun _ _ _ => Directive.imported_arrow, fun _ _ => Directive.declared_spaced,
    fun _ => Directive.declaredNames_of_other, fun _ _ _ => parenthesizedNames?_eq_some,
    fun _ => parenthesizedNames?_eq_none, fun _ _ _ _ => undefined_appendDirective⟩

/-- A rule that refers to two terminals, none of which is defined. -/
def wordsAndNumbers : Grammar := (Grammar.new 0).runAll
  [.define "start" { tokens := [.handle ⟨.terminal, "WS", 0⟩, .handle ⟨.terminal, "NUMBER", 0⟩] }]

theorem wordsAndNumbers_declared :
    (Directive.importing "common ( WS,,NUMBER)".toList).declaredNames = ["WS", "NUMBER"] ∧
      (Directive.importing " common.WS\n".toList).declaredNames = ["WS"] ∧
      (Directive.importing "common.(-> WS".toList).declaredNames = ["WS"] ∧
      (Directive.declaring " WS\tNUMBER".toList).declaredNames = ["WS", "NUMBER"] ∧
      (∃ inner, (∀ piece, IsSlice "é (WS))".toList 4 7 piece ↔ piece = inner) ∧
        parenthesizedNames? "é (WS))".toList = some (listedNames inner)) ∧
      wordsAndNumbers.undefinedReferences = ["WS", "NUMBER"] ∧
      (wordsAndNumbers.perform
        (.appendDirective "import" (.raw "common.WS"))).2.undefinedReferences = ["NUMBER"] := by
  obtain ⟨hlist, hpoint, harrow, hdeclare, -, hslice, -, happend⟩ := declared_as_written
  have hws : IsListedName "WS" := by decide
  have hnumber : IsListedName "NUMBER" := by decide
  have hnone : AllBlank [] := by decide
  have hblank : AllBlank [' '] := by decide
  refine ⟨?_, ?_, ?_, ?_, ?_, by decide, ?_⟩
  · refine hlist "common".toList [' '] ["WS", "", "NUMBER"] [" WS".toList, [], "NUMBER".toList]
      (by decide) (by decide) hblank ?_
    refine .cons ⟨Or.inr hws, [' '], [], hblank, hnone, rfl⟩ ?_
    refine .cons ⟨Or.inl rfl, [], [], hnone, hnone, rfl⟩ ?_
    exact .cons ⟨Or.inr hnumber, [], [], hnone, hnone, rfl⟩ .nil
  · exact hpoint "common".toList _ "WS" (by decide) (by decide) hws
      ⟨[' '], ['\n'], hblank, by decide, by decide⟩
  · exact harrow "common.(".toList " WS".toList "WS" (by decide) hws
      ⟨[' '], [], hblank, hnone, by decide⟩
  · have hlast : Spaced ["NUMBER"] "\tNUMBER".toList :=
      @Spaced.cons ['\t'] [] "NUMBER" [] (by decide) hnumber.not_empty hnumber.not_blank
        (fun c hc => nomatch hc) (.nil hnone)
    have htab : ∀ c ∈ "\tNUMBER".toList.head?, isBlank c = true := by
      rintro c ⟨⟩
      decide
    exact hdeclare _ _ (@Spaced.cons [' '] _ "WS" _ hblank hws.not_empty hws.not_blank htab hlast)
  · exact hslice _ 3 7 ⟨"é ".toList, "WS))".toList, by decide⟩ ⟨"é (WS)".toList, [], by decide⟩
      (by decide)
  · have h := happend wordsAndNumbers _ "import" "common.WS" rfl
    exact h.trans (by decide)

end Grammar

end GrammarText
