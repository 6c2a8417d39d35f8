import GrammarText.Grammar.Undefined
import GrammarText.Proofs.Expr.Pieces
import GrammarText.Proofs.Grammar.Lines

/-!
What the list of undefined references says about the text of a grammar.

- `definedName`: the name that a line defines, as a reader of the text sees it. `definedName?_eq`: it
  is the name of the definition, behind an underscore if the definition is marked `inline`.
- `Item.pieces`: the line of an item with its names marked. `Item.mem_scope`: without a variable,
  these are among the names that the check of the item looks at.
- `checked_names_accounted`: where the check finds nothing, something accounts for every name in the
  text, or the name is that of an `inline` definition. `inlinedWord_not_accounted` is such a name.
-/

namespace GrammarText

open Text Emission

/-! ## The name that a line defines -/

/-- The line without a leading `?` or `!`. -/
def dropMark : List Char → List Char
  | '?' :: cs | '!' :: cs => cs
  | cs => cs

/-- Whether the name of a line ends in front of the character. -/
def endsName (c : Char) : Bool := c == '.' || c == '\x7b' || c == ':'

/-- The text up to its first point, brace or colon, without a leading mark. -/
def definedName (line : List Char) : List Char := (dropMark line).takeWhile (!endsName ·)

theorem dropMark_of_start {c : Char} (hc : isNameStart c = true) (cs : List Char) :
    dropMark (c :: cs) = c :: cs := by
  unfold dropMark
  split
  · rename_i h; rw [(List.cons.inj h).1] at hc; exact absurd hc (by decide)
  · rename_i h; rw [(List.cons.inj h).1] at hc; exact absurd hc (by decide)
  · rfl

/-- How a line spells the name of a definition with the modifier. -/
def Modifier.spell (m : Modifier) (name : String) : List Char :=
  if m = .inline then '_' :: name.toList else name.toList

theorem endsName_eq_false {d : Char} (hd : isNameChar d = true) : endsName d = false := by
  simp only [endsName, Bool.or_eq_false_iff, beq_eq_false_iff_ne]
  refine ⟨⟨?_, ?_⟩, ?_⟩
  all_goals
    rintro rfl
    exact absurd hd (by decide)

theorem takeWhile_name {cs : List Char} (hcs : ∀ d ∈ cs, isNameChar d = true) {c : Char}
    (hc : endsName c = true) (rest : List Char) :
    (cs ++ c :: rest).takeWhile (!endsName ·) = cs := by
  have hname : ∀ d ∈ cs, (!endsName d) = true := fun d hd => by
    rw [endsName_eq_false (hcs d hd), Bool.not_false]
  rw [List.takeWhile_append_of_pos hname, List.takeWhile_cons_of_neg (by rw [hc]; decide),
    List.append_nil]

theorem definedName_marked (m : Modifier) {k : NameClass} {name : String}
    (hk : k.admits name = true) {c : Char} (hc : endsName c = true) (rest : List Char) :
    definedName (m.symbol.toList ++ (name.toList ++ c :: rest)) = m.spell name := by
  obtain ⟨⟨d, ds, hds, hd⟩, hchars⟩ := admits_chars hk
  have hname := takeWhile_name hchars hc rest
  cases m with
  | none =>
    change (dropMark (name.toList ++ c :: rest)).takeWhile _ = _
    rw [hds] at hname ⊢
    rw [List.cons_append, dropMark_of_start hd]
    simpa [Modifier.spell, hds] using hname
  | inline =>
    have hunder : ∀ d ∈ '_' :: name.toList, isNameChar d = true :=
      List.forall_mem_cons.mpr ⟨by decide, hchars⟩
    exact takeWhile_name hunder hc rest
  | inlineSingle => exact hname
  | keepTerminals => exact hname

namespace Item

/-- The modifier of a definition or a template. A directive has none. -/
def modifier? : Item → Option Modifier
  | definition d => some d.modifier
  | directive _ => none
  | template t => some t.modifier

/-- The name that the line of a definition or a template defines. -/
def definedName? (ctx : Context) (i : Item) : Option (List Char) :=
  i.modifier?.map fun _ => definedName (i.written ctx)

theorem definedName?_eq (ctx : Context) {i : Item} {m : Modifier} (hm : i.modifier? = some m)
    (hn : ∃ k : NameClass, k.admits i.name = true) :
    i.definedName? ctx = some (m.spell i.name) := by
  obtain ⟨k, hk⟩ := hn
  rw [definedName?, hm, Option.map_some]
  congr 1
  cases i with
  | definition d =>
    cases hm
    rw [written, Definition.written, Definition.writtenHead, List.append_assoc, List.append_assoc]
    unfold Definition.writtenPriority
    -- the name ends at the point of a priority, or else at the colon
    split
    · exact definedName_marked d.modifier hk rfl _
    · exact definedName_marked d.modifier hk rfl _
  | directive d => cases hm
  | template t =>
    cases hm
    exact definedName_marked t.modifier hk rfl _

/-! ## The names on a line -/

/-- The line of the item, in pieces. -/
def pieces (ctx : Context) : Item → List Piece
  | definition d => .chars d.writtenHead :: Expr.piecesItems ctx [' '] d.tokens
  | directive d => .chars ('%' :: (d.name.toList ++ [' '])) :: (match d.content with
    | .raw text => [.chars text.toList]
    | .node e => e.pieces ctx)
  | template t =>
    .chars (t.modifier.symbol.toList ++ (t.name.toList ++ ['\x7b']))
      :: (Expr.piecesItems ctx [',', ' '] t.params
        ++ .chars ['\x7d', ':', ' '] :: Expr.piecesItems ctx [' '] t.tokens)

theorem text_pieces (ctx : Context) (i : Item) : textOf (i.pieces ctx) = i.written ctx := by
  have hrow : ∀ sep items, textOf (Expr.piecesItems ctx sep items) = Expr.writtenItems ctx sep items :=
    fun sep items => Expr.text_piecesItems fun x _ => Expr.text_pieces ctx x
  cases i with
  | definition d => simp [pieces, written, Definition.written, Piece.text, hrow]
  | directive d =>
    obtain ⟨name, content⟩ := d
    cases content with
    | raw text => simp [pieces, written, Directive.written, Directive.writtenContent, Piece.text]
    | node e =>
      simp [pieces, written, Directive.written, Directive.writtenContent, Piece.text,
        Expr.text_pieces]
  | template t => simp [pieces, written, TemplateDef.written, Piece.text, hrow]

/-- The names of the handles and instantiations that the context leads to are among the pieces. -/
theorem name_mem_pieces {ctx : Context} {i : Item} {e x : Expr} (he : e ∈ i.expressions)
    (hx : Expr.Within ctx x e) {name : String} (hn : name ∈ x.ownNames) :
    .name name ∈ i.pieces ctx := by
  have hp := Expr.name_mem_of_within hx hn
  cases i with
  | definition d => exact List.mem_cons_of_mem _ (Expr.mem_piecesItems he hp)
  | directive d =>
    obtain ⟨dname, content⟩ := d
    cases content with
    | raw text => cases he
    | node content =>
      obtain rfl := List.mem_singleton.mp he
      exact List.mem_cons_of_mem _ hp
  | template t =>
    rcases List.mem_append.mp he with he | he
    · exact List.mem_cons_of_mem _ (List.mem_append_left _ (Expr.mem_piecesItems he hp))
    · exact List.mem_cons_of_mem _ (List.mem_append_right _
        (List.mem_cons_of_mem _ (Expr.mem_piecesItems he hp)))

/-- What the check of the item looks at. -/
def scope : Item → Grammar.Scope
  | definition d => { names := d.references }
  | directive d => { names := d.references }
  | template t => { names := t.references, locals := Expr.referencesAll t.params }

theorem mem_scope {ctx : Context} {i : Item} (hv : Expr.anyHoldsVariable i.expressions = false)
    {name : String} (h : .name name ∈ i.pieces ctx) :
    name ∈ i.scope.names ∨ name ∈ i.scope.locals := by
  have hrow : ∀ {sep items}, (∀ x ∈ items, x ∈ i.expressions) →
      .name name ∈ Expr.piecesItems ctx sep items → name ∈ Expr.referencesAll items :=
    fun hsub => Expr.mem_referencesAll_of_pieces (fun x _ => Expr.mem_references ctx x)
      (Expr.anyHoldsVariable_of_subset hsub hv)
  cases i with
  | definition d =>
    simp only [pieces, List.mem_cons, reduceCtorEq, false_or] at h
    exact Or.inl (hrow (fun _ hx => hx) h)
  | directive d =>
    obtain ⟨dname, content⟩ := d
    cases content with
    | raw text => simp [pieces] at h
    | node e =>
      simp only [pieces, List.mem_cons, reduceCtorEq, false_or] at h
      exact Or.inl (Expr.mem_references ctx e
        (Expr.anyHoldsVariable_eq_false.mp hv e List.mem_cons_self) name h)
  | template t =>
    simp only [pieces, List.mem_cons, List.mem_append, reduceCtorEq, false_or] at h
    -- the check does not look at the parameters, which count as defined on this line
    rcases h with h | h
    · exact Or.inr (hrow (fun _ hx => List.mem_append_left _ hx) h)
    · exact Or.inl (hrow (fun _ hx => List.mem_append_right _ hx) h)

/-! ## Items without variables -/

theorem render_succeeds (ctx : Context) {i : Item}
    (hv : Expr.anyHoldsVariable i.expressions = false) : Succeeds (i.render ctx) := by
  have hrow : ∀ sep items, (∀ x ∈ items, x ∈ i.expressions) →
      Succeeds (Expr.renderSeparated ctx sep items) := fun sep items hsub =>
    Expr.renderSeparated_succeeds ctx sep items (Expr.anyHoldsVariable_of_subset hsub hv)
  cases i with
  | definition d => exact d.render_succeeds ctx hv
  | directive d =>
    obtain ⟨name, content⟩ := d
    refine (succeeds_emit "%").seq ((succeeds_emit name).seq ((succeeds_emit " ").seq ?_))
    cases content with
    | raw text => exact succeeds_emit text
    | node e =>
      exact Expr.render_succeeds ctx e (Expr.anyHoldsVariable_eq_false.mp hv e List.mem_cons_self)
  | template t =>
    have hparams := hrow ", " t.params fun _ hx => List.mem_append_left _ hx
    have htokens := hrow " " t.tokens fun _ hx => List.mem_append_right _ hx
    exact (succeeds_emit _).seq ((succeeds_emit _).seq ((Expr.succeeds_enclosed hparams).seq
      ((succeeds_emit ": ").seq htokens)))

end Item

namespace Grammar

variable {ctx : Context} {g : Grammar}

/-- A grammar without variables is never refused. -/
theorem generate_eq_lines (ctx : Context)
    (hv : ∀ i ∈ g.items, Expr.anyHoldsVariable i.expressions = false) :
    g.generate ctx = .ok (Text.trim (String.ofList (terminated (g.lines ctx)))) :=
  generate_of_succeeds fun i hi => i.render_succeeds ctx (hv i hi)

/-! ## What the check looks at -/

theorem scopes_eq (g : Grammar) : g.scopes = g.items.map Item.scope := by
  simp [scopes, items, parts, Item.scope, Function.comp_def]

theorem mem_undefinedReferences {name : String} : name ∈ g.undefinedReferences ↔
    g.isDefined name = false ∧ (∀ d ∈ g.directives, name ∉ d.declaredNames) ∧
      ∃ i ∈ g.items, name ∈ i.scope.names ∧ name ∉ i.scope.locals := by
  unfold undefinedReferences
  rw [List.mem_eraseDups, scopes_eq]
  simp only [List.mem_flatMap, List.mem_map, List.mem_filter, Bool.and_eq_true, Bool.not_eq_true',
    List.contains_eq_mem, decide_eq_false_iff_not, not_exists, not_and]
  constructor
  · rintro ⟨s, ⟨i, hi, rfl⟩, hn, ⟨hdef, hdir⟩, hloc⟩
    exact ⟨hdef, hdir, i, hi, hn, hloc⟩
  · rintro ⟨hdef, hdir, i, hi, hn, hloc⟩
    exact ⟨_, ⟨i, hi, rfl⟩, hn, ⟨hdef, hdir⟩, hloc⟩

theorem name_of_undefined_nil (hu : g.undefinedReferences = []) {i : Item} (hi : i ∈ g.items)
    {name : String} (hn : name ∈ i.scope.names) :
    g.isDefined name = true ∨ (∃ d ∈ g.directives, name ∈ d.declaredNames) ∨
      name ∈ i.scope.locals := by
  by_contra hno
  simp only [not_or, not_exists, not_and, Bool.not_eq_true] at hno
  obtain ⟨hdef, hdir, hloc⟩ := hno
  have hmem : name ∈ g.undefinedReferences :=
    mem_undefinedReferences.mpr ⟨hdef, hdir, i, hi, hn, hloc⟩
  rw [hu] at hmem
  cases hmem

theorem value_of_has {α : Type} {nameOf : α → String} {Ok : α → Prop} {es : Entries α}
    (hf : Entries.Filed nameOf Ok es) {name : String} (h : es.has name = true) :
    ∃ v ∈ es.values, nameOf v = name := by
  obtain ⟨e, he, rfl⟩ := List.mem_map.mp (Entries.has_iff.mp h)
  exact ⟨e.2, List.mem_map_of_mem he, (hf.each e he).1⟩

/-- A defined name is that of a definition or a template. -/
theorem Consistent.item_of_isDefined (hg : g.Consistent) {name : String}
    (h : g.isDefined name = true) : ∃ i ∈ g.items, ∃ m, i.modifier? = some m ∧ i.name = name := by
  rw [isDefined, Bool.or_eq_true, Bool.or_eq_true] at h
  rcases h with (h | h) | h
  · obtain ⟨d, hd, hname⟩ := value_of_has (hg.definitions .rule) h
    exact ⟨.definition d, mem_items.mpr (Or.inr (Or.inl ⟨d, hd, rfl⟩)), d.modifier, rfl, hname⟩
  · obtain ⟨d, hd, hname⟩ := value_of_has (hg.definitions .terminal) h
    exact ⟨.definition d, mem_items.mpr (Or.inl ⟨d, hd, rfl⟩), d.modifier, rfl, hname⟩
  · obtain ⟨t, ht, hname⟩ := value_of_has hg.templates h
    exact ⟨.template t, mem_items.mpr (Or.inr (Or.inr (Or.inr ⟨t, ht, rfl⟩))), t.modifier, rfl,
      hname⟩

/-! ## Every name is accounted for -/

/-- What may account for a name on the line of an item: a parameter of it, a directive that brings
the name in, or a line of the text that defines the name. -/
def Accounted (g : Grammar) (ctx : Context) (i : Item) (name : String) : Prop :=
  (∃ t, i = .template t ∧ name ∈ Expr.referencesAll t.params) ∨
    (∃ d ∈ g.directives, name ∈ d.declaredNames) ∨
      ∃ j ∈ g.items, j.definedName? ctx = some name.toList

/-- Where the check of a grammar without variables finds nothing, the grammar has a text in every
context. Its lines come in pieces, among which are the names of all handles and instantiations that
the text shows. Something accounts for each name among them, or the name is one of an `inline`
definition, whose line defines it behind an underscore. -/
theorem checked_names_accounted (hg : g.IsReachable)
    (hv : ∀ i ∈ g.items, Expr.anyHoldsVariable i.expressions = false)
    (hu : g.undefinedReferences = []) (ctx : Context) :
    g.generate ctx = .ok (Text.trim (String.ofList (terminated (g.lines ctx)))) ∧
      ∀ i ∈ g.items, textOf (i.pieces ctx) = i.written ctx ∧
        (∀ e ∈ i.expressions, ∀ x, Expr.Within ctx x e →
          ∀ name ∈ x.ownNames, .name name ∈ i.pieces ctx) ∧
        ∀ name, .name name ∈ i.pieces ctx → g.Accounted ctx i name ∨
          ∃ j ∈ g.items, j.modifier? = some .inline ∧ j.name = name ∧
            j.definedName? ctx = some ('_' :: name.toList) := by
  refine ⟨generate_eq_lines ctx hv, fun i hi => ⟨i.text_pieces ctx,
    fun e he x hx name hn => Item.name_mem_pieces he hx hn, fun name hname => ?_⟩⟩
  have hlocal : name ∈ i.scope.locals → g.Accounted ctx i name := by
    intro h
    cases i with
    | definition | directive => cases h
    | template t => exact Or.inl ⟨t, rfl, h⟩
  rcases Item.mem_scope (hv i hi) hname with hn | hn
  · rcases name_of_undefined_nil hu hi hn with h | h | h
    · have hc := hg.consistent
      obtain ⟨j, hj, m, hm, rfl⟩ := hc.item_of_isDefined h
      have hdef := Item.definedName?_eq ctx hm (hc.admits_item hj)
      by_cases hinline : m = .inline
      · subst hinline
        exact Or.inr ⟨j, hj, hm, rfl, hdef⟩
      · rw [Modifier.spell, if_neg hinline] at hdef
        exact Or.inl (Or.inr (Or.inr ⟨j, hj, hdef⟩))
    · exact Or.inl (Or.inr (Or.inl h))
    · exact Or.inl (hlocal h)
  · exact Or.inl (hlocal hn)

/-- A template with a parameter, and a rule that instantiates it with an imported terminal. -/
def pairOfWords : Grammar := (Grammar.new 0).runAll
  [.putTemplate "pair" (.handle ⟨.rule, "x", 0⟩)
      { tokens := [.handle ⟨.rule, "x", 0⟩, .handle ⟨.rule, "x", 0⟩] } {},
    .define "start" { tokens := [.template "pair" [.handle ⟨.terminal, "WORD", 0⟩]] },
    .appendDirective "import" (.raw "common.WORD")]

theorem pairOfWords_accounted :
    pairOfWords.undefinedReferences = [] ∧
      (∀ i ∈ pairOfWords.items, Expr.anyHoldsVariable i.expressions = false) ∧
      pairOfWords.generate {}
        = .ok "start: pair\x7bWORD\x7d\n\n%import common.WORD\n\npair\x7bx\x7d: x x" ∧
      ∀ i ∈ pairOfWords.items, ∀ name, .name name ∈ i.pieces {} →
        pairOfWords.Accounted {} i name := by
  have hu : pairOfWords.undefinedReferences = [] := by decide
  have hv : ∀ i ∈ pairOfWords.items, Expr.anyHoldsVariable i.expressions = false := by decide
  have hno : ∀ j ∈ pairOfWords.items, j.modifier? ≠ some .inline := by decide
  obtain ⟨hgen, hall⟩ := checked_names_accounted ⟨0, _, rfl⟩ hv hu {}
  refine ⟨hu, hv, hgen.trans rfl, fun i hi name hname => ?_⟩
  rcases (hall i hi).2.2 name hname with h | ⟨j, hj, hm, -⟩
  · exact h
  · exact absurd hm (hno j hj)

/-- An inlined rule, and a rule that refers to it. -/
def inlinedWord : Grammar := (Grammar.new 0).runAll
  [.define "word" { tokens := [.text "a"], modifier := some .inline },
    .define "start" { tokens := [.handle ⟨.rule, "word", 0⟩] }]

/-- The check finds nothing in a grammar with a reference to an inlined rule. In the text the line of
the rule begins with an underscore and the reference does not. -/
theorem inlinedWord_not_accounted :
    inlinedWord.IsReachable ∧ inlinedWord.undefinedReferences = [] ∧
      (∀ i ∈ inlinedWord.items, Expr.anyHoldsVariable i.expressions = false) ∧
      inlinedWord.generate {} = .ok "_word: \"a\"\nstart: word" ∧
      ∃ i ∈ inlinedWord.items, .name "word" ∈ i.pieces {} ∧ ¬ inlinedWord.Accounted {} i "word" := by
  refine ⟨⟨0, _, rfl⟩, by decide, by decide, rfl,
    .definition ⟨.rule, "start", [.handle ⟨.rule, "word", 0⟩], .none, 1⟩, ?_, ?_, ?_⟩
  · exact List.mem_cons_of_mem _ List.mem_cons_self
  · exact List.mem_cons_of_mem _ List.mem_cons_self
  · rintro (⟨t, ht, -⟩ | ⟨d, hd, -⟩ | ⟨j, hj, hdef⟩)
    · cases ht
    · cases hd
    · have hnone : ∀ j ∈ inlinedWord.items, j.definedName? {} ≠ some "word".toList := by decide
      exact hnone j hj hdef

end Grammar

end GrammarText
