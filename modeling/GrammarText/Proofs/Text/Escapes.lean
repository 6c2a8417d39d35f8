import GrammarText.Proofs.Text.Literal
import Mathlib

/-!
The inside of a literal, read piece by piece.

- `IsNumeral`: the numbers that are read in an escape, `readHex?_eq_some`.
- `pieces`: plain characters and escapes, from the left. `Writes`: the pieces that characters are
  written as. `Reads`: those that they are read from.
- `unescapeChars?_eq_some`: every piece is read by itself. `exists_reads_iff`: beside what is
  written, only numbers are read.
- `unescape?_by_pieces`: which texts are read, as what, and which are refused.
  `letter_read_from_number` is a text that is read and never written.
-/

namespace GrammarText.Text

/-! ## Numbers -/

/-- Hexadecimal digits in either case, with one plus sign in front of them or none. -/
def IsNumeral (cs : List Char) (n : Nat) : Prop :=
  ∃ (sign digits : List Char) (ds : List Nat), cs = sign ++ digits ∧
    (sign = [] ∨ sign = ['+']) ∧ digits ≠ [] ∧ digits.map hexVal? = ds.map some ∧
    n = Nat.ofDigits 16 ds.reverse

theorem readHexOnto?_eq_some {acc n : Nat} {digits : List Char} :
    readHexOnto? acc digits = some n ↔
      ∃ ds : List Nat, digits.map hexVal? = ds.map some ∧
        n = Nat.ofDigits 16 ds.reverse + 16 ^ ds.length * acc := by
  induction digits generalizing acc with
  | nil =>
    simp only [readHexOnto?, Option.some.injEq, List.map_nil]
    constructor
    · rintro rfl
      exact ⟨[], rfl, by simp⟩
    · rintro ⟨ds, hds, rfl⟩
      obtain rfl := List.map_eq_nil_iff.mp hds.symm
      simp
  | cons c digits ih =>
    rw [readHexOnto?]
    cases hc : hexVal? c with
    | none =>
      simp only [reduceCtorEq, false_iff]
      rintro ⟨ds, hds, -⟩
      cases ds <;> simp [hc] at hds
    | some d =>
      simp only [ih]
      have hsum : ∀ ds : List Nat, Nat.ofDigits 16 (d :: ds).reverse + 16 ^ (d :: ds).length * acc
          = Nat.ofDigits 16 ds.reverse + 16 ^ ds.length * (16 * acc + d) := by
        intro ds
        rw [List.reverse_cons, Nat.ofDigits_append, Nat.ofDigits_singleton, List.length_reverse,
          List.length_cons, Nat.pow_succ]
        ring
      constructor
      · rintro ⟨ds, hds, rfl⟩
        exact ⟨d :: ds, by simp [hc, hds], (hsum ds).symm⟩
      · rintro ⟨ds, hds, rfl⟩
        cases ds with
        | nil => cases hds
        | cons d' ds =>
          rw [List.map_cons, List.map_cons, hc, List.cons.injEq, Option.some.injEq] at hds
          obtain ⟨rfl, hds⟩ := hds
          exact ⟨ds, hds, hsum ds⟩

theorem readHex?_eq_some {cs : List Char} {n : Nat} : readHex? cs = some n ↔ IsNumeral cs n := by
  have hdigits : ∀ {digits : List Char}, readHexOnto? 0 digits = some n ↔
      ∃ ds : List Nat, digits.map hexVal? = ds.map some ∧ n = Nat.ofDigits 16 ds.reverse := by
    simp [readHexOnto?_eq_some]
  -- a plus sign is no digit
  have hplus : ∀ {digits : List Char} {ds : List Nat},
      ('+' :: digits).map hexVal? ≠ ds.map some := by
    intro digits ds h
    cases ds with
    | nil => cases h
    | cons d ds =>
      have hsign : hexVal? '+' = some d := (List.cons.inj h).1
      rw [show hexVal? '+' = none from rfl] at hsign
      cases hsign
  unfold readHex? IsNumeral
  split
  · simp
  · simp only [reduceCtorEq, false_iff]
    rintro ⟨sign, digits, ds, heq, rfl | rfl, hne, hds, -⟩
    · rw [List.nil_append] at heq
      subst heq
      exact hplus hds
    · cases digits with
      | nil => exact hne rfl
      | cons d digits => cases heq
  · rename_i digits hne
    rw [hdigits]
    constructor
    · rintro ⟨ds, hds, hn⟩
      exact ⟨['+'], digits, ds, rfl, Or.inr rfl, by rintro rfl; exact hne rfl, hds, hn⟩
    · rintro ⟨sign, digits', ds, heq, rfl | rfl, -, hds, hn⟩
      · rw [List.nil_append] at heq
        subst heq
        exact absurd hds hplus
      · cases heq
        exact ⟨ds, hds, hn⟩
  · rename_i hnil hone hsign
    rw [hdigits]
    constructor
    · rintro ⟨ds, hds, hn⟩
      exact ⟨[], cs, ds, rfl, Or.inl rfl, hnil, hds, hn⟩
    · rintro ⟨sign, digits', ds, heq, rfl | rfl, -, hds, hn⟩
      · cases heq
        exact ⟨ds, hds, hn⟩
      · exact absurd heq (hsign digits')

/-! ## Pieces -/

/-- What the inside of a literal is made of. -/
inductive Piece where
  | plain (c : Char)
  /-- A backslash, the character behind it and the digits that this one announces. -/
  | escape (cs : List Char)
  /-- An escape that the text ends in. -/
  | cut (cs : List Char)
  deriving DecidableEq

/-- The pieces of a text, from the left. -/
def pieces : List Char → List Piece
  | [] => []
  | ['\\'] => [.cut ['\\']]
  | '\\' :: e :: rest =>
    let width := (escapeWidth? e).getD 0
    if rest.length < width then [.cut ('\\' :: e :: rest)]
    else .escape ('\\' :: e :: rest.take width) :: pieces (rest.drop width)
  | c :: rest => .plain c :: pieces rest
termination_by cs => cs.length
decreasing_by
  all_goals simp only [List.length_cons, List.length_drop]
  all_goals omega

theorem pieces_plain {c : Char} (hc : c ≠ '\\') (rest : List Char) :
    pieces (c :: rest) = .plain c :: pieces rest := by
  rw [pieces.eq_def]
  split <;> simp_all

theorem pieces_letter {e : Char} (he : escapeWidth? e = none) (rest : List Char) :
    pieces ('\\' :: e :: rest) = .escape ['\\', e] :: pieces rest := by
  simp [pieces, he]

theorem pieces_number {e : Char} {width : Nat} (he : escapeWidth? e = some width)
    {rest : List Char} (h : width ≤ rest.length) :
    pieces ('\\' :: e :: rest)
      = .escape ('\\' :: e :: rest.take width) :: pieces (rest.drop width) := by
  simp [pieces, he, Nat.not_lt.mpr h]

theorem pieces_cut {e : Char} {width : Nat} (he : escapeWidth? e = some width)
    {rest : List Char} (h : rest.length < width) :
    pieces ('\\' :: e :: rest) = [.cut ('\\' :: e :: rest)] := by
  simp [pieces, he, h]

/-- The piece is the plain character, or the escape that the character is written as. -/
inductive Writes : Piece → Char → Prop
  | plain (c : Char) : Writes (.plain c) c
  | escape {c : Char} {rest : List Char} (h : (escape (String.singleton c)).toList = '\\' :: rest) :
      Writes (.escape ('\\' :: rest)) c

/-- The piece is read as the character: the plain character, an escape by a letter, or an escape by
a number, in whatever digits and in whichever width has room for them. -/
inductive Reads : Piece → Char → Prop
  | plain (c : Char) : Reads (.plain c) c
  | short {e c : Char} (he : shortEscape? e = some c) : Reads (.escape ['\\', e]) c
  | number {e c : Char} {digits : List Char} (he : escapeWidth? e = some digits.length)
      (hdigits : IsNumeral digits c.toNat) : Reads (.escape ('\\' :: e :: digits)) c

theorem charOfCode?_eq_some {n : Nat} {c : Char} : charOfCode? n = some c ↔ c.toNat = n := by
  constructor
  · intro h
    unfold charOfCode? at h
    split at h
    · rename_i hv
      cases h
      rw [Char.ofNat, dif_pos hv]
      rfl
    · cases h
  · rintro rfl
    exact charOfCode?_toNat c

theorem reads_plain {c c' : Char} : Reads (.plain c) c' ↔ c' = c := by
  constructor
  · rintro ⟨⟩; rfl
  · rintro rfl; exact .plain _

theorem reads_short {e c c' : Char} (he : shortEscape? e = some c) :
    Reads (.escape ['\\', e]) c' ↔ c' = c := by
  constructor
  · intro h
    cases h with
    | short he' => exact Option.some.inj (he'.symm.trans he)
    | number hw => rw [shortEscape?_of_width hw] at he; cases he
  · rintro rfl
    exact .short he

theorem reads_number {e c : Char} {digits : List Char}
    (he : escapeWidth? e = some digits.length) :
    Reads (.escape ('\\' :: e :: digits)) c ↔ (readHex? digits).bind charOfCode? = some c := by
  rw [Option.bind_eq_some_iff]
  constructor
  · intro h
    cases h with
    | short he' => rw [shortEscape?_of_width he] at he'; cases he'
    | number _ hdigits => exact ⟨c.toNat, readHex?_eq_some.mpr hdigits, charOfCode?_toNat c⟩
  · rintro ⟨n, hn, hc⟩
    rw [charOfCode?_eq_some] at hc
    exact .number he (hc ▸ readHex?_eq_some.mp hn)

theorem numericEscape?_eq_some {e c : Char} {width : Nat} (he : escapeWidth? e = some width)
    {rest : List Char} (h : width ≤ rest.length) :
    numericEscape? width rest = some c ↔ Reads (.escape ('\\' :: e :: rest.take width)) c := by
  have hlength : (rest.take width).length = width := List.length_take_of_le h
  rw [numericEscape?, if_pos hlength, reads_number (by rw [hlength, he])]

theorem map_cons_eq_some_iff {c : Char} {ps : List Piece} {p : Piece} {result : Option (List Char)}
    {s : List Char} (hp : ∀ c', Reads p c' ↔ c' = c)
    (hrest : ∀ {s}, result = some s ↔ List.Forall₂ Reads ps s) :
    result.map (c :: ·) = some s ↔ List.Forall₂ Reads (p :: ps) s := by
  rw [Option.map_eq_some_iff, List.forall₂_cons_left_iff]
  simp only [hp, hrest]
  constructor
  · rintro ⟨s', hs', rfl⟩
    exact ⟨c, s', rfl, hs', rfl⟩
  · rintro ⟨c', s', rfl, hs', rfl⟩
    exact ⟨s', hs', rfl⟩

theorem not_forall₂_cons {ps : List Piece} {p : Piece} {s : List Char} (hp : ∀ c, ¬ Reads p c) :
    ¬ List.Forall₂ Reads (p :: ps) s := by
  rw [List.forall₂_cons_left_iff]
  rintro ⟨c, s', hc, -⟩
  exact hp c hc

theorem not_reads_cut (cs : List Char) (c : Char) : ¬ Reads (.cut cs) c := fun h => nomatch h

/-- A text is read piece by piece. -/
theorem unescapeChars?_eq_some {cs s : List Char} :
    unescapeChars? cs = some s ↔ List.Forall₂ Reads (pieces cs) s := by
  fun_induction unescapeChars? cs generalizing s with
  | case1 => rw [pieces, List.forall₂_nil_left_iff, Option.some.injEq, eq_comm]
  | case2 =>
    rw [pieces]
    simp only [reduceCtorEq, false_iff]
    exact not_forall₂_cons (not_reads_cut _)
  | case3 e rest c hshort ih =>
    have hwidth : escapeWidth? e = none := by
      cases hwidth : escapeWidth? e with
      | none => rfl
      | some width => rw [shortEscape?_of_width hwidth] at hshort; cases hshort
    rw [pieces_letter hwidth]
    exact map_cons_eq_some_iff (fun c' => reads_short hshort) ih
  | case4 e rest hshort hwidth =>
    rw [pieces_letter hwidth]
    simp only [reduceCtorEq, false_iff]
    refine not_forall₂_cons fun c h => ?_
    cases h with
    | short he => rw [hshort] at he; cases he
    | number he => rw [hwidth] at he; cases he
  | case5 e rest hshort width hwidth hnumber =>
    simp only [reduceCtorEq, false_iff]
    -- digits are missing, or those that are there make no number of a character
    by_cases hlength : rest.length < width
    · rw [pieces_cut hwidth hlength]
      exact not_forall₂_cons (not_reads_cut _)
    · rw [Nat.not_lt] at hlength
      rw [pieces_number hwidth hlength]
      refine not_forall₂_cons fun c h => ?_
      rw [(numericEscape?_eq_some hwidth hlength).mpr h] at hnumber
      cases hnumber
  | case6 e rest hshort width hwidth c hnumber ih =>
    have hlength : width ≤ rest.length := by
      by_contra hshorter
      rw [numericEscape?, if_neg (by rw [List.length_take]; omega)] at hnumber
      cases hnumber
    rw [pieces_number hwidth hlength]
    refine map_cons_eq_some_iff (fun c' => ?_) ih
    rw [← numericEscape?_eq_some hwidth hlength, hnumber, Option.some.injEq, eq_comm]
  | case7 c rest hback hne ih =>
    rw [pieces_plain]
    · exact map_cons_eq_some_iff (fun c' => reads_plain) ih
    · rintro rfl
      cases rest with
      | nil => exact hback rfl rfl
      | cons e rest => exact hne e rest rfl rfl

/-! ## Written and read -/

theorem toList_escape_singleton (c : Char) : (escape (String.singleton c)).toList = escapeChar c := by
  rw [escape, String.toList_ofList, String.toList_singleton, escapeChars, List.flatMap_singleton]

theorem reads_of_writes {p : Piece} {c : Char} (h : Writes p c) : Reads p c := by
  cases h with
  | plain => exact .plain c
  | @escape _ rest h =>
    have hform := escapeChar_form c
    rw [← toList_escape_singleton, h] at hform
    cases hform with
    | plain hback => exact absurd rfl hback
    | short he => exact .short he
    | number he hc =>
      refine .number (by rw [length_hexDigits, he]) ?_
      exact readHex?_eq_some.mp (readHex?_hexDigits (width_pos he) hc)

theorem writes_of_shortEscape? {e c : Char} (h : shortEscape? e = some c) :
    Writes (.escape ['\\', e]) c := by
  have hwritten : (escape (String.singleton c)).toList = ['\\', e] := by
    rw [toList_escape_singleton]
    unfold shortEscape? at h
    repeat' split at h
    all_goals cases h
    all_goals subst_vars
    all_goals rfl
  exact .escape hwritten

/-- An escape by the number of a character. -/
def Piece.IsNumber (p : Piece) : Prop :=
  ∃ e digits, ∃ c : Char, p = .escape ('\\' :: e :: digits) ∧
    escapeWidth? e = some digits.length ∧ IsNumeral digits c.toNat

/-- Beside what is written, numbers are read and nothing else. -/
theorem exists_reads_iff {p : Piece} :
    (∃ c, Reads p c) ↔ (∃ c, Writes p c) ∨ p.IsNumber := by
  constructor
  · rintro ⟨c, h⟩
    cases h with
    | plain => exact Or.inl ⟨c, .plain c⟩
    | short he => exact Or.inl ⟨c, writes_of_shortEscape? he⟩
    | number he hdigits => exact Or.inr ⟨_, _, c, rfl, he, hdigits⟩
  · rintro (⟨c, h⟩ | ⟨e, digits, c, rfl, he, hdigits⟩)
    · exact ⟨c, reads_of_writes h⟩
    · exact ⟨c, .number he hdigits⟩

theorem exists_forall₂_iff {α β : Type} {R : α → β → Prop} {l : List α} :
    (∃ l', List.Forall₂ R l l') ↔ ∀ a ∈ l, ∃ b, R a b := by
  induction l with
  | nil => simp
  | cons a l ih =>
    rw [List.forall_mem_cons, ← ih]
    constructor
    · rintro ⟨_, _ | ⟨hb, hl⟩⟩
      exact ⟨⟨_, hb⟩, _, hl⟩
    · rintro ⟨⟨b, hb⟩, l', hl⟩
      exact ⟨b :: l', .cons hb hl⟩

theorem unescape?_eq_some {t s : String} :
    unescape? t = some s ↔ List.Forall₂ Reads (pieces t.toList) s.toList := by
  rw [unescape?, Option.map_eq_some_iff, ← unescapeChars?_eq_some]
  constructor
  · rintro ⟨cs, hcs, rfl⟩
    rwa [String.toList_ofList]
  · intro h
    exact ⟨s.toList, h, String.ofList_toList⟩

/-- A text is read piece by piece. It is refused exactly if one of its pieces is neither what a
character is written as nor the number of a character; where every piece is what a character is
written as, these are the characters read. -/
theorem unescape?_by_pieces (t : String) :
    (∀ s, unescape? t = some s ↔ List.Forall₂ Reads (pieces t.toList) s.toList) ∧
      (unescape? t = none ↔
        ∃ p ∈ pieces t.toList, (∀ c, ¬ Writes p c) ∧ ¬ p.IsNumber) ∧
      ((∀ p ∈ pieces t.toList, ∃ c, Writes p c) →
        ∃ s, unescape? t = some s ∧ List.Forall₂ Writes (pieces t.toList) s.toList) := by
  refine ⟨fun s => unescape?_eq_some, ?_, fun h => ?_⟩
  · have hread : (∃ s, unescape? t = some s) ↔ ∀ p ∈ pieces t.toList, ∃ c, Reads p c := by
      simp only [unescape?_eq_some, ← exists_forall₂_iff]
      exact ⟨fun ⟨s, hs⟩ => ⟨s.toList, hs⟩,
        fun ⟨cs, hcs⟩ => ⟨String.ofList cs, by rwa [String.toList_ofList]⟩⟩
    rw [Option.eq_none_iff_forall_ne_some, ← not_exists, hread]
    simp only [exists_reads_iff]
    push Not
    rfl
  · obtain ⟨cs, hcs⟩ := exists_forall₂_iff.mpr h
    refine ⟨String.ofList cs, ?_, by rwa [String.toList_ofList]⟩
    rw [unescape?_eq_some, String.toList_ofList]
    exact hcs.imp fun _ _ => reads_of_writes

/-- A letter, a line feed and a character beyond ASCII. -/
theorem letter_break_accent_read :
    (∀ p ∈ pieces "a\\n\\xe9".toList, ∃ c, Writes p c) ∧ unescape? "a\\n\\xe9" = some "a\né" ∧
      List.Forall₂ Writes (pieces "a\\n\\xe9".toList) "a\né".toList := by
  have hpieces : pieces "a\\n\\xe9".toList
      = [.plain 'a', .escape ['\\', 'n'], .escape ['\\', 'x', 'e', '9']] := by cbv
  have hwrites : ∀ p ∈ pieces "a\\n\\xe9".toList, ∃ c, Writes p c := by
    rw [hpieces]
    simp only [List.forall_mem_cons, List.not_mem_nil, false_imp_iff, implies_true, and_true]
    exact ⟨⟨'a', .plain 'a'⟩, ⟨'\n', .escape rfl⟩, ⟨'é', .escape rfl⟩⟩
  have hread : unescape? "a\\n\\xe9" = some "a\né" := by cbv
  obtain ⟨s, hs, hforall⟩ := (unescape?_by_pieces _).2.2 hwrites
  rw [hread, Option.some.injEq] at hs
  subst hs
  exact ⟨hwrites, hread, hforall⟩

/-- A letter is read from its number, which it is never written as. -/
theorem letter_read_from_number :
    unescape? "\\x41" = some "A" ∧ pieces "\\x41".toList = [.escape "\\x41".toList] ∧
      ∀ c, escape (String.singleton c) ≠ "\\x41" := by
  refine ⟨by cbv, by cbv, fun c h => ?_⟩
  have hread := unescapeChars?_escapeChars [c]
  have hlist : escapeChars [c] = "\\x41".toList := by
    rw [← h, escape, String.toList_ofList, String.toList_singleton]
  rw [hlist] at hread
  have hA : unescapeChars? "\\x41".toList = some ['A'] := by cbv
  rw [hA] at hread
  cases hread
  exact absurd hlist (by decide)

end GrammarText.Text
