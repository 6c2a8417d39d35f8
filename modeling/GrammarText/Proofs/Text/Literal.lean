import GrammarText.Text.Escape
import Mathlib.Algebra.Group.Nat.Defs
import Mathlib.Data.Bool.AllAny

/-!
Quoted literals read back, and end where they end.

- `unescapeChars?_escapeChar`: the written form of one character, whatever follows it, is read as
  that character. `readHex?_hexDigits` is its numeric case: a number that fits into the width comes
  back from its digits.
- `literal_survives`: every text survives `escape`, so that no two texts share a written form.
- `splitAtQuote?_escapeChars`: read from the left, with a backslash covering the character behind
  it, a written form holds no bare quote. So a literal ends at its own closing quote, whatever
  follows (`quoted_append_inj`).
- `literal_ends_at_its_quote`: both of these, and that a literal is printable ASCII throughout.
-/

namespace GrammarText.Text

/-! ## Hexadecimal numbers -/

theorem hexVal?_hexChar : ∀ d < 16, hexVal? (hexChar d) = some d := by decide

theorem hexChar_plain : ∀ d < 16, hexChar d ≠ '+' ∧ hexChar d ≠ '"' ∧ hexChar d ≠ '\\' := by decide

theorem length_hexDigits (width n : Nat) : (hexDigits width n).length = width := by
  induction width generalizing n with
  | zero => rfl
  | succ width ih => simp [hexDigits, ih]

theorem exists_hexChar {width n : Nat} {c : Char} (h : c ∈ hexDigits width n) :
    ∃ d < 16, c = hexChar d := by
  induction width generalizing n with
  | zero => cases h
  | succ width ih =>
    rcases List.mem_append.mp h with h | h
    · exact ih h
    · exact ⟨n % 16, Nat.mod_lt _ (by decide), List.mem_singleton.mp h⟩

theorem mem_hexDigits {width n : Nat} {c : Char} (h : c ∈ hexDigits width n) :
    c ≠ '+' ∧ c ≠ '"' ∧ c ≠ '\\' := by
  obtain ⟨d, hd, rfl⟩ := exists_hexChar h
  exact hexChar_plain d hd

theorem readHexOnto?_append (acc : Nat) (a b : List Char) :
    readHexOnto? acc (a ++ b) = (readHexOnto? acc a).bind (readHexOnto? · b) := by
  induction a generalizing acc with
  | nil => rfl
  | cons c a ih =>
    simp only [List.cons_append, readHexOnto?]
    cases hexVal? c with
    | none => rfl
    | some d => exact ih _

theorem readHexOnto?_hexDigits (acc width n : Nat) :
    readHexOnto? acc (hexDigits width n) = some (16 ^ width * acc + n % 16 ^ width) := by
  induction width generalizing n with
  | zero => simp [hexDigits, readHexOnto?, Nat.mod_one]
  | succ width ih =>
    have hd : hexVal? (hexChar (n % 16)) = some (n % 16) :=
      hexVal?_hexChar _ (Nat.mod_lt _ (by decide))
    have hmod : n % 16 ^ (width + 1) = n % 16 + 16 * (n / 16 % 16 ^ width) := by
      rw [Nat.pow_succ, Nat.mul_comm (16 ^ width) 16, Nat.mod_mul]
    have hacc : 16 ^ (width + 1) * acc = 16 * (16 ^ width * acc) := by
      rw [Nat.pow_succ, Nat.mul_comm (16 ^ width) 16, Nat.mul_assoc]
    rw [hexDigits, readHexOnto?_append, ih, hmod, hacc]
    simp only [Option.bind_some, readHexOnto?, hd, Option.some.injEq]
    omega

theorem readHex?_of_no_plus {cs : List Char} (hne : cs ≠ []) (hplus : '+' ∉ cs) :
    readHex? cs = readHexOnto? 0 cs := by
  unfold readHex?
  split
  · exact absurd rfl hne
  · exact absurd (List.mem_singleton.mpr rfl) hplus
  · exact absurd List.mem_cons_self hplus
  · rfl

/-- A number that its digits have room for is read back from them: they never begin with the plus
sign that `readHex?` would skip. -/
theorem readHex?_hexDigits {width n : Nat} (hw : 0 < width) (hn : n < 16 ^ width) :
    readHex? (hexDigits width n) = some n := by
  have hne : hexDigits width n ≠ [] := by
    intro h
    have := length_hexDigits width n
    rw [h] at this
    exact absurd this (by simp; omega)
  rw [readHex?_of_no_plus hne fun h => (mem_hexDigits h).1 rfl, readHexOnto?_hexDigits,
    Nat.mul_zero, Nat.zero_add, Nat.mod_eq_of_lt hn]

theorem charOfCode?_toNat (c : Char) : charOfCode? c.toNat = some c := by
  have hv : c.toNat.isValidChar := c.valid
  simp [charOfCode?, hv]

/-- What a numeric escape stands for does not depend on what follows its digits. -/
theorem numericEscape?_hexDigits {width : Nat} {c : Char} (hw : 0 < width)
    (hc : c.toNat < 16 ^ width) (rest : List Char) :
    numericEscape? width (hexDigits width c.toNat ++ rest) = some c := by
  have htake : (hexDigits width c.toNat ++ rest).take width = hexDigits width c.toNat :=
    List.take_left' (length_hexDigits _ _)
  rw [numericEscape?, htake, if_pos (length_hexDigits _ _), readHex?_hexDigits hw hc]
  exact charOfCode?_toNat c

/-! ## The written forms -/

theorem toNat_lt_of_width_eight (c : Char) : c.toNat < 16 ^ 8 := by
  have hv : c.toNat.isValidChar := c.valid
  simp only [Nat.isValidChar] at hv
  omega

theorem width_pos {e : Char} {width : Nat} (h : escapeWidth? e = some width) : 0 < width := by
  unfold escapeWidth? at h
  split at h
  · cases h; decide
  split at h
  · cases h; decide
  split at h
  · cases h; decide
  · cases h

/-- A letter that announces digits stands for nothing by itself. -/
theorem shortEscape?_of_width {e : Char} {width : Nat} (h : escapeWidth? e = some width) :
    shortEscape? e = none := by
  unfold escapeWidth? at h
  split at h
  · rename_i he; subst he; rfl
  split at h
  · rename_i he; subst he; rfl
  split at h
  · rename_i he; subst he; rfl
  · cases h

/-- The forms in which a character is written. -/
inductive WrittenForm (c : Char) : List Char → Prop
  | plain (hback : c ≠ '\\') (hquote : c ≠ '"') (h : ' ' ≤ c ∧ c ≤ '~') : WrittenForm c [c]
  | short {e : Char} (he : shortEscape? e = some c) : WrittenForm c ['\\', e]
  | number {e : Char} {width : Nat} (he : escapeWidth? e = some width)
      (hc : c.toNat < 16 ^ width) : WrittenForm c ('\\' :: e :: hexDigits width c.toNat)

theorem escapeChar_form (c : Char) : WrittenForm c (escapeChar c) := by
  unfold escapeChar
  split
  · rename_i hc; subst hc; exact .short rfl
  rename_i hback
  split
  · rename_i hc; subst hc; exact .short rfl
  rename_i hquote
  split
  · rename_i hc; subst hc; exact .short rfl
  split
  · rename_i hc; subst hc; exact .short rfl
  split
  · rename_i hc; subst hc; exact .short rfl
  split
  · rename_i hplain; exact .plain hback hquote hplain
  -- the three widths, each up to the largest code point that it has room for
  split
  · exact .number rfl (by omega)
  split
  · exact .number rfl (by omega)
  · exact .number rfl (toNat_lt_of_width_eight c)

/-! ## Reading what was written -/

theorem unescapeChars?_plain {c : Char} (hc : c ≠ '\\') (rest : List Char) :
    unescapeChars? (c :: rest) = (unescapeChars? rest).map (c :: ·) := by
  rw [unescapeChars?.eq_def]
  split <;> simp_all

theorem unescapeChars?_short {e c : Char} (he : shortEscape? e = some c) (rest : List Char) :
    unescapeChars? ('\\' :: e :: rest) = (unescapeChars? rest).map (c :: ·) := by
  rw [unescapeChars?, he]

/-- A numeric escape whose letter announces as many digits as the code point is written with. -/
theorem unescapeChars?_numeric {e c : Char} {width : Nat} (he : escapeWidth? e = some width)
    (hc : c.toNat < 16 ^ width) (rest : List Char) :
    unescapeChars? ('\\' :: e :: (hexDigits width c.toNat ++ rest))
      = (unescapeChars? rest).map (c :: ·) := by
  have hdrop : (hexDigits width c.toNat ++ rest).drop width = rest :=
    List.drop_left' (length_hexDigits _ _)
  simp only [unescapeChars?, shortEscape?_of_width he, he,
    numericEscape?_hexDigits (width_pos he) hc, hdrop]

theorem unescapeChars?_escapeChar (c : Char) (rest : List Char) :
    unescapeChars? (escapeChar c ++ rest) = (unescapeChars? rest).map (c :: ·) := by
  have hform := escapeChar_form c
  generalize escapeChar c = written at hform ⊢
  cases hform with
  | plain hback => exact unescapeChars?_plain hback rest
  | short he => exact unescapeChars?_short he rest
  | number he hc => exact unescapeChars?_numeric he hc rest

theorem unescapeChars?_escapeChars (cs : List Char) :
    unescapeChars? (escapeChars cs) = some cs := by
  induction cs with
  | nil => rw [escapeChars, List.flatMap_nil, unescapeChars?]
  | cons c cs ih =>
    rw [escapeChars, List.flatMap_cons, unescapeChars?_escapeChar]
    rw [escapeChars] at ih
    rw [ih, Option.map_some]

theorem escapeChars_injective : Function.Injective escapeChars := by
  intro cs ds h
  have := congrArg unescapeChars? h
  rwa [unescapeChars?_escapeChars, unescapeChars?_escapeChars, Option.some.injEq] at this

@[simp] theorem toList_quote (s : String) :
    (quote s).toList = '"' :: (escapeChars s.toList ++ ['"']) := by
  simp [quote, escape]

/-- Every text is read back from its written form, so that no two texts share one, with the quotes
or without. -/
theorem literal_survives :
    (∀ s, unescape? (escape s) = some s) ∧ Function.Injective escape ∧
      Function.Injective quote := by
  have hread : ∀ s, unescape? (escape s) = some s := fun s => by
    rw [unescape?, escape, String.toList_ofList, unescapeChars?_escapeChars, Option.map_some,
      String.ofList_toList]
  refine ⟨hread, fun s t h => ?_, fun s t h => ?_⟩
  · have := congrArg unescape? h
    rwa [hread, hread, Option.some.injEq] at this
  · have := congrArg String.toList h
    rw [toList_quote, toList_quote, List.cons.injEq] at this
    exact String.toList_inj.mp (escapeChars_injective (List.append_cancel_right this.2))

/-! ## Where a literal ends -/

/-- What stands before and after the first bare quote; a backslash covers the character behind
it. -/
def splitAtQuote? : List Char → Option (List Char × List Char)
  | [] => none
  | ['\\'] => none
  | '\\' :: c :: rest => (splitAtQuote? rest).map fun (body, after) => ('\\' :: c :: body, after)
  | '"' :: rest => some ([], rest)
  | c :: rest => (splitAtQuote? rest).map fun (body, after) => (c :: body, after)

theorem splitAtQuote?_covered (c : Char) (rest : List Char) :
    splitAtQuote? ('\\' :: c :: rest)
      = (splitAtQuote? rest).map fun (body, after) => ('\\' :: c :: body, after) := by
  rw [splitAtQuote?]

theorem splitAtQuote?_plain {c : Char} (hq : c ≠ '"') (hb : c ≠ '\\') (rest : List Char) :
    splitAtQuote? (c :: rest)
      = (splitAtQuote? rest).map fun (body, after) => (c :: body, after) := by
  rw [splitAtQuote?.eq_def]
  split <;> simp_all

theorem splitAtQuote?_append {cs : List Char} (h : ∀ c ∈ cs, c ≠ '"' ∧ c ≠ '\\')
    (rest : List Char) :
    splitAtQuote? (cs ++ rest)
      = (splitAtQuote? rest).map fun (body, after) => (cs ++ body, after) := by
  induction cs with
  | nil => simp
  | cons c cs ih =>
    obtain ⟨hq, hb⟩ := h c List.mem_cons_self
    rw [List.cons_append, splitAtQuote?_plain hq hb,
      ih fun d hd => h d (List.mem_cons_of_mem _ hd), Option.map_map]
    rfl

theorem splitAtQuote?_numeric (e : Char) (width n : Nat) (rest : List Char) :
    splitAtQuote? ('\\' :: e :: (hexDigits width n ++ rest))
      = (splitAtQuote? rest).map fun (body, after) =>
          ('\\' :: e :: (hexDigits width n ++ body), after) := by
  rw [splitAtQuote?_covered, splitAtQuote?_append fun c hc => (mem_hexDigits hc).2, Option.map_map]
  rfl

theorem splitAtQuote?_escapeChar (c : Char) (rest : List Char) :
    splitAtQuote? (escapeChar c ++ rest)
      = (splitAtQuote? rest).map fun (body, after) => (escapeChar c ++ body, after) := by
  have hform := escapeChar_form c
  generalize escapeChar c = written at hform ⊢
  cases hform with
  | plain hback hquote => exact splitAtQuote?_plain hquote hback rest
  | short => exact splitAtQuote?_covered _ rest
  | @number e width => exact splitAtQuote?_numeric e width _ rest

/-- The first bare quote behind the opening one is the closing one, whatever follows. -/
theorem splitAtQuote?_escapeChars (cs rest : List Char) :
    splitAtQuote? (escapeChars cs ++ '"' :: rest) = some (escapeChars cs, rest) := by
  induction cs with
  | nil => rfl
  | cons c cs ih =>
    rw [escapeChars, List.flatMap_cons, List.append_assoc, splitAtQuote?_escapeChar]
    rw [escapeChars] at ih
    rw [ih, Option.map_some]

theorem quoted_append_inj {s t : String} {r r' : List Char}
    (h : (quote s).toList ++ r = (quote t).toList ++ r') : s = t ∧ r = r' := by
  simp only [toList_quote, List.cons_append, List.append_assoc, List.nil_append,
    List.cons.injEq, true_and] at h
  have hsplit := congrArg splitAtQuote? h
  rw [splitAtQuote?_escapeChars, splitAtQuote?_escapeChars, Option.some.injEq, Prod.mk.injEq]
    at hsplit
  exact ⟨String.toList_inj.mp (escapeChars_injective hsplit.1), hsplit.2⟩

/-! ## What a literal is made of -/

/-- Printable ASCII: U+0020 to U+007E. -/
def IsPrintableAscii (c : Char) : Prop := ' ' ≤ c ∧ c ≤ '~'

instance : DecidablePred IsPrintableAscii := fun c => by unfold IsPrintableAscii; infer_instance

theorem hexChar_printable : ∀ d < 16, IsPrintableAscii (hexChar d) := by decide

/-- The characters behind a backslash are printable. -/
theorem letter_printable {e : Char} (h : shortEscape? e ≠ none ∨ escapeWidth? e ≠ none) :
    IsPrintableAscii e := by
  have hletters : ∀ d ∈ ['\\', '"', 'n', 'r', 't', 'x', 'u', 'U'], IsPrintableAscii d :=
    List.all_iff_forall_prop.mp (by decide)
  refine hletters e (Decidable.byContradiction fun hother => ?_)
  simp only [List.mem_cons, List.not_mem_nil, or_false, not_or] at hother
  simp [shortEscape?, escapeWidth?, hother] at h

theorem escapeChar_printable (c : Char) : ∀ d ∈ escapeChar c, IsPrintableAscii d := by
  have hform := escapeChar_form c
  generalize escapeChar c = written at hform ⊢
  cases hform with
  | plain _ _ hplain => exact List.forall_mem_singleton.mpr hplain
  | short he =>
    simp only [List.forall_mem_cons]
    exact ⟨by decide, letter_printable (Or.inl (by simp [he])), fun _ h => nomatch h⟩
  | number he =>
    simp only [List.forall_mem_cons]
    refine ⟨by decide, letter_printable (Or.inr (by simp [he])), fun d hd => ?_⟩
    obtain ⟨n, hn, rfl⟩ := exists_hexChar hd
    exact hexChar_printable n hn

theorem quote_printable (s : String) : ∀ c ∈ (quote s).toList, IsPrintableAscii c := by
  intro c hc
  rw [toList_quote] at hc
  rcases List.mem_cons.mp hc with rfl | hc
  · decide
  rcases List.mem_append.mp hc with hc | hc
  · obtain ⟨d, -, hd⟩ := List.mem_flatMap.mp hc
    exact escapeChar_printable d c hd
  · rw [List.mem_singleton.mp hc]
    decide

/-- A literal is printable ASCII. Whatever text stands behind it, read from behind its opening quote
it goes on up to its last character, which is the first quote that no backslash covers. So two
literals, each with a text behind it, come to the same text only if they are the same and so are the
texts behind them. -/
theorem literal_ends_at_its_quote (s : String) :
    (∀ c ∈ (quote s).toList, IsPrintableAscii c) ∧
      (∃ body, (quote s).toList = '"' :: (body ++ ['"']) ∧
        ∀ r : String, splitAtQuote? (quote s ++ r).toList.tail = some (body, r.toList)) ∧
      ∀ t r r' : String, quote s ++ r = quote t ++ r' ↔ s = t ∧ r = r' := by
  refine ⟨quote_printable s, ⟨escapeChars s.toList, toList_quote s, fun r => ?_⟩, fun t r r' => ?_⟩
  · rw [String.toList_append, toList_quote, List.cons_append, List.tail_cons, List.append_assoc]
    exact splitAtQuote?_escapeChars s.toList r.toList
  · constructor
    · intro h
      have hlist := congrArg String.toList h
      rw [String.toList_append, String.toList_append] at hlist
      obtain ⟨hst, hr⟩ := quoted_append_inj hlist
      exact ⟨hst, String.toList_inj.mp hr⟩
    · rintro ⟨rfl, rfl⟩
      rfl

/-- A backslash before a quote, in a literal before another quote. -/
theorem covered_quote_stays_inside :
    '"' ∈ (quote "\\\"").toList ∧ IsPrintableAscii '"' ∧
      ∃ body, (quote "\\\"").toList = '"' :: (body ++ ['"']) ∧
        splitAtQuote? (quote "\\\"" ++ "\"").toList.tail = some (body, ['"']) := by
  obtain ⟨hprintable, ⟨body, hbody, hends⟩, -⟩ := literal_ends_at_its_quote "\\\""
  have hmem : '"' ∈ (quote "\\\"").toList := by rw [toList_quote]; exact List.mem_cons_self
  exact ⟨hmem, hprintable '"' hmem, body, hbody, hends "\""⟩

end GrammarText.Text
