import GrammarText.Text.Search
import Mathlib.Data.List.Infix
import Mathlib.Order.Bounds.Basic

/-!
Where one text occurs in another, and pieces of a text by their bytes.

- `splitAtFirst?_of_not_infix`: a pattern is found where it does not begin before.
  `splitAtFirst?_eq_none`: it is not found exactly if it does not occur.
  `splitAtFirst?_eq_some`: no occurrence comes before the one that is found.
- `FirstAt`, `LastAt`: the byte offset of the first and the last place of a character.
- `IsSlice`: a piece of a text between two byte offsets. An offset inside of a character, or beyond the
  end of the text, bounds no piece.
- `slice_between`: from behind the first place of one character to the last place of another there is
  a piece, if the places stand in this order.
- `OccursAt`: the byte offsets of the places of a pattern. `find?_eq_some`: the least of them is found.
-/

namespace GrammarText.Text

/-! ## The first occurrence -/

variable {pattern before after cs : List Char}

/-- The pattern occurs in front of what is behind it, and an earlier occurrence would begin in
`before` and end before the last character of this one. -/
theorem splitAtFirst?_of_not_infix (hne : pattern ≠ [])
    (h : ¬ pattern <:+: before ++ pattern.dropLast) (after : List Char) :
    splitAtFirst? pattern (before ++ (pattern ++ after)) = some (before, after) := by
  induction before with
  | nil =>
    obtain ⟨p, ps, rfl⟩ := List.exists_cons_of_ne_nil hne
    have hprefix : (p :: ps).isPrefixOf (p :: (ps ++ after)) = true :=
      List.isPrefixOf_iff_prefix.mpr (List.prefix_append (p :: ps) after)
    rw [List.nil_append, List.cons_append, splitAtFirst?, if_pos hprefix]
    simp
  | cons c before ih =>
    rw [List.cons_append, List.infix_cons_iff, not_or] at h
    have hprefix : ¬ pattern.isPrefixOf (c :: (before ++ (pattern ++ after))) = true := by
      intro hp
      have hsplit : c :: (before ++ (pattern ++ after))
          = (c :: (before ++ pattern.dropLast)) ++ (pattern.getLast hne :: after) := by
        conv_lhs => rw [← List.dropLast_append_getLast hne]
        simp
      -- as long as what is in front of its last character, so it would lie in there
      have hlength : pattern.length ≤ (c :: (before ++ pattern.dropLast)).length := by
        simp only [List.length_cons, List.length_append, List.length_dropLast]
        omega
      rw [List.isPrefixOf_iff_prefix, hsplit] at hp
      exact h.1 (List.prefix_of_prefix_length_le hp (List.prefix_append _ _) hlength)
    rw [List.cons_append, splitAtFirst?, if_neg hprefix, ih h.2]
    rfl

theorem splitAtFirst?_eq_none : splitAtFirst? pattern cs = none ↔ ¬ pattern <:+: cs := by
  induction cs with
  | nil => cases pattern <;> simp [splitAtFirst?]
  | cons c cs ih =>
    rw [splitAtFirst?, List.infix_cons_iff, ← List.isPrefixOf_iff_prefix]
    split
    · rename_i hp; simp [hp]
    · rename_i hp; simp [hp, ih]

/-- Every occurrence stands behind the part in front of the one that is found. -/
theorem splitAtFirst?_eq_some (h : splitAtFirst? pattern cs = some (before, after)) :
    cs = before ++ (pattern ++ after) ∧ ∀ b a, cs = b ++ (pattern ++ a) → before <+: b := by
  induction cs generalizing before with
  | nil =>
    rw [splitAtFirst?] at h
    split at h
    · rename_i hempty
      cases h
      rw [List.isEmpty_iff] at hempty
      exact ⟨by simp [hempty], fun b a _ => List.nil_prefix⟩
    · cases h
  | cons c rest ih =>
    rw [splitAtFirst?] at h
    split at h
    · rename_i hprefix
      cases h
      obtain ⟨a, ha⟩ := List.isPrefixOf_iff_prefix.mp hprefix
      exact ⟨by simp [← ha], fun b a _ => List.nil_prefix⟩
    · rename_i hprefix
      obtain ⟨⟨before', after'⟩, hrest, hpair⟩ := Option.map_eq_some_iff.mp h
      cases hpair
      obtain ⟨hsplit, hleast⟩ := ih hrest
      refine ⟨by rw [hsplit, List.cons_append], fun b a hb => ?_⟩
      cases b with
      | nil => exact absurd (List.isPrefixOf_iff_prefix.mpr ⟨a, hb.symm⟩) hprefix
      | cons d b =>
        obtain ⟨rfl, htail⟩ := List.cons.inj hb
        exact List.cons_prefix_cons.mpr ⟨rfl, hleast b a htail⟩

theorem splitAtFirst?_of_not_mem {mark : Char} (h : mark ∉ before) (after : List Char) :
    splitAtFirst? [mark] (before ++ mark :: after) = some (before, after) := by
  refine splitAtFirst?_of_not_infix (List.cons_ne_nil mark []) ?_ after
  simpa [List.singleton_infix_iff] using h

theorem splitAtFirst?_eq_none_of_not_mem {mark : Char} (h : mark ∉ cs) :
    splitAtFirst? [mark] cs = none := by
  rwa [splitAtFirst?_eq_none, List.singleton_infix_iff]

/-! ## Bytes -/

theorem byteLength_append (cs ds : List Char) :
    byteLength (cs ++ ds) = byteLength cs + byteLength ds := by
  induction cs with
  | nil => simp [byteLength]
  | cons c cs ih => simp [byteLength, ih, Nat.add_assoc]

theorem byteLength_le_of_prefix {cs ds : List Char} (h : cs <+: ds) :
    byteLength cs ≤ byteLength ds := by
  obtain ⟨t, rfl⟩ := h
  rw [byteLength_append]
  exact Nat.le_add_right _ _

/-- The bytes of a text are those of its characters. -/
theorem utf8ByteSize_ofList (cs : List Char) : (String.ofList cs).utf8ByteSize = byteLength cs := by
  induction cs with
  | nil => rfl
  | cons c cs ih =>
    have hsplit : String.ofList (c :: cs) = String.singleton c ++ String.ofList cs := by
      rw [String.singleton_eq_ofList, ← String.ofList_append, List.singleton_append]
    rw [hsplit, String.utf8ByteSize_append, String.utf8ByteSize_singleton, ih, byteLength]

/-- Without a byte there is no character. -/
theorem byteLength_eq_zero : byteLength cs = 0 ↔ cs = [] := by
  cases cs with
  | nil => simp [byteLength]
  | cons c cs =>
    have hc : 0 < c.utf8Size := c.utf8Size_pos
    simp only [byteLength, reduceCtorEq, iff_false]
    omega

/-- The character stands at the offset and nowhere before it. -/
def FirstAt (c : Char) (cs : List Char) (offset : Nat) : Prop :=
  ∃ before after, cs = before ++ c :: after ∧ c ∉ before ∧ byteLength before = offset

/-- The character stands at the offset and nowhere behind it. -/
def LastAt (c : Char) (cs : List Char) (offset : Nat) : Prop :=
  ∃ before after, cs = before ++ c :: after ∧ c ∉ after ∧ byteLength before = offset

/-- The bytes of the text from one offset up to another are those of the piece. -/
def IsSlice (cs : List Char) (start stop : Nat) (piece : List Char) : Prop :=
  ∃ before after, cs = before ++ (piece ++ after) ∧ byteLength before = start ∧
    byteLength (before ++ piece) = stop

/-- There is one piece at most between two offsets. -/
theorem IsSlice.unique {start stop : Nat} {piece piece' : List Char} (h : IsSlice cs start stop piece)
    (h' : IsSlice cs start stop piece') : piece = piece' := by
  -- of two beginnings of a text with as many bytes neither goes on behind the other
  have hsame : ∀ {a b a' b' : List Char}, a ++ b = a' ++ b' → byteLength a = byteLength a' →
      a = a' := by
    intro a b a' b' heq hbytes
    obtain ⟨t, rfl, -⟩ | ⟨t, rfl, -⟩ := List.append_eq_append_iff.mp heq
    all_goals
      rw [byteLength_append] at hbytes
      have ht : t = [] := byteLength_eq_zero.mp (by omega)
      rw [ht, List.append_nil]
  obtain ⟨before, after, rfl, rfl, rfl⟩ := h
  obtain ⟨before', after', heq, hstart, hstop⟩ := h'
  obtain rfl := hsame heq hstart.symm
  have hrest := List.append_cancel_left heq
  rw [byteLength_append, byteLength_append] at hstop
  exact hsame hrest (by omega)

/-- Behind the first place of one character and before the last place of another stands a piece of
the text, if that place comes later. -/
theorem slice_between {first last : Char} {start stop : Nat} (hfirst : FirstAt first cs start)
    (hlast : LastAt last cs stop) (horder : start < stop) :
    ∃ before piece after, cs = before ++ first :: (piece ++ last :: after) ∧ first ∉ before ∧
      last ∉ after ∧ IsSlice cs (start + first.utf8Size) stop piece := by
  obtain ⟨before, rest, rfl, hbefore, rfl⟩ := hfirst
  obtain ⟨front, after, heq, hafter, rfl⟩ := hlast
  obtain ⟨t, rfl, ht⟩ | ⟨t, rfl, -⟩ := List.append_eq_append_iff.mp heq
  · cases t with
    | nil => simp at horder
    | cons c piece =>
      obtain ⟨rfl, rfl⟩ := List.cons.inj ht
      refine ⟨before, piece, after, rfl, hbefore, hafter, before ++ [first], last :: after, ?_, ?_, ?_⟩
      · simp
      · simp [byteLength_append, byteLength]
      · simp
  · rw [byteLength_append] at horder
    omega

/-! ## Places -/

/-- The pattern stands in the text behind so many bytes. -/
def OccursAt (text pattern : String) (offset : Nat) : Prop :=
  ∃ before after, text = before ++ pattern ++ after ∧ before.utf8ByteSize = offset

variable {text word : String}

theorem occurs_iff : (∃ offset, OccursAt text word offset) ↔ word.toList <:+: text.toList := by
  constructor
  · rintro ⟨offset, before, after, rfl, -⟩
    exact ⟨before.toList, after.toList, by simp⟩
  · rintro ⟨before, after, h⟩
    refine ⟨_, String.ofList before, String.ofList after, String.toList_inj.mp ?_, rfl⟩
    simp [← h]

theorem find?_eq_none : find? text word = none ↔ ∀ offset, ¬ OccursAt text word offset := by
  rw [find?, Option.map_eq_none_iff, splitAtFirst?_eq_none, ← occurs_iff, not_exists]

/-- A pattern is found at the first of its places. -/
theorem find?_eq_some {offset : Nat} :
    find? text word = some offset ↔ IsLeast {o | OccursAt text word o} offset := by
  have hfirst : ∀ {o}, find? text word = some o → IsLeast {o | OccursAt text word o} o := by
    intro o h
    obtain ⟨⟨before, after⟩, hsplit, rfl⟩ := Option.map_eq_some_iff.mp h
    obtain ⟨htext, hleast⟩ := splitAtFirst?_eq_some hsplit
    refine ⟨⟨String.ofList before, String.ofList after, String.toList_inj.mp ?_,
      utf8ByteSize_ofList before⟩, ?_⟩
    · simp [htext]
    · rintro o ⟨b, a, rfl, rfl⟩
      have hprefix : before <+: b.toList := hleast b.toList a.toList (by simp)
      have hbytes := byteLength_le_of_prefix hprefix
      rwa [← utf8ByteSize_ofList b.toList, String.ofList_toList] at hbytes
  refine ⟨hfirst, fun h => ?_⟩
  cases hfind : find? text word with
  | none => exact absurd h.1 (find?_eq_none.mp hfind offset)
  | some o => rw [(hfirst hfind).unique h]

/-- The bytes from a place of the pattern on are those of the pattern. -/
theorem OccursAt.bytes {offset : Nat} (h : OccursAt text word offset) :
    offset + word.utf8ByteSize ≤ text.utf8ByteSize ∧
      text.toByteArray.extract offset (offset + word.utf8ByteSize) = word.toByteArray := by
  obtain ⟨before, after, rfl, rfl⟩ := h
  constructor
  · rw [String.utf8ByteSize_append, String.utf8ByteSize_append]
    exact Nat.le_add_right _ _
  · rw [String.toByteArray_append, String.toByteArray_append, ByteArray.append_assoc]
    exact (ByteArray.extract_append_size_add' (i := 0) rfl).trans
      (ByteArray.extract_append_eq_left rfl)

/-- A part of a pattern has its place behind what the pattern begins with. -/
theorem OccursAt.inner {opening closing : String} {offset : Nat}
    (h : OccursAt text (opening ++ word ++ closing) offset) :
    OccursAt text word (offset + opening.utf8ByteSize) := by
  obtain ⟨before, after, rfl, rfl⟩ := h
  exact ⟨before ++ opening, closing ++ after, by simp only [String.append_assoc],
    String.utf8ByteSize_append⟩

end GrammarText.Text
