import Std.Data.String.ToInt

/-!
Tokens that end where the next character cannot go on with them.

- `append_inj_of_class`: two words over one class of characters, each before something that does not
  go on with the class, agree with what follows them.
- `number_append_inj`: the same for decimal numbers, which stand for different numbers if they
  differ.
-/

namespace GrammarText.Text

/-- What is left of a text does not go on with the class `p`. -/
def EndsClass (p : Char → Bool) (rest : List Char) : Prop := ∀ c ∈ rest.head?, p c = false

theorem takeWhile_of_class {p : Char → Bool} {word rest : List Char} (hw : ∀ c ∈ word, p c = true)
    (hr : EndsClass p rest) : (word ++ rest).takeWhile p = word := by
  rw [List.takeWhile_append_of_pos hw]
  rcases rest with _ | ⟨c, rest⟩
  · simp
  · simp [hr c rfl]

theorem dropWhile_of_class {p : Char → Bool} {word rest : List Char} (hw : ∀ c ∈ word, p c = true)
    (hr : EndsClass p rest) : (word ++ rest).dropWhile p = rest := by
  have hsplit := List.takeWhile_append_dropWhile (p := p) (l := word ++ rest)
  rw [takeWhile_of_class hw hr] at hsplit
  exact List.append_cancel_left hsplit

theorem append_inj_of_class {p : Char → Bool} {a b r s : List Char} (ha : ∀ c ∈ a, p c = true)
    (hb : ∀ c ∈ b, p c = true) (hr : EndsClass p r) (hs : EndsClass p s) (h : a ++ r = b ++ s) :
    a = b ∧ r = s := by
  have hab : a = b := by rw [← takeWhile_of_class ha hr, h, takeWhile_of_class hb hs]
  subst hab
  exact ⟨rfl, List.append_cancel_left h⟩

/-! ## Numbers -/

def isNumberChar (c : Char) : Bool := c.isDigit || c == '-'

theorem toList_ofNat (m : Nat) : (toString (Int.ofNat m)).toList = Nat.toDigits 10 m :=
  Nat.toList_repr

theorem toList_negSucc (m : Nat) :
    (toString (Int.negSucc m)).toList = '-' :: Nat.toDigits 10 (m + 1) := by
  change ("-" ++ Nat.repr (m + 1)).toList = _
  rw [String.toList_append, Nat.toList_repr]
  rfl

theorem toList_number (n : Int) :
    (∃ m : Nat, (toString n).toList = Nat.toDigits 10 m) ∨
      ∃ m : Nat, (toString n).toList = '-' :: Nat.toDigits 10 m := by
  cases n with
  | ofNat m => exact Or.inl ⟨m, toList_ofNat m⟩
  | negSucc m => exact Or.inr ⟨m + 1, toList_negSucc m⟩

theorem digits_are_number {m : Nat} {c : Char} (h : c ∈ Nat.toDigits 10 m) :
    isNumberChar c = true := by
  rw [isNumberChar, Nat.isDigit_of_mem_toDigits (by decide) (by decide) h, Bool.true_or]

theorem mem_number {n : Int} {c : Char} (h : c ∈ (toString n).toList) : isNumberChar c = true := by
  rcases toList_number n with ⟨m, hm⟩ | ⟨m, hm⟩
  · rw [hm] at h; exact digits_are_number h
  · rw [hm] at h
    rcases List.mem_cons.mp h with rfl | h
    · rfl
    · exact digits_are_number h

/-- A number begins with a digit or a minus sign. -/
theorem number_head (n : Int) :
    ∃ c cs, (toString n).toList = c :: cs ∧ isNumberChar c = true := by
  have hne : (toString n).toList ≠ [] := by
    rcases toList_number n with ⟨m, hm⟩ | ⟨m, hm⟩
    · rw [hm]; exact Nat.toDigits_ne_nil
    · rw [hm]; exact List.cons_ne_nil _ _
  obtain ⟨c, cs, hcs⟩ := List.exists_cons_of_ne_nil hne
  exact ⟨c, cs, hcs, mem_number (n := n) (by rw [hcs]; exact List.mem_cons_self)⟩

theorem number_append_inj {m n : Int} {r s : List Char} (hr : EndsClass isNumberChar r)
    (hs : EndsClass isNumberChar s) (h : (toString m).toList ++ r = (toString n).toList ++ s) :
    m = n ∧ r = s := by
  obtain ⟨hmn, hrs⟩ := append_inj_of_class (fun _ => mem_number) (fun _ => mem_number) hr hs h
  exact ⟨Int.repr_injective (String.toList_inj.mp hmn), hrs⟩

end GrammarText.Text
