import GrammarText.Context.Toml
import GrammarText.Proofs.Toml.Standard
import Mathlib

/-!
What is read of an argument.

An argument is put behind `value = `, and whatever document that makes is read. So a comment or
further lines behind a value do not make the argument a text: they are dropped.

- `Value.whole?`: the value that an argument is as a whole. `Value.DropsBehind`: something stands
  behind a value, and the document is still one.
- `parse?_of_document`: what is read is the value in front. `parse?_of_comment`: there may be a
  comment behind it. `parse?_eq_none`: without such a value, nothing is read.
- `parse?_eq_whole?_iff`: an argument is read as a whole exactly if nothing is dropped.
-/

namespace GrammarText.Value

open Toml (Reader Tree ReadsEntries skipSpace)

theorem bareKey_value : Toml.IsBareKey "value" := by decide

variable {value? : Reader Tree} {raw : String} {t : Tree} {behind : List Char}

/-! ## The value as a whole -/

/-- The value that a text is, but for spaces and tabs on either side. -/
def whole? (value? : Reader Tree) (raw : String) : Option Tree :=
  match value? (skipSpace raw.toList) with
  | some (t, behind) => if (skipSpace behind).isEmpty then some t else none
  | none => none

theorem whole?_of_last (hread : value? (skipSpace raw.toList) = some (t, behind))
    (hlast : skipSpace behind = []) : whole? value? raw = some t := by
  simp [whole?, hread, hlast]

theorem whole?_of_more (hread : value? (skipSpace raw.toList) = some (t, behind))
    (hmore : skipSpace behind ≠ []) : whole? value? raw = none := by
  simp [whole?, hread, hmore]

theorem exists_of_whole? (h : whole? value? raw = some t) :
    ∃ behind, value? (skipSpace raw.toList) = some (t, behind) ∧ skipSpace behind = [] := by
  unfold whole? at h
  split at h
  · rename_i t' behind hread
    split at h
    · rename_i hlast
      cases h
      exact ⟨behind, hread, List.isEmpty_iff.mp hlast⟩
    · cases h
  · cases h

section Arguments

variable [Toml.Library]

/-! ## The value in front -/

/-- With at most a comment behind it, a value makes a document of one entry. -/
theorem table?_of_comment (htoml : ReadsEntries value?)
    (hread : value? (skipSpace raw.toList) = some (t, behind))
    (hcomment : Toml.IsComment (skipSpace behind)) :
    Toml.table? ("value = " ++ raw) = some [("value", t)] :=
  htoml.alone bareKey_value hread hcomment

theorem parse?_of_comment (htoml : ReadsEntries value?)
    (hread : value? (skipSpace raw.toList) = some (t, behind))
    (hcomment : Toml.IsComment (skipSpace behind)) : parse? raw = some (ofTree t) := by
  rw [parse?, table?_of_comment htoml hread hcomment]
  simp [Entries.get?]

/-- What is read of an argument is the value in front of it, and behind that the line ends. -/
theorem parse?_of_document (htoml : ReadsEntries value?)
    (h : (Toml.table? ("value = " ++ raw)).isSome = true) :
    ∃ t behind, value? (skipSpace raw.toList) = some (t, behind) ∧ Toml.EndsLine behind ∧
      parse? raw = some (ofTree t) := by
  obtain ⟨entries, htable⟩ := Option.isSome_iff_exists.mp h
  obtain ⟨t, behind, hread, hend, hget⟩ := htoml.front bareKey_value htable
  exact ⟨t, behind, hread, hend, by simp only [parse?, htable, hget, Option.map_some]⟩

/-- Without a value in front, nothing is read. -/
theorem parse?_eq_none (htoml : ReadsEntries value?)
    (hnone : value? (skipSpace raw.toList) = none) : parse? raw = none := by
  cases htable : Toml.table? ("value = " ++ raw) with
  | none => rw [parse?, htable]
  | some entries =>
    obtain ⟨t, behind, hread, -⟩ := parse?_of_document htoml (by rw [htable]; rfl)
    rw [hnone] at hread
    cases hread

/-- An argument that is a value as a whole is read as that value. -/
theorem parse?_of_whole? (htoml : ReadsEntries value?) (h : whole? value? raw = some t) :
    parse? raw = some (ofTree t) := by
  obtain ⟨behind, hread, hlast⟩ := exists_of_whole? h
  exact parse?_of_comment htoml hread (hlast ▸ .none)

/-! ## What is dropped -/

/-- More than blanks stands behind the value in front of an argument, and what is made of the
argument is a document all the same. -/
structure DropsBehind (value? : Reader Tree) (raw : String) (t : Tree) (behind : List Char) :
    Prop where
  front : value? (skipSpace raw.toList) = some (t, behind)
  more : skipSpace behind ≠ []
  accepted : (Toml.table? ("value = " ++ raw)).isSome = true

theorem DropsBehind.parse? (htoml : ReadsEntries value?) (h : DropsBehind value? raw t behind) :
    Toml.EndsLine behind ∧ Value.parse? raw = some (ofTree t) := by
  obtain ⟨t', behind', hread, hend, hparse⟩ := parse?_of_document htoml h.accepted
  rw [h.front, Option.some.injEq, Prod.mk.injEq] at hread
  obtain ⟨rfl, rfl⟩ := hread
  exact ⟨hend, hparse⟩

/-- An argument is read as a whole unless something is dropped behind the value in front of it. -/
theorem parse?_eq_whole? (htoml : ReadsEntries value?)
    (h : ¬ ∃ t behind, DropsBehind value? raw t behind) :
    parse? raw = (whole? value? raw).map ofTree := by
  cases hwhole : whole? value? raw with
  | some t => rw [parse?_of_whole? htoml hwhole, Option.map_some]
  | none =>
    cases htable : Toml.table? ("value = " ++ raw) with
    | none => rw [parse?, htable, Option.map_none]
    | some entries =>
      have haccepted : (Toml.table? ("value = " ++ raw)).isSome = true := by rw [htable]; rfl
      obtain ⟨t, behind, hread, -, -⟩ := parse?_of_document htoml haccepted
      refine absurd ⟨t, behind, hread, fun hlast => ?_, haccepted⟩ h
      rw [whole?_of_last hread hlast] at hwhole
      cases hwhole

/-- An argument is read as a whole exactly if nothing is dropped behind a value in front of it; where
it is no value as a whole, it then stays a text. If something is dropped, the value in front is what is
read, and the rest begins with a comment or a line break. A comment is always dropped. -/
theorem parse?_eq_whole?_iff (htoml : ReadsEntries value?) (raw : String) :
    (parse? raw = (whole? value? raw).map ofTree ↔ ¬ ∃ t behind, DropsBehind value? raw t behind) ∧
      ((¬ ∃ t behind, DropsBehind value? raw t behind) →
        parse raw = ((whole? value? raw).map ofTree).getD (str raw)) ∧
      (∀ t behind, DropsBehind value? raw t behind → whole? value? raw = none ∧
        parse raw = ofTree t ∧ ∃ c text, skipSpace behind = c :: text ∧ c ∈ ['#', '\n', '\r']) ∧
      ∀ t behind text, value? (skipSpace raw.toList) = some (t, behind) →
        skipSpace behind = '#' :: text → (∀ c ∈ text, Toml.isTextChar c = true) →
        DropsBehind value? raw t behind := by
  refine ⟨⟨fun hparse hdrops => ?_, parse?_eq_whole? htoml⟩, fun h => ?_, fun t behind h => ?_,
    fun t behind text hread hbehind htext => ?_⟩
  · obtain ⟨t, behind, h⟩ := hdrops
    rw [(h.parse? htoml).2, whole?_of_more h.front h.more] at hparse
    cases hparse
  · rw [parse, parse?_eq_whole? htoml h]
  · obtain ⟨hend, hparse⟩ := h.parse? htoml
    refine ⟨whole?_of_more h.front h.more, ?_, hend.head h.more⟩
    rw [parse, hparse, Option.getD_some]
  · have hcomment : Toml.IsComment (skipSpace behind) := hbehind ▸ .text htext
    have htable := table?_of_comment htoml hread hcomment
    exact ⟨hread, by simp [hbehind], by rw [htable]; rfl⟩

end Arguments

theorem commented_number_front :
    Toml.readTree Toml.maxNesting (skipSpace "3 # x".toList) =
      some (.integer 3, " # x".toList) := by
  have hread : Toml.readValue Toml.maxNesting (skipSpace "3 # x".toList) =
      some (.integer 3, " # x".toList) := by
    have hstart : skipSpace "3 # x".toList = '3' :: " # x".toList := by decide
    have hsplit : Toml.splitScalar ('3' :: " # x".toList) = (['3'], " # x".toList) := by decide
    have hnumber : Toml.scalar? ['3'] = some (.integer 3) := Toml.scalar?_toString 3
    rw [hstart, Toml.readValue_scalar (by decide)]
    simp only [Toml.readScalar, hsplit, hnumber, Option.map_some]
  have hfits : fitsSigned 3 = true := by decide +kernel
  exact Toml.readTree_eq_some.mpr ⟨_, hread, by rw [Toml.Value.tree?, if_pos hfits]⟩

theorem commented_number_dropped :
    ReadsEntries (Toml.readTree Toml.maxNesting) ∧
      DropsBehind (Toml.readTree Toml.maxNesting) "3 # x" (.integer 3) " # x".toList ∧
      whole? (Toml.readTree Toml.maxNesting) "3 # x" = none ∧ parse "3 # x" = .int 3 := by
  obtain ⟨-, -, hfront, hcomment⟩ := parse?_eq_whole?_iff Toml.readsEntries_standard "3 # x"
  have hdrops := hcomment _ _ " x".toList commented_number_front (by decide)
    (List.all_eq_true.mp (by decide))
  obtain ⟨hwhole, hparse, -⟩ := hfront _ _ hdrops
  exact ⟨Toml.readsEntries_standard, hdrops, hwhole, hparse⟩

/-- A comment or a further entry behind a value is neither refused nor kept. -/
theorem dropped_without_trace :
    (parse "3 # x" = .int 3 ∧ whole? (Toml.readTree Toml.maxNesting) "3 # x" = none) ∧
      parse "true\nb = false" = .bool true ∧
      whole? (Toml.readTree Toml.maxNesting) "true\nb = false" = none := by
  have hcomment : ∀ c ∈ " x".toList, Toml.isTextChar c = true := List.all_eq_true.mp (by decide)
  have hnumber := parse?_of_comment Toml.readsEntries_standard commented_number_front
    (.text hcomment)
  have hentry : parse? "true\nb = false" = some (.bool true) := by cbv
  have hfront : Toml.readTree Toml.maxNesting (skipSpace "true\nb = false".toList) =
      some (.boolean true, "\nb = false".toList) := by cbv
  refine ⟨⟨?_, whole?_of_more commented_number_front (by decide)⟩, ?_,
    whole?_of_more hfront (by decide)⟩
  · rw [parse, hnumber]
    rfl
  · rw [parse, hentry]
    rfl

end GrammarText.Value
