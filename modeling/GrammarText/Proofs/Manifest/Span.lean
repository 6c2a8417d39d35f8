import GrammarText.Manifest.Span
import GrammarText.Proofs.Text.Search

/-!
The span of a name covers the name.

- `nameSpan?_eq_none`: only a name that does not occur has no span.
- `nameSpan?_eq_some`: which spelling a span comes from, and from which of its places.
- `span_covers_name`: both, and that a span lies inside of the source and its bytes are the name.
-/

namespace GrammarText

open Text

variable {source name : String}

/-- A name as it is looked for. -/
def spelled (name : String) (spelling : String × String) : String :=
  spelling.1 ++ name ++ spelling.2

theorem spanIn?_eq_none {spelling : String × String} :
    spanIn? source name spelling = none ↔ ∀ place, ¬ OccursAt source (spelled name spelling) place := by
  rw [spanIn?, Option.map_eq_none_iff, ← spelled, find?_eq_none]

theorem nameSpan?_eq_none : nameSpan? source name = none ↔ ¬ name.toList <:+: source.toList := by
  rw [nameSpan?, List.findSome?_eq_none_iff, ← occurs_iff, not_exists]
  constructor
  · intro h place hplace
    have hbare := spanIn?_eq_none.mp (h ("", "") (by decide)) place
    exact hbare (by simpa [spelled] using hplace)
  · intro h spelling _
    exact spanIn?_eq_none.mpr fun place hplace => h _ hplace.inner

/-- A span covers the name where it stands in the first spelling that occurs, at the first of its
places. -/
theorem nameSpan?_eq_some {span : Span} (h : nameSpan? source name = some span) :
    ∃ front spelling back place, nameSpellings = front ++ spelling :: back ∧
      (∀ s ∈ front, ∀ o, ¬ OccursAt source (spelled name s) o) ∧
      IsLeast {o | OccursAt source (spelled name spelling) o} place ∧
      span = ⟨place + spelling.1.utf8ByteSize, name.utf8ByteSize⟩ := by
  obtain ⟨front, spelling, back, hlist, hspan, hfront⟩ := List.findSome?_eq_some_iff.mp h
  obtain ⟨place, hplace, rfl⟩ := Option.map_eq_some_iff.mp hspan
  exact ⟨front, spelling, back, place, hlist, fun s hs => spanIn?_eq_none.mp (hfront s hs),
    find?_eq_some.mp hplace, rfl⟩

/-- A name has a span exactly if it occurs. The span then lies inside of the source, its bytes are the
name, and it is taken from the first place of the first spelling that occurs: the offset is what is
left of the end of that place without the closing quote and the name, which are never more. -/
theorem span_covers_name (source name : String) :
    (nameSpan? source name = none ↔ ¬ name.toList <:+: source.toList) ∧
      ∀ span, nameSpan? source name = some span →
        span.length = name.utf8ByteSize ∧ span.offset + span.length ≤ source.utf8ByteSize ∧
        source.toByteArray.extract span.offset (span.offset + span.length) = name.toByteArray ∧
        ∃ front spelling back place,
          [("name = \"", "\""), ("name=\"", "\""), ("name = '", "'"), ("\"", "\""), ("", "")]
            = front ++ spelling :: back ∧
          (∀ s ∈ front, ∀ o, ¬ OccursAt source (spelled name s) o) ∧
          IsLeast {o | OccursAt source (spelled name spelling) o} place ∧
          name.utf8ByteSize + spelling.2.utf8ByteSize
            ≤ place + (spelled name spelling).utf8ByteSize ∧
          span.offset = place + (spelled name spelling).utf8ByteSize
            - name.utf8ByteSize - spelling.2.utf8ByteSize := by
  refine ⟨nameSpan?_eq_none, fun span h => ?_⟩
  obtain ⟨front, spelling, back, place, hlist, hfront, hplace, rfl⟩ := nameSpan?_eq_some h
  have hbytes := (OccursAt.inner hplace.1).bytes
  have hsize : (spelled name spelling).utf8ByteSize
      = spelling.1.utf8ByteSize + name.utf8ByteSize + spelling.2.utf8ByteSize := by
    rw [spelled, String.utf8ByteSize_append, String.utf8ByteSize_append]
  refine ⟨rfl, hbytes.1, hbytes.2, front, spelling, back, place, hlist, hfront, hplace, ?_, ?_⟩
  · omega
  · show place + spelling.1.utf8ByteSize = _
    omega

/-- A name of two bytes between single quotes, behind a comment that holds it too. -/
theorem accented_name_covered :
    nameSpan? "# é\nname = 'é'" "é" = some ⟨13, 2⟩ ∧
      "# é\nname = 'é'".toByteArray.extract 13 15 = "é".toByteArray := by
  have h : nameSpan? "# é\nname = 'é'" "é" = some ⟨13, 2⟩ := by decide
  exact ⟨h, ((span_covers_name _ _).2 _ h).2.2.1⟩

end GrammarText
