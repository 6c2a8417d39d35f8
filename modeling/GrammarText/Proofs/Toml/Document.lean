import GrammarText.Proofs.Entries
import GrammarText.Toml.Document

/-!
What the lines of a document leave of the ones before them.

- `Keeps`: said of a change of a table, that a value which stands in it stays. `keeps_openTable`,
  `keeps_openSeries`, `keeps_insertPath`, `keeps_atHeader`: of what headers and keys do.
- `add_keeps`, `readLines_keeps`: a line, and then any number of lines, keeps every value that
  stands in the outermost table.
- `get?_entriesValue`: such a value is also in the entries of the finished document.
-/

namespace GrammarText.Toml

variable {key : String} {v : Value}

theorem get?_insertSorted_ne {α : Type} {new : String} (h : new ≠ key) (value : α)
    (es : Entries α) : (insertSorted new value es).get? key = es.get? key := by
  induction es with
  | nil => simp [insertSorted, Entries.get?, h]
  | cons e rest ih =>
    obtain ⟨k, w⟩ := e
    rw [insertSorted]
    split
    · simp [Entries.get?, h]
    · simp only [Entries.get?, ih]

/-- The change leaves every value that stands in the table. -/
def Keeps (change : Items → Option Items) : Prop :=
  ∀ {items items' : Items} {key : String} {v : Value}, change items = some items' →
    items.get? key = some (.leaf v) → items'.get? key = some (.leaf v)

/-- Something put under a key that does not have the value leaves it where it is. -/
theorem leaf_insertSorted {items : Items} {other : String} (hv : items.get? key = some (.leaf v))
    (hother : items.get? other ≠ some (.leaf v)) (item : Item) :
    (insertSorted other item items).get? key = some (.leaf v) := by
  have hne : other ≠ key := by
    rintro rfl
    exact hother hv
  rwa [get?_insertSorted_ne hne]

theorem leaf_put {items : Items} {other : String} (hv : items.get? key = some (.leaf v))
    (hother : items.get? other ≠ some (.leaf v)) (item : Item) :
    (items.put other item).get? key = some (.leaf v) := by
  have hne : other ≠ key := by
    rintro rfl
    exact hother hv
  rwa [Entries.get?_put_ne items hne]

theorem keeps_openTable (name : String) : Keeps (openTable name) := by
  intro items items' key v h hv
  unfold openTable at h
  split at h
  · rename_i hnone
    cases h
    exact leaf_insertSorted hv (by simp [hnone]) _
  · rename_i inner htable
    cases h
    exact leaf_put hv (by simp [htable]) _
  · cases h

theorem keeps_openSeries (name : String) : Keeps (openSeries name) := by
  intro items items' key v h hv
  unfold openSeries at h
  split at h
  · rename_i hnone
    cases h
    exact leaf_insertSorted hv (by simp [hnone]) _
  · rename_i latest earlier hseries
    cases h
    exact leaf_put hv (by simp [hseries]) _
  · cases h

theorem keeps_insertPath (value : Value) (fits : Bool) (path : List String) :
    Keeps (insertPath value fits path) := by
  intro items items' key v h hv
  unfold insertPath at h
  split at h
  · cases h
  · rename_i name
    split at h
    · rename_i hfree
      cases h
      have hnone : items.get? name = none := by
        simpa [Entries.has] using (Bool.and_eq_true_iff.mp hfree).2
      exact leaf_insertSorted hv (by simp [hnone]) _
    · cases h
  · rename_i name path hpath
    split at h
    · rename_i hnone
      obtain ⟨inner, -, rfl⟩ := Option.map_eq_some_iff.mp h
      exact leaf_insertSorted hv (by simp [hnone]) _
    · cases h
    · rename_i origin inner hheader htable
      obtain ⟨inner', -, rfl⟩ := Option.map_eq_some_iff.mp h
      exact leaf_put hv (by simp [htable]) _
    · rename_i latest earlier hseries
      obtain ⟨latest', -, rfl⟩ := Option.map_eq_some_iff.mp h
      exact leaf_put hv (by simp [hseries]) _
    · cases h

/-- A header path of several keys changes a table inside of the one that it starts from. -/
theorem keeps_atHeader {change : Items → Option Items} (hchange : Keeps change)
    (path : List String) : Keeps (atHeader change path) := by
  intro items items' key v h hv
  unfold atHeader at h
  split at h
  · exact hchange h hv
  · rename_i name path
    split at h
    · rename_i hnone
      obtain ⟨inner, -, rfl⟩ := Option.map_eq_some_iff.mp h
      exact leaf_insertSorted hv (by simp [hnone]) _
    · rename_i origin inner htable
      obtain ⟨inner', -, rfl⟩ := Option.map_eq_some_iff.mp h
      exact leaf_put hv (by simp [htable]) _
    · rename_i latest earlier hseries
      obtain ⟨latest', -, rfl⟩ := Option.map_eq_some_iff.mp h
      exact leaf_put hv (by simp [hseries]) _
    · cases h

theorem keeps_atLast {change : String → Items → Option Items} (hchange : ∀ name, Keeps (change name))
    (path : List String) : Keeps (atLast change path) := by
  intro items items' key v h hv
  unfold atLast at h
  split at h
  · cases h
  · exact keeps_atHeader (hchange _) _ h hv

/-- A line adds to a document and takes no value away. -/
theorem add_keeps {d d' : Draft} {line : Line} (h : d.add line = some d')
    (hv : d.root.get? key = some (.leaf v)) : d'.root.get? key = some (.leaf v) := by
  cases line with
  | table path =>
    obtain ⟨root, hroot, rfl⟩ := Option.map_eq_some_iff.mp h
    exact keeps_atLast keeps_openTable path hroot hv
  | series path =>
    obtain ⟨root, hroot, rfl⟩ := Option.map_eq_some_iff.mp h
    exact keeps_atLast keeps_openSeries path hroot hv
  | entry path value =>
    obtain ⟨root, hroot, rfl⟩ := Option.map_eq_some_iff.mp h
    exact keeps_atHeader (keeps_insertPath value true path) d.header hroot hv

theorem readLines_keeps {d d' : Draft} {cs : List Char} (h : readLines d cs = some d')
    (hv : d.root.get? key = some (.leaf v)) : d'.root.get? key = some (.leaf v) := by
  fun_induction readLines d cs with
  | case2 =>
    cases h
    exact hv
  | case5 d cs start hnil htrivia line rest hline d₁ hadd hend ih => exact ih h (add_keeps hadd hv)
  | case1 | case3 | case4 | case6 => cases h

theorem get?_entriesValue (items : Items) :
    Entries.get? (entriesValue items) key = (items.get? key).map Item.value := by
  induction items with
  | nil => rfl
  | cons e rest ih =>
    obtain ⟨k, item⟩ := e
    rw [entriesValue, Entries.get?, Entries.get?, ih]
    split <;> rfl

end GrammarText.Toml
