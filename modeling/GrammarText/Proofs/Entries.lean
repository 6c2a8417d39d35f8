import GrammarText.Entries
import Mathlib.Data.List.Induction

/-!
What filing under names does to the keys and to the entries.

- `keys_put`: a key that is taken stays where it is, a new one comes last. `keys_update`: a change
  of a value leaves the keys alone.
- `has_iff`, `get?_put_self`, `get?_put_ne`, `get?_update_ne`: what is found under a key, before and
  after a put or a change.
- `get?_putAll`: what is found where one list of entries lies over another.
- `Exchanged`, `Placed`: one entry at its place is another, or is new and last.
- `write_write_reordered`: writes under different keys can be made in either order, up to the order
  of two keys that both of them add.
- `Filed`: the keys are distinct and each is the name that its own value carries. `Filed.put` and
  `Filed.update`: filing a value under its name, and a change that leaves the name, keep this.
- `Collected`: the entries come from a list, filed one after another. `Collected.put`: the step.
  `Collected.given`: no value comes from elsewhere.
-/

namespace GrammarText.Entries

variable {α : Type} {es : Entries α} {key other : String}

theorem keys_put (es : Entries α) (key : String) (value : α) :
    (es.put key value).keys = if key ∈ es.keys then es.keys else es.keys ++ [key] := by
  induction es with
  | nil => simp [put, keys]
  | cons e rest ih =>
    obtain ⟨k, v⟩ := e
    by_cases hk : k = key
    · subst hk; simp [put, keys]
    · have hk' : ¬ key = k := fun h => hk h.symm
      simp only [keys] at ih
      by_cases hm : key ∈ rest.map Prod.fst
      · simp [put, keys, hk, hk', ih, hm]
      · simp [put, keys, hk, hk', ih, hm]

theorem keys_update (es : Entries α) (key : String) (change : α → α) :
    (es.update key change).keys = es.keys := by
  induction es with
  | nil => rfl
  | cons e rest ih =>
    obtain ⟨k, v⟩ := e
    by_cases hk : k = key
    · simp [update, keys, hk]
    · simpa [update, keys, hk] using ih

theorem nodup_put (value : α) (h : es.keys.Nodup) : (es.put key value).keys.Nodup := by
  rw [keys_put]
  split
  · exact h
  · rename_i hm
    rw [List.nodup_append]
    refine ⟨h, by simp, fun a ha b hb e => hm ?_⟩
    rw [← List.mem_singleton.mp hb, ← e]; exact ha

theorem mem_put {value : α} {e : String × α} (h : e ∈ es.put key value) :
    e = (key, value) ∨ e ∈ es := by
  induction es with
  | nil => exact Or.inl (List.mem_singleton.mp h)
  | cons f rest ih =>
    obtain ⟨k, v⟩ := f
    simp only [put] at h
    split at h
    · rename_i hk; subst hk
      rcases List.mem_cons.mp h with rfl | h
      · exact Or.inl rfl
      · exact Or.inr (List.mem_cons_of_mem _ h)
    · rcases List.mem_cons.mp h with rfl | h
      · exact Or.inr List.mem_cons_self
      · exact (ih h).imp_right (List.mem_cons_of_mem _)

theorem mem_update {change : α → α} {e : String × α} (h : e ∈ es.update key change) :
    e ∈ es ∨ ∃ v, (key, v) ∈ es ∧ e = (key, change v) := by
  induction es with
  | nil => cases h
  | cons f rest ih =>
    obtain ⟨k, v⟩ := f
    simp only [update] at h
    split at h
    · rename_i hk; subst hk
      rcases List.mem_cons.mp h with rfl | h
      · exact Or.inr ⟨v, List.mem_cons_self, rfl⟩
      · exact Or.inl (List.mem_cons_of_mem _ h)
    · rcases List.mem_cons.mp h with rfl | h
      · exact Or.inl List.mem_cons_self
      · rcases ih h with h | ⟨w, hw, rfl⟩
        · exact Or.inl (List.mem_cons_of_mem _ h)
        · exact Or.inr ⟨w, List.mem_cons_of_mem _ hw, rfl⟩

theorem has_iff : es.has key = true ↔ key ∈ es.keys := by
  induction es with
  | nil => simp [has, get?, keys]
  | cons e rest ih =>
    obtain ⟨k, v⟩ := e
    by_cases hk : k = key
    · simp [has, get?, keys, hk]
    · have hk' : ¬ key = k := fun h => hk h.symm
      simpa [has, get?, keys, hk, hk'] using ih

theorem get?_put_self (es : Entries α) (key : String) (value : α) :
    (es.put key value).get? key = some value := by
  induction es with
  | nil => simp [put, get?]
  | cons e rest ih =>
    obtain ⟨k, v⟩ := e
    by_cases hk : k = key
    · simp [put, get?, hk]
    · simpa [put, get?, hk] using ih

theorem get?_put_ne (es : Entries α) (h : key ≠ other) (value : α) :
    (es.put key value).get? other = es.get? other := by
  induction es with
  | nil => simp [put, get?, h]
  | cons e rest ih =>
    obtain ⟨k, v⟩ := e
    by_cases hk : k = key
    · simp [put, get?, hk, h]
    · simp only [put, if_neg hk, get?, ih]

/-- The value that was filed before under the same name plays no part. -/
theorem put_put_self (es : Entries α) (key : String) (value new : α) :
    (es.put key value).put key new = es.put key new := by
  induction es with
  | nil => simp [put]
  | cons e rest ih =>
    obtain ⟨k, v⟩ := e
    by_cases hk : k = key
    · simp [put, hk]
    · simp [put, hk, ih]

/-- What is seen of the values does not tell apart two that look the same. -/
theorem map_values_put {β : Type} {f : α → β} {value new : α} (h : f value = f new)
    (es : Entries α) (key : String) :
    (es.put key value).values.map f = (es.put key new).values.map f := by
  induction es with
  | nil => simp [put, values, h]
  | cons e rest ih =>
    obtain ⟨k, v⟩ := e
    by_cases hk : k = key
    · simp [put, values, hk, h]
    · simpa [put, values, hk] using ih

theorem mem_of_get? {v : α} (h : es.get? key = some v) : (key, v) ∈ es := by
  induction es with
  | nil => cases h
  | cons e rest ih =>
    obtain ⟨k, w⟩ := e
    by_cases hk : k = key
    · subst hk
      have hw : w = v := by simpa [get?] using h
      subst hw
      exact List.mem_cons_self
    · have hrest : get? rest key = some v := by simpa [get?, hk] using h
      exact List.mem_cons_of_mem _ (ih hrest)

theorem get?_of_mem (hd : es.keys.Nodup) {v : α} (h : (key, v) ∈ es) : es.get? key = some v := by
  induction es with
  | nil => cases h
  | cons e rest ih =>
    obtain ⟨k, w⟩ := e
    obtain ⟨hnew, hrest⟩ : k ∉ keys rest ∧ (keys rest).Nodup := List.nodup_cons.mp hd
    rcases List.mem_cons.mp h with h | h
    · cases h
      simp [get?]
    · have hne : k ≠ key := by
        rintro rfl
        exact hnew (List.mem_map_of_mem h)
      simpa [get?, hne] using ih hrest h

theorem get?_append (es es' : Entries α) (key : String) :
    get? (es ++ es') key = (es.get? key).or (es'.get? key) := by
  induction es with
  | nil => simp [get?]
  | cons e rest ih =>
    obtain ⟨k, v⟩ := e
    by_cases hk : k = key
    · simp [get?, hk]
    · simpa [get?, hk] using ih

theorem get?_update_ne (es : Entries α) (h : key ≠ other) (change : α → α) :
    (es.update key change).get? other = es.get? other := by
  induction es with
  | nil => rfl
  | cons e rest ih =>
    obtain ⟨k, v⟩ := e
    by_cases hk : k = key
    · simp [update, get?, hk, h]
    · simp only [update, if_neg hk, get?, ih]

/-! ## One list of entries over another -/

theorem nodup_putAll (other : Entries α) (h : es.keys.Nodup) : (es.putAll other).keys.Nodup := by
  induction other generalizing es with
  | nil => exact h
  | cons e rest ih => exact ih (nodup_put e.2 h)

/-- A value of the upper list wins; where it has none, the lower one counts. -/
theorem get?_putAll {top : Entries α} (hd : top.keys.Nodup) (es : Entries α) (key : String) :
    (es.putAll top).get? key = (top.get? key).or (es.get? key) := by
  induction top generalizing es with
  | nil => rfl
  | cons e rest ih =>
    obtain ⟨k, v⟩ := e
    obtain ⟨hnew, hrest⟩ : k ∉ keys rest ∧ (keys rest).Nodup := List.nodup_cons.mp hd
    show ((es.put k v).putAll rest).get? key = _
    rw [ih hrest]
    by_cases hk : k = key
    · subst hk
      have hnone : get? rest k = none := by
        rw [← Option.not_isSome_iff_eq_none]
        exact fun h => hnew (has_iff.mp h)
      rw [hnone, get?_put_self]
      simp [get?]
    · rw [get?_put_ne es hk]
      simp [get?, hk]

/-! ## One entry at its place -/

/-- The value under the key is exchanged for another, and all else stays at its place. -/
def Exchanged (es : Entries α) (key : String) (old new : α) (es' : Entries α) : Prop :=
  ∃ front back, es = front ++ (key, old) :: back ∧ es' = front ++ (key, new) :: back ∧
    key ∉ keys front ∧ key ∉ keys back

theorem exchanged_update (hd : es.keys.Nodup) {old : α} (h : es.get? key = some old)
    (change : α → α) : es.Exchanged key old (change old) (es.update key change) := by
  induction es with
  | nil => cases h
  | cons e rest ih =>
    obtain ⟨k, v⟩ := e
    obtain ⟨hnew, hrest⟩ : k ∉ keys rest ∧ (keys rest).Nodup := List.nodup_cons.mp hd
    by_cases hk : k = key
    · subst hk
      have hv : v = old := by simpa [get?] using h
      subst hv
      exact ⟨[], rest, rfl, by simp [update], List.not_mem_nil, hnew⟩
    · have hget : get? rest key = some old := by simpa [get?, hk] using h
      obtain ⟨front, back, hes, hes', hf, hb⟩ := ih hrest hget
      have hne : ¬ key = k := fun e => hk e.symm
      refine ⟨(k, v) :: front, back, by simp [hes], ?_, ?_, hb⟩
      · simp [update, hk, hes']
      · simp only [keys] at hf
        simp [keys, hne, hf]

theorem update_of_not_mem (h : key ∉ es.keys) (change : α → α) : es.update key change = es := by
  induction es with
  | nil => rfl
  | cons e rest ih =>
    obtain ⟨k, v⟩ := e
    have hmem : key ≠ k ∧ key ∉ keys rest := by simpa [keys] using h
    simp [update, Ne.symm hmem.1, ih hmem.2]

theorem put_of_mem (h : key ∈ es.keys) (value : α) :
    es.put key value = es.update key fun _ => value := by
  induction es with
  | nil => cases h
  | cons e rest ih =>
    obtain ⟨k, v⟩ := e
    by_cases hk : k = key
    · simp [put, update, hk]
    · have hne : ¬ key = k := fun e => hk e.symm
      have hrest : key ∈ keys rest := by simpa [keys, hne] using h
      simp [put, update, hk, ih hrest]

/-- A change of the value under a key comes to filing the changed value. -/
theorem update_of_get? {v : α} (h : es.get? key = some v) (change : α → α) :
    es.update key change = es.put key (change v) := by
  induction es with
  | nil => cases h
  | cons e rest ih =>
    obtain ⟨k, w⟩ := e
    by_cases hk : k = key
    · have hw : w = v := by simpa [get?, hk] using h
      simp [update, put, hk, hw]
    · have hrest : get? rest key = some v := by simpa [get?, hk] using h
      simp [update, put, hk, ih hrest]

theorem put_of_not_mem (h : key ∉ es.keys) (value : α) :
    es.put key value = es ++ [(key, value)] := by
  induction es with
  | nil => rfl
  | cons e rest ih =>
    obtain ⟨k, v⟩ := e
    have hmem : key ≠ k ∧ key ∉ keys rest := by simpa [keys] using h
    simp [put, Ne.symm hmem.1, ih hmem.2]

/-- The value stands under the key: in the place of what was there, or last if nothing was. -/
inductive Placed (es : Entries α) (key : String) (new : α) : Entries α → Prop
  | overwritten {old : α} {es' : Entries α} : es.Exchanged key old new es' → Placed es key new es'
  | appended : key ∉ es.keys → Placed es key new (es ++ [(key, new)])

theorem placed_put (hd : es.keys.Nodup) (new : α) : es.Placed key new (es.put key new) := by
  by_cases h : key ∈ es.keys
  · have hhas : (es.get? key).isSome = true := has_iff.mpr h
    obtain ⟨old, hold⟩ := Option.isSome_iff_exists.mp hhas
    rw [put_of_mem h]
    exact .overwritten (exchanged_update hd hold fun _ => new)
  · rw [put_of_not_mem h]
    exact .appended h

theorem keys_prefix_put (es : Entries α) (key : String) (value : α) :
    es.keys <+: (es.put key value).keys := by
  rw [keys_put]
  split
  · exact List.prefix_rfl
  · exact List.prefix_append _ _

theorem keys_prefix_update (es : Entries α) (key : String) (change : α → α) :
    es.keys <+: (es.update key change).keys := by
  simp [keys_update]

/-! ## Two writes under different keys -/

/-- A write under one key. -/
inductive Write (α : Type) where
  | put (value : α)
  | update (change : α → α)

def write (es : Entries α) (key : String) : Write α → Entries α
  | .put value => es.put key value
  | .update change => es.update key change

theorem get?_write_ne (es : Entries α) (h : key ≠ other) (w : Write α) :
    (es.write key w).get? other = es.get? other := by
  cases w with
  | put value => exact get?_put_ne es h value
  | update change => exact get?_update_ne es h change

theorem update_update_comm (es : Entries α) (h : key ≠ other) (f g : α → α) :
    (es.update key f).update other g = (es.update other g).update key f := by
  induction es with
  | nil => rfl
  | cons e rest ih =>
    obtain ⟨k, v⟩ := e
    by_cases hk : k = key
    · subst hk
      simp [update, h]
    · by_cases ho : k = other
      · subst ho
        simp [update, hk]
      · simp [update, hk, ho, ih]

theorem put_update_comm (es : Entries α) (h : key ≠ other) (value : α) (change : α → α) :
    (es.put key value).update other change = (es.update other change).put key value := by
  by_cases hk : key ∈ es.keys
  · have hk' : key ∈ (es.update other change).keys := by rwa [keys_update]
    rw [put_of_mem hk, put_of_mem hk', update_update_comm es h]
  · have hk' : key ∉ (es.update other change).keys := by rwa [keys_update]
    rw [put_of_not_mem hk, put_of_not_mem hk']
    clear hk hk'
    induction es with
    | nil => simp [update, h]
    | cons e rest ih =>
      obtain ⟨k, v⟩ := e
      by_cases ho : k = other
      · simp [update, ho]
      · simpa [update, ho] using ih

/-- The same entries, except that two which are new to `base` stand last in the one order and in
the other. -/
inductive Reordered (base : Entries α) (key other : String) : Entries α → Entries α → Prop
  | same (es : Entries α) : Reordered base key other es es
  | lastTwo (v w : α) : key ∉ base.keys → other ∉ base.keys →
      Reordered base key other (base ++ [(key, v), (other, w)]) (base ++ [(other, w), (key, v)])

theorem put_put_reordered (es : Entries α) (h : key ≠ other) (v w : α) :
    es.Reordered key other ((es.put key v).put other w) ((es.put other w).put key v) := by
  by_cases hk : key ∈ es.keys
  · have hk' : key ∈ (es.put other w).keys := (keys_prefix_put es other w).subset hk
    rw [put_of_mem hk, put_of_mem hk', ← put_update_comm es h.symm w fun _ => v]
    exact .same _
  · by_cases ho : other ∈ es.keys
    · have ho' : other ∈ (es.put key v).keys := (keys_prefix_put es key v).subset ho
      rw [put_of_mem ho, put_of_mem ho', put_update_comm es h v fun _ => w]
      exact .same _
    · have hk' : key ∉ keys (es ++ [(other, w)]) := by
        simp only [keys] at hk
        simp [keys, hk, h]
      have ho' : other ∉ keys (es ++ [(key, v)]) := by
        simp only [keys] at ho
        simp [keys, ho, h.symm]
      rw [put_of_not_mem hk, put_of_not_mem ho, put_of_not_mem hk', put_of_not_mem ho',
        List.append_assoc, List.append_assoc]
      exact .lastTwo v w hk ho

theorem write_write_reordered (es : Entries α) (h : key ≠ other) (a b : Write α) :
    es.Reordered key other ((es.write key a).write other b) ((es.write other b).write key a) := by
  cases a with
  | put v =>
    cases b with
    | put w => exact put_put_reordered es h v w
    | update g =>
      simp only [write]
      rw [put_update_comm es h v g]
      exact .same _
  | update f =>
    cases b with
    | put w =>
      simp only [write]
      rw [put_update_comm es h.symm w f]
      exact .same _
    | update g =>
      simp only [write]
      rw [update_update_comm es h f g]
      exact .same _

variable {base es' : Entries α}

theorem Reordered.perm (h : base.Reordered key other es es') : es.Perm es' := by
  cases h with
  | same => exact .refl _
  | lastTwo v w => exact (List.Perm.swap _ _ _).append_left base

theorem Reordered.get?_eq (h : base.Reordered key other es es') (hne : key ≠ other) (name : String) :
    es.get? name = es'.get? name := by
  cases h with
  | same => rfl
  | lastTwo v w =>
    rw [get?_append, get?_append]
    by_cases hk : key = name
    · subst hk
      simp [get?, hne.symm]
    · simp [get?, hk]

/-! ## Values under their own names -/

/-- The keys are distinct; each entry stands under the name of its value, and its value is one of
those that may stand here. -/
structure Filed (name : α → String) (Ok : α → Prop) (es : Entries α) : Prop where
  distinct : es.keys.Nodup
  each : ∀ e ∈ es, name e.2 = e.1 ∧ Ok e.2

variable {name : α → String} {Ok : α → Prop}

theorem Filed.nil : Filed name Ok [] := ⟨List.nodup_nil, fun _ h => nomatch h⟩

theorem Filed.put (h : Filed name Ok es) {value : α} (hv : Ok value) :
    Filed name Ok (es.put (name value) value) := by
  refine ⟨nodup_put value h.distinct, fun e he => ?_⟩
  rcases mem_put he with rfl | he
  · exact ⟨rfl, hv⟩
  · exact h.each e he

theorem Filed.update (h : Filed name Ok es) (key : String) {change : α → α}
    (hname : ∀ v, name (change v) = name v) (hok : ∀ v, Ok v → Ok (change v)) :
    Filed name Ok (es.update key change) := by
  refine ⟨by rw [keys_update]; exact h.distinct, fun e he => ?_⟩
  rcases mem_update he with he | ⟨v, hv, rfl⟩
  · exact h.each e he
  · obtain ⟨hn, ho⟩ := h.each _ hv
    exact ⟨(hname v).trans hn, hok v ho⟩

/-! ## Entries filed from a list -/

section Collected

variable {ε : Type} {nameOf : ε → String} {Gives : ε → α → Prop} {before : List ε}

/-- The keys are the names in `before`, in the order of their first occurrences. Under each name
stands what the last item of that name gives. -/
structure Collected (nameOf : ε → String) (Gives : ε → α → Prop) (before : List ε)
    (es : Entries α) : Prop where
  keys : es.keys = (before.map nameOf).eraseDups
  last : ∀ front e back, before = front ++ e :: back → (∀ x ∈ back, nameOf x ≠ nameOf e) →
    ∃ v, es.get? (nameOf e) = some v ∧ Gives e v

theorem Collected.nil : Collected nameOf Gives [] [] where
  keys := by rw [List.map_nil, List.eraseDups_nil]; rfl
  last := fun front _ _ h => absurd h.symm (by simp)

theorem Collected.has_iff (h : Collected nameOf Gives before es) {key : String} :
    es.has key = true ↔ key ∈ before.map nameOf := by
  rw [Entries.has_iff, h.keys, List.mem_eraseDups]

theorem eraseDups_concat (names : List String) (name : String) :
    (names ++ [name]).eraseDups
      = if name ∈ names then names.eraseDups else names.eraseDups ++ [name] := by
  rw [List.eraseDups_append]
  by_cases h : name ∈ names
  · simp [h, List.removeAll]
  · simp [h, List.removeAll, List.eraseDups_cons]

theorem nodup_eraseDups (names : List String) : names.eraseDups.Nodup := by
  induction names using List.reverseRecOn with
  | nil => exact List.nodup_nil
  | append_singleton names name ih =>
    rw [eraseDups_concat]
    by_cases h : name ∈ names
    · rwa [if_pos h]
    · have hnew : name ∉ names.eraseDups := fun hm => h (List.mem_eraseDups.mp hm)
      rw [if_neg h, List.nodup_append]
      refine ⟨ih, by simp, fun a ha b hb e => hnew ?_⟩
      rw [← List.mem_singleton.mp hb, ← e]
      exact ha

theorem eraseDups_filter (keep : String → Bool) (names : List String) :
    (names.filter keep).eraseDups = names.eraseDups.filter keep := by
  induction names using List.reverseRecOn with
  | nil => rfl
  | append_singleton names name ih =>
    rw [List.filter_append, eraseDups_concat]
    by_cases hk : keep name = true
    · have hlast : [name].filter keep = [name] := List.filter_cons_of_pos hk
      have hmem : name ∈ names.filter keep ↔ name ∈ names := by simp [hk]
      rw [hlast, eraseDups_concat, ih]
      by_cases hm : name ∈ names
      · rw [if_pos hm, if_pos (hmem.mpr hm)]
      · rw [if_neg hm, if_neg (mt hmem.mp hm), List.filter_append, hlast]
    · have hlast : [name].filter keep = [] := List.filter_cons_of_neg hk
      rw [hlast, List.append_nil, ih]
      split
      · rfl
      · rw [List.filter_append, hlast, List.append_nil]

theorem exists_last_of_name (h : key ∈ before.map nameOf) :
    ∃ front e back, before = front ++ e :: back ∧ nameOf e = key ∧
      ∀ x ∈ back, nameOf x ≠ key := by
  induction before with
  | nil => cases h
  | cons x rest ih =>
    by_cases hrest : key ∈ rest.map nameOf
    · obtain ⟨front, e, back, rfl, he, hback⟩ := ih hrest
      exact ⟨x :: front, e, back, rfl, he, hback⟩
    · have hx : nameOf x = key := by
        rcases List.mem_cons.mp h with h | h
        · exact h.symm
        · exact absurd h hrest
      exact ⟨[], x, rest, rfl, hx, fun y hy hk => hrest (List.mem_map.mpr ⟨y, hy, hk⟩)⟩

/-- There is no value but those that items give. -/
theorem Collected.given (h : Collected nameOf Gives before es) {v : α} (hv : v ∈ es.values) :
    ∃ e ∈ before, Gives e v := by
  have hd : es.keys.Nodup := by
    rw [h.keys]
    exact nodup_eraseDups _
  obtain ⟨⟨k, w⟩, hmem, rfl⟩ := List.mem_map.mp hv
  have hget : es.get? k = some w := get?_of_mem hd hmem
  have hname : k ∈ before.map nameOf := h.has_iff.mp (by simp [has, hget])
  obtain ⟨front, e, back, hsplit, rfl, hback⟩ := exists_last_of_name hname
  obtain ⟨w', hw', hgives⟩ := h.last front e back hsplit hback
  have hsame : w = w' := Option.some.inj (hget.symm.trans hw')
  rw [← hsame] at hgives
  exact ⟨e, by simp [hsplit], hgives⟩

/-- An item that comes last decides what stands under its name. -/
theorem Collected.put (h : Collected nameOf Gives before es) {e : ε} {v : α} (hv : Gives e v) :
    Collected nameOf Gives (before ++ [e]) (es.put (nameOf e) v) where
  keys := by
    rw [keys_put, h.keys, List.map_append, List.map_singleton, eraseDups_concat]
    simp only [List.mem_eraseDups]
  last := by
    intro front x back hsplit hback
    -- `x` is the new item, or the new item is the last one behind it and has another name
    rcases List.eq_nil_or_concat back with rfl | ⟨init, y, hcat⟩
    · obtain ⟨-, hx⟩ := List.append_inj' hsplit rfl
      obtain rfl := List.head_eq_of_cons_eq hx
      exact ⟨v, get?_put_self es _ v, hv⟩
    · rw [List.concat_eq_append] at hcat
      subst hcat
      have hsplit' : before ++ [e] = (front ++ x :: init) ++ [y] := by simpa using hsplit
      obtain ⟨hbefore, hy⟩ := List.append_inj' hsplit' rfl
      obtain rfl := List.head_eq_of_cons_eq hy
      obtain ⟨w, hw, hgives⟩ := h.last front x init hbefore fun z hz =>
        hback z (List.mem_append_left _ hz)
      have hne : nameOf e ≠ nameOf x := hback e (List.mem_append_right _ List.mem_cons_self)
      exact ⟨w, (get?_put_ne es hne v).trans hw, hgives⟩

end Collected

end GrammarText.Entries
