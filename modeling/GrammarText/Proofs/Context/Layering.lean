import GrammarText.Manifest.File
import GrammarText.Proofs.Entries

/-!
Contexts laid over each other.

- `Entries.put_putAll`, `Entries.putAll_put`: a value filed over a list of entries, and a value filed in
  a list that lies over another.
- `Entries.Latest`: the entries that come of filing pairs one after another. `Latest.putAll`: filing
  more pairs keeps this.
- `Context.Change`: one value set, or a context merged. `Context.changeAll_latest`: after any changes
  a context is what comes of all the pairs that were given.
- `Context.layering`: keys stand where they were first set and hold what was set last; merging is
  associative, and values set one by one come to a context of them merged.
-/

namespace GrammarText

namespace Entries

variable {α : Type} {es top given : Entries α} {key : String}

/-! ## Values filed one after another -/

theorem putAll_append (es front back : Entries α) :
    es.putAll (front ++ back) = (es.putAll front).putAll back := List.foldl_append

/-- A key that is there already keeps its place, so its value can as well be filed before values
under other keys. -/
theorem put_putAll (hkey : key ∈ es.keys) (htop : key ∉ top.keys) (value : α) :
    (es.putAll top).put key value = (es.put key value).putAll top := by
  induction top generalizing es with
  | nil => rfl
  | cons e rest ih =>
    obtain ⟨k, v⟩ := e
    obtain ⟨hne, hrest⟩ : key ≠ k ∧ key ∉ keys rest := by simpa [keys] using htop
    have hkey' : key ∈ (es.put k v).keys := (keys_prefix_put es k v).subset hkey
    show ((es.put k v).putAll rest).put key value = ((es.put key value).put k v).putAll rest
    rw [ih hkey' hrest, put_of_mem hkey', put_of_mem hkey, put_update_comm es hne.symm]

/-- A value filed in the upper list is filed behind all of it. -/
theorem putAll_put (hd : top.keys.Nodup) (es : Entries α) (key : String) (value : α) :
    es.putAll (top.put key value) = (es.putAll top).put key value := by
  induction top generalizing es with
  | nil => rfl
  | cons e rest ih =>
    obtain ⟨k, v⟩ := e
    obtain ⟨hnew, hrest⟩ : k ∉ keys rest ∧ (keys rest).Nodup := List.nodup_cons.mp hd
    by_cases hk : k = key
    · subst hk
      have hkey : k ∈ (es.put k v).keys := has_iff.mp (by simp [has, get?_put_self])
      show es.putAll (put ((k, v) :: rest) k value) = ((es.put k v).putAll rest).put k value
      rw [put_putAll hkey hnew, put_put_self, put, if_pos rfl]
      rfl
    · show es.putAll (put ((k, v) :: rest) key value) = ((es.put k v).putAll rest).put key value
      rw [← ih hrest, put, if_neg hk]
      rfl

theorem putAll_putAll (hd : top.keys.Nodup) (es upmost : Entries α) :
    (es.putAll top).putAll upmost = es.putAll (top.putAll upmost) := by
  induction upmost generalizing top with
  | nil => rfl
  | cons e rest ih =>
    obtain ⟨k, v⟩ := e
    show ((es.putAll top).put k v).putAll rest = es.putAll ((top.put k v).putAll rest)
    rw [← putAll_put hd, ih (nodup_put v hd)]

theorem nil_putAll (hd : es.keys.Nodup) : putAll [] es = es := by
  induction es using List.reverseRecOn with
  | nil => rfl
  | append_singleton es e ih =>
    obtain ⟨k, v⟩ := e
    have hkeys : keys (es ++ [(k, v)]) = keys es ++ [k] := List.map_append
    rw [hkeys, List.nodup_append] at hd
    obtain ⟨hes, -, hnew⟩ := hd
    have hk : k ∉ keys es := fun hm => hnew k hm k List.mem_cons_self rfl
    rw [putAll_append, ih hes]
    exact put_of_not_mem hk v

/-! ## First places, last values -/

/-- The keys stand in the order in which the pairs first have them, and each holds the value of the
last pair that has it. -/
def Latest (given es : Entries α) : Prop := Collected Prod.fst (fun e v => v = e.2) given es

theorem Latest.putAll (h : Latest given es) (pairs : Entries α) :
    Latest (given ++ pairs) (es.putAll pairs) := by
  induction pairs generalizing given es with
  | nil => rwa [List.append_nil]
  | cons e rest ih =>
    have hput : Latest (given ++ [e]) (es.put e.1 e.2) := h.put rfl
    have hrest := ih hput
    rwa [List.append_assoc] at hrest

theorem latest_self (hd : es.keys.Nodup) : Latest es es := by
  have h := Latest.putAll (.nil : Latest [] []) es
  rwa [nil_putAll hd] at h

theorem Latest.get?_eq_none (h : Latest given es) (hkey : key ∉ given.keys) : es.get? key = none := by
  rw [← Option.not_isSome_iff_eq_none]
  exact fun hs => hkey (h.has_iff.mp hs)

end Entries

/-! ## Contexts -/

namespace Context

inductive Change where
  | set (key : String) (value : Value)
  | merge (top : Context)

/-- The pairs that a change gives, in order. -/
def Change.pairs : Change → Entries Value
  | .set key value => [(key, value)]
  | .merge top => top.entries

def change (c : Context) : Change → Context
  | .set key value => c.set key value
  | .merge top => c.merge top

def changeAll (c : Context) (changes : List Change) : Context := changes.foldl change c

theorem entries_change (c : Context) (ch : Change) :
    (c.change ch).entries = c.entries.putAll ch.pairs := by
  cases ch <;> rfl

theorem change_latest {c : Context} {given : Entries Value} (h : Entries.Latest given c.entries)
    (ch : Change) : Entries.Latest (given ++ ch.pairs) (c.change ch).entries := by
  rw [entries_change]
  exact h.putAll ch.pairs

theorem changeAll_latest {c : Context} {given : Entries Value} (h : Entries.Latest given c.entries)
    (changes : List Change) :
    Entries.Latest (given ++ changes.flatMap Change.pairs) (c.changeAll changes).entries := by
  induction changes generalizing c given with
  | nil =>
    rw [List.flatMap_nil, List.append_nil]
    exact h
  | cons ch rest ih =>
    have hrest := ih (change_latest h ch)
    rwa [List.append_assoc, ← List.flatMap_cons] at hrest

theorem merge_assoc (a : Context) {b : Context} (hb : b.entries.keys.Nodup) (c : Context) :
    (a.merge b).merge c = a.merge (b.merge c) :=
  congrArg mk (Entries.putAll_putAll hb a.entries c.entries)

/-- Values set one by one. -/
theorem setAll_eq (c : Context) (pairs : List (String × Value)) :
    c.setAll pairs = pairs.foldl (fun c pair => c.set pair.1 pair.2) c := by
  induction pairs generalizing c with
  | nil => rfl
  | cons pair rest ih => exact ih (c.set pair.1 pair.2)

theorem merge_ofList (base : Context) (pairs : List (String × Value)) :
    base.merge (ofList pairs) = base.setAll pairs := by
  have hnil : (Entries.keys ([] : Entries Value)).Nodup := List.nodup_nil
  have hlayers : base.entries.putAll pairs = base.entries.putAll (Entries.putAll [] pairs) :=
    Entries.putAll_putAll hnil base.entries pairs
  exact congrArg mk hlayers.symm

/-- The layers of a context. Setting values and merging contexts, in any order and number, leaves a
context whose keys are distinct and stand in the order in which they were first given; under each key
stands the value that was given last. A value of the upper of two contexts wins, and where it has none
the lower one counts. Merging is associative and the empty context changes nothing on either side,
entries and their order alike. Pairs collected in a context of their own and merged over a base, as
the overrides of a file are, come to the base with the pairs set one by one. -/
theorem layering :
    (∀ (c : Context) (changes : List Change), c.entries.keys.Nodup →
      let given : Entries Value := c.entries ++ changes.flatMap Change.pairs
      let result := c.changeAll changes
      result.entries.keys.Nodup ∧ result.entries.keys = given.keys.eraseDups ∧
        (∀ front key value back, given = front ++ (key, value) :: back → key ∉ Entries.keys back →
          result.get? key = some value) ∧
        ∀ key, key ∉ given.keys → result.get? key = none) ∧
    (∀ (a b : Context) (key : String), b.entries.keys.Nodup →
      (a.merge b).get? key = (b.get? key).or (a.get? key)) ∧
    (∀ a b c : Context, b.entries.keys.Nodup → (a.merge b).merge c = a.merge (b.merge c)) ∧
    (∀ a : Context, a.merge empty = a ∧ (a.entries.keys.Nodup → empty.merge a = a)) ∧
    (∀ (base : Context) (pairs : List (String × Value)),
      base.merge (pairs.foldl (fun c pair => c.set pair.1 pair.2) empty)
        = pairs.foldl (fun c pair => c.set pair.1 pair.2) base) ∧
    ∀ (f : ManifestFile) (pairs : List (String × Value)),
      f.context (ofList pairs) = pairs.foldl (fun c pair => c.set pair.1 pair.2) f.manifest.context := by
  refine ⟨fun c changes hd => ?_, fun a b key hb => Entries.get?_putAll hb a.entries key,
    fun a b c hb => merge_assoc a hb c, fun a => ⟨rfl, fun ha => congrArg mk (Entries.nil_putAll ha)⟩,
    fun base pairs => ?_, fun f pairs => ?_⟩
  · have h := changeAll_latest (Entries.latest_self hd) changes
    refine ⟨?_, h.keys, fun front key value back hgiven hback => ?_, fun key => h.get?_eq_none⟩
    · rw [h.keys]
      exact Entries.nodup_eraseDups _
    · have hlast : ∀ e ∈ back, e.1 ≠ key := by
        rintro e he rfl
        exact hback (List.mem_map_of_mem he)
      obtain ⟨v, hv, rfl⟩ := h.last front (key, value) back hgiven hlast
      exact hv
  · rw [← setAll_eq, ← setAll_eq]
    exact merge_ofList base pairs
  · rw [← setAll_eq]
    exact merge_ofList f.manifest.context pairs

/-- A context of two keys. -/
def strictCalc : Context := ofList [("strict", .bool true), ("name", .str "calc")]

theorem strictCalc_layers :
    strictCalc.entries.keys.Nodup ∧
      (strictCalc.changeAll [.set "depth" (.int 1),
        .merge (ofList [("name", .str "lark"), ("depth", .int 2)])]).entries.keys
          = ["strict", "name", "depth"] ∧
      (strictCalc.merge (ofList [("strict", .bool false)])).get? "strict" = some (.bool false) ∧
      empty.merge strictCalc = strictCalc ∧
      (strictCalc.merge (ofList [("depth", .int 1)])).merge (ofList [("name", .int 0)])
        = strictCalc.merge ((ofList [("depth", .int 1)]).merge (ofList [("name", .int 0)])) := by
  obtain ⟨hchanges, hget, hassoc, hempty, -⟩ := layering
  have hd : strictCalc.entries.keys.Nodup := by decide
  exact ⟨hd, (hchanges strictCalc _ hd).2.1, hget strictCalc _ "strict" (by decide),
    (hempty strictCalc).2 hd, hassoc strictCalc _ _ (by decide)⟩

end Context

end GrammarText
