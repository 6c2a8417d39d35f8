import GrammarText.Cli.Command
import Mathlib.Logic.Basic

/-!
Command lines that are not refused.

- `Command.attached`: an option with its value behind an equals sign. `options?_attached`: it is read
  as that option and that value, whatever the value holds.
- `Command.parse_generateLine`: any number of assignments can be handed to `generate`, if each of them
  has a key. `Command.parse_inspectLine`: the other commands take the path of a manifest alone.
-/

namespace GrammarText.Command

/-- An option with its value attached to it. -/
def attached (name value : String) : String := "--" ++ name ++ "=" ++ value

variable {table : OptionTable} {name : String} {option : OptionName}

theorem longArgument?_attached (hname : '=' ∉ name.toList)
    (hoption : table.long.lookup name = some option) (value : String) :
    longArgument? table (name.toList ++ '=' :: value.toList)
      = some (.option option (some value)) := by
  have hne : ∀ c ∈ name.toList, decide (c ≠ '=') = true := by
    intro c hc
    rw [decide_eq_true_eq]
    rintro rfl
    exact hname hc
  have htake : (name.toList ++ '=' :: value.toList).takeWhile (· ≠ '=') = name.toList := by
    rw [List.takeWhile_append_of_pos hne]
    simp
  have hdrop : (name.toList ++ '=' :: value.toList).dropWhile (· ≠ '=') = '=' :: value.toList := by
    rw [List.dropWhile_append_of_pos hne]
    simp
  unfold longArgument?
  rw [htake, hdrop]
  simp [hoption]

theorem argument?_attached (hname : '=' ∉ name.toList)
    (hoption : table.long.lookup name = some option) (value : String) :
    argument? table (attached name value) = some (.option option (some value)) := by
  have hchars : (attached name value).toList
      = '-' :: '-' :: (name.toList ++ '=' :: value.toList) := by
    simp [attached]
  unfold argument?
  rw [hchars]
  exact longArgument?_attached hname hoption value

variable [Toml.Library]

/-- An option with its value attached is taken, and the other arguments are read on. -/
theorem options?_attached (hname : '=' ∉ name.toList)
    (hoption : table.long.lookup name = some option) {value : String} {given given' : Given}
    (htake : given.take? option value = some given') (rest : List String) :
    options? table given (attached name value :: rest) = options? table given' rest := by
  rw [options?, argument?_attached hname hoption]
  · simp [htake]
  · intro h
    have hchars := congrArg String.toList h
    simp [attached] at hchars

theorem take?_config {given : Given} {config : String} (hnone : given.config = none)
    (hconfig : config ≠ "") : given.take? .config config = some { given with config := config } := by
  simp [Given.take?, hnone, hconfig]

theorem options?_assignments (given : Given) {assignments : List String}
    {overrides : List (String × Value)}
    (h : assignments.mapM Context.parseAssignment? = some overrides) :
    options? generateOptions given (assignments.map (attached "set"))
      = some (some { given with overrides := given.overrides ++ overrides }) := by
  induction assignments generalizing given overrides with
  | nil =>
    have hnil : overrides = [] := by simpa using h.symm
    simp [options?, hnil]
  | cons assignment rest ih =>
    simp only [List.mapM_cons, Option.bind_eq_bind, Option.bind_eq_some_iff, Option.pure_def,
      Option.some.injEq] at h
    obtain ⟨pair, hpair, pairs, hpairs, rfl⟩ := h
    have htake : given.take? .set assignment
        = some { given with overrides := given.overrides ++ [pair] } := by
      simp [Given.take?, hpair]
    rw [List.map_cons, options?_attached (by decide) rfl htake, ih _ hpairs]
    simp

/-- The manifest at a path and assignments, as arguments of `generate`. -/
def generateLine (config : String) (assignments : List String) : List String :=
  "generate" :: attached "config" config :: assignments.map (attached "set")

theorem parse_generateLine {config : String} (hconfig : config ≠ "") {assignments : List String}
    {overrides : List (String × Value)}
    (h : assignments.mapM Context.parseAssignment? = some overrides) :
    parse (generateLine config assignments) = some (.generate config none overrides) := by
  have hoptions : options? generateOptions {}
      (attached "config" config :: assignments.map (attached "set"))
        = some (some { config := config, overrides }) := by
    rw [options?_attached (by decide) rfl (take?_config rfl hconfig), options?_assignments _ h]
    rfl
  show withOptions _ generateOptions _ _ = _
  rw [withOptions, hoptions]
  rfl

theorem parse_inspectLine {config : String} (hconfig : config ≠ "") :
    parse ["check", attached "config" config] = some (.check config) ∧
      parse ["describe", attached "config" config] = some (.describe config) := by
  have hoptions : options? commonOptions {} [attached "config" config]
      = some (some { config := config }) := by
    rw [options?_attached (by decide) rfl (take?_config rfl hconfig)]
    rfl
  constructor
  · show withOptions _ commonOptions _ _ = _
    rw [withOptions, hoptions]
    rfl
  · show withOptions _ commonOptions _ _ = _
    rw [withOptions, hoptions]
    rfl

end GrammarText.Command
