import GrammarText.Cli.Run
import GrammarText.Proofs.Cli.Arguments
import GrammarText.Proofs.Manifest.Rendering

/-!
What the commands come to on a manifest that is accepted, and on one that is not.

- `Files.read?_of_write?`: what is written to a path is what is read from it.
- `Command.run_accepted`, `Command.run_refused`: each command succeeds on a manifest that is accepted
  and fails on any other text.
- `Command.accepted_manifest_generates`: `check`, `describe` and `generate` agree on which texts they
  accept, and such a text is generated under all assignments, to the output and to a file alike. All
  that is used of the library that reads TOML is that it reads a text the same way twice.
-/

namespace GrammarText

/-! ## Files -/

theorem Files.read?_of_write? {files files' : Files} {path : String} {bytes : ByteArray}
    (h : files.write? path bytes = some files') : files'.read? path = some bytes := by
  unfold write? at h
  cases hs : steps? path with
  | none => simp [hs] at h
  | some steps =>
    simp only [hs] at h
    split at h
    · cases h
      simp [read?, hs, put]
    · cases h

theorem fromUTF8?_toUTF8 (s : String) : String.fromUTF8? s.toUTF8 = some s := by
  unfold String.fromUTF8?
  rw [String.toUTF8_eq_toByteArray, dif_pos s.isValidUTF8]
  rfl

namespace ManifestFile

variable [Toml.Library] {source : String} {m : Manifest}

theorem read_text (path source : String) : ManifestFile.read path (some source.toUTF8)
    = Manifest.read source >>= fun m => .ok ⟨path, source, m⟩ := by
  unfold ManifestFile.read
  rw [Option.bind_some, fromUTF8?_toUTF8]
  rfl

/-- A file that was read can be generated under its context with anything laid over it. -/
theorem generates (path : String) (h : Manifest.read source = .ok m) (overrides : Context) :
    ∃ text, generate ⟨path, source, m⟩ overrides = .ok text := by
  obtain ⟨g, -, hg, hgen⟩ := Manifest.rebuilds_and_generates h 0
  obtain ⟨text, htext⟩ := hgen (context ⟨path, source, m⟩ overrides)
  refine ⟨text, ?_⟩
  show (m.buildFrom source 0 >>= fun g => (g.generate _).mapError .render) = _
  rw [hg]
  show (g.generate _).mapError _ = _
  rw [htext]
  rfl

end ManifestFile

namespace Command

theorem config_ne_empty {files : Files} {config : String} {bytes : ByteArray}
    (hfile : files.read? config = some bytes) : config ≠ "" := by
  rintro rfl
  have hnone : Files.steps? "" = none := by decide
  simp [Files.read?, hnone] at hfile

section Commands

variable [Toml.Library] {files : Files} {config source : String} {m : Manifest}

theorem withManifest_accepted (hfile : files.read? config = some source.toUTF8)
    (hm : Manifest.read source = .ok m) {act : ManifestFile → Except ManifestError Effect}
    {effect : Effect} (hact : act ⟨config, source, m⟩ = .ok effect) :
    withManifest files.read? config act = effect := by
  have hread : (ManifestFile.read config (some source.toUTF8) >>= act) = .ok effect := by
    rw [ManifestFile.read_text, hm]
    exact hact
  rw [withManifest, hfile, hread]

theorem withManifest_refused (hfile : files.read? config = some source.toUTF8) {e : ManifestError}
    (he : Manifest.read source = .error e) (act : ManifestFile → Except ManifestError Effect) :
    withManifest files.read? config act = .report (manifestFailure e) := by
  have hread : (ManifestFile.read config (some source.toUTF8) >>= act) = .error e := by
    rw [ManifestFile.read_text, he]
    rfl
  rw [withManifest, hfile, hread]

/-- The command reads the manifest at the path and writes no file. -/
def OnlyReads (config : String) : Command → Prop
  | check path | describe path | generate path none _ => path = config
  | version | help _ | generate _ (some _) _ => False

theorem run_generate (hfile : files.read? config = some source.toUTF8)
    (hm : Manifest.read source = .ok m) {overrides : List (String × Value)} {text : String}
    (htext : ManifestFile.generate ⟨config, source, m⟩ (Context.ofList overrides) = .ok text)
    (output : Option String) :
    (generate config output overrides).run files.read? = match output with
      | none => .report { code := 0, out := text ++ "\n" }
      | some path =>
        .writeFile path (text ++ "\n") { code := 0, out := "✓ Wrote " ++ path ++ "\n" } := by
  refine withManifest_accepted hfile hm ?_
  unfold runGenerate
  rw [htext]
  cases output <;> rfl

theorem run_accepted (hfile : files.read? config = some source.toUTF8)
    (hm : Manifest.read source = .ok m) {command : Command} (hc : command.OnlyReads config) :
    ∃ r, command.run files.read? = .report r ∧ r.code = 0 := by
  obtain ⟨g, -, hg, -⟩ := Manifest.rebuilds_and_generates hm 0
  have hgrammar : ManifestFile.grammar ⟨config, source, m⟩ 0 = .ok g := hg
  cases command with
  | version | help => cases hc
  | check path =>
    cases hc
    have hact : ∃ r, runCheck ⟨config, source, m⟩ = .ok (.report r) ∧ r.code = 0 := by
      unfold runCheck
      rw [hgrammar]
      exact ⟨_, rfl, rfl⟩
    obtain ⟨r, hact, hcode⟩ := hact
    exact ⟨r, withManifest_accepted hfile hm hact, hcode⟩
  | describe path =>
    cases hc
    have hact : runDescribe ⟨config, source, m⟩
        = .ok (.report { code := 0, out := g.describe ++ "\n" }) := by
      unfold runDescribe
      rw [hgrammar]
      rfl
    exact ⟨_, withManifest_accepted hfile hm hact, rfl⟩
  | generate path output overrides =>
    cases output with
    | some target => cases hc
    | none =>
      cases hc
      obtain ⟨text, htext⟩ := ManifestFile.generates config hm (Context.ofList overrides)
      exact ⟨_, run_generate hfile hm htext none, rfl⟩

theorem run_refused (hfile : files.read? config = some source.toUTF8) {e : ManifestError}
    (he : Manifest.read source = .error e) {command : Command} (hc : command.OnlyReads config) :
    command.run files.read? = .report (manifestFailure e) := by
  cases command with
  | version | help => cases hc
  | check path | describe path =>
    cases hc
    exact withManifest_refused hfile he _
  | generate path output overrides =>
    cases output with
    | some target => cases hc
    | none =>
      cases hc
      exact withManifest_refused hfile he _

/-- A command that only reads ends with code 0 exactly if the text is accepted. -/
theorem code_eq_zero_iff (hfile : files.read? config = some source.toUTF8) {args : List String}
    {command : Command} (hparse : parse args = some command) (hc : command.OnlyReads config) :
    (runIn files args).1.code = 0 ↔ ∃ m, Manifest.read source = .ok m := by
  unfold runIn
  rw [hparse]
  cases hm : Manifest.read source with
  | ok m =>
    obtain ⟨r, hrun, hcode⟩ := run_accepted hfile hm hc
    simp [hrun, hcode]
  | error e =>
    simp [run_refused hfile hm hc, manifestFailure]

end Commands

/-- Let there be a text at a path, and any library to read it with. The path can be handed to each
command, and to `generate` all well-formed assignments. A command that only reads the text accepts it
exactly if it is a manifest that can be built. The grammar of such a manifest can be built again and
has a text under each context, so under that of the manifest with anything laid over it. What
`generate` prints is what it writes to a file. -/
theorem accepted_manifest_generates [Toml.Library] {files : Files} {config source : String}
    (hfile : files.read? config = some source.toUTF8) :
    parse ["check", attached "config" config] = some (.check config) ∧
    parse ["describe", attached "config" config] = some (.describe config) ∧
    (∀ assignments overrides, assignments.mapM Context.parseAssignment? = some overrides →
      parse (generateLine config assignments) = some (.generate config none overrides)) ∧
    (∀ args command, parse args = some command → command.OnlyReads config →
      ((runIn files args).1.code = 0 ↔ ∃ m, Manifest.read source = .ok m)) ∧
    ∀ m, Manifest.read source = .ok m →
      (∀ id, ∃ g, m.buildFrom source id = .ok g ∧ ∀ ctx, ∃ text, g.generate ctx = .ok text) ∧
      (∀ overrides, ∃ text, ManifestFile.generate ⟨config, source, m⟩ overrides = .ok text) ∧
      ∀ overrides, ∃ text,
        ManifestFile.generate ⟨config, source, m⟩ (Context.ofList overrides) = .ok text ∧
        (∀ args, parse args = some (.generate config none overrides) →
          runIn files args = ({ code := 0, out := text ++ "\n" }, files)) ∧
        ∀ args output files', parse args = some (.generate config (some output) overrides) →
          files.write? output (text ++ "\n").toUTF8 = some files' →
            runIn files args = ({ code := 0, out := "✓ Wrote " ++ output ++ "\n" }, files') ∧
              files'.read? output = some (text ++ "\n").toUTF8 := by
  have hne : config ≠ "" := config_ne_empty hfile
  obtain ⟨hcheck, hdescribe⟩ := parse_inspectLine hne
  refine ⟨hcheck, hdescribe, fun assignments overrides hset => parse_generateLine hne hset,
    fun args command hparse hc => code_eq_zero_iff hfile hparse hc, fun m hm => ⟨fun id => ?_,
      ManifestFile.generates config hm, fun overrides => ?_⟩⟩
  · obtain ⟨g, -, hg, hgen⟩ := Manifest.rebuilds_and_generates hm id
    exact ⟨g, hg, hgen⟩
  · obtain ⟨text, htext⟩ := ManifestFile.generates config hm (Context.ofList overrides)
    refine ⟨text, htext, fun args hparse => ?_, fun args output files' hparse hwrite => ⟨?_,
      Files.read?_of_write? hwrite⟩⟩
    · rw [runIn, hparse]
      simp only [run_generate hfile hm htext]
    · rw [runIn, hparse]
      simp only [run_generate hfile hm htext, hwrite]

/-- A manifest with one rule, whose body depends on a key. -/
def whenUnicode : String :=
  "rules = [['start', [\x7b when = \x7b key = 'unicode', then = 'u', else = 'a' \x7d \x7d]]]"

theorem whenUnicode_generates :
    let files : Files := [(["g.toml"], whenUnicode.toUTF8)]
    files.read? "g.toml" = some whenUnicode.toUTF8 ∧
      (runIn files (generateLine "g.toml" ["unicode=true"])).1
        = { code := 0, out := "start: \"u\"\n" } ∧
      ∃ m, Manifest.read whenUnicode = .ok m ∧ ∀ overrides, ∃ text,
        ManifestFile.generate ⟨"g.toml", whenUnicode, m⟩ overrides = .ok text := by
  intro files
  have hfile : files.read? "g.toml" = some whenUnicode.toUTF8 := rfl
  obtain ⟨hparse, -, -, hcodes, hgenerates⟩ := accepted_manifest_generates hfile
  have hcheck : (runIn files ["check", attached "config" "g.toml"]).1.code = 0 := by
    decide +kernel
  obtain ⟨m, hm⟩ := (hcodes _ _ hparse rfl).mp hcheck
  exact ⟨hfile, by decide +kernel, m, hm, (hgenerates m hm).2.1⟩

end Command

end GrammarText
