import Mathlib.Data.List.Permutation
import TreeDigest.Configuration
import TreeDigest.Proofs.FileSystem.Lookup
import TreeDigest.Proofs.Settings.Section
import TreeDigest.Proofs.Text.Encoding
namespace TreeDigest

def Choice.Value : Choice → Type
  | .workers => Nat
  | .timeout => Option Duration
  | .exclude => List String
  | .flag _ => Bool

namespace Settings

def choice? (s : Settings) : (c : Choice) → Option c.Value
  | .workers => s.workers.map fun n => n.toNat
  | .timeout => s.timeoutSeconds.map fun n => some (Duration.ofSeconds n.toNat)
  | .exclude => s.exclude
  | .flag f => s.flag? f

end Settings

-- A command line without patterns says the same about them as one with an empty list of them.
def Arguments.choice? (a : Arguments) : (c : Choice) → Option c.Value
  | .workers => a.workers.map fun n => n.toNat
  | .timeout => a.timeoutSeconds.map fun n => some (Duration.ofSeconds n.toNat)
  | .exclude => some a.exclude
  | .flag f => a.flag? f

namespace Options

def flag (o : Options) : Flag → Bool
  | .followLinks => o.digest.followLinks
  | .parallelWalk => o.digest.parallelWalk
  | .keepGoing => o.digest.keepGoing
  | .skipUnreadable => o.digest.skipUnreadable
  | .json => o.json
  | .verbose => o.verbose

def choice (o : Options) : (c : Choice) → c.Value
  | .workers => o.digest.run.workers
  | .timeout => o.digest.run.timeout
  | .exclude => o.digest.exclude
  | .flag f => o.flag f

variable (o : Options) (s : Settings) (a : Arguments)

theorem or_timeout (given : Option UInt64) (before : Option Duration) :
    (given.map fun n => Duration.ofSeconds n.toNat).or before =
      (given.map fun n => some (Duration.ofSeconds n.toNat)).getD before := by
  cases given <;> rfl

theorem choice_withSettings (c : Choice) :
    (o.withSettings s).choice c = (s.choice? c).getD (o.choice c) := by
  cases c with
  | workers | exclude => rfl
  | timeout => exact or_timeout s.timeoutSeconds o.digest.run.timeout
  | flag f => cases f <;> rfl

theorem choice_withArguments {c : Choice} (other : c ≠ .exclude) :
    (o.withArguments a).choice c = (a.choice? c).getD (o.choice c) := by
  cases c with
  | workers => rfl
  | exclude => exact absurd rfl other
  | timeout => exact or_timeout a.timeoutSeconds o.digest.run.timeout
  | flag f => cases f <;> rfl

end Options

namespace Configuration

inductive Unusable (fs : FileSystem) (directory : Path) : ConfigurationError → Prop where
  | notText {p : Place} {content : Bytes} : fs.find true (file directory) = .ok p →
      p.node = .file content → Utf8.text? content = none → Unusable fs directory (.notText (file directory))
  | refused {p : Place} {content : Bytes} {text : String} {cause : SettingsError} :
      fs.find true (file directory) = .ok p → p.node = .file content →
      Utf8.text? content = some text → Settings.read text = .error cause →
      Unusable fs directory (.refused (file directory) cause)

variable {fs : FileSystem} {directory : Path} {e : ConfigurationError}

theorem settings?_of_text {p : Place} {text : String} {s : Settings}
    (found : fs.find true (file directory) = .ok p) (own : p.node = .file (Utf8.encode text))
    (read : Settings.read text = .ok s) : settings? fs directory = .ok (some s) := by
  unfold settings?
  simp only [found, own, Utf8.text?_encode, read]

theorem unusable_iff : Unusable fs directory e ↔ settings? fs directory = .error e := by
  constructor
  · intro unusable
    unfold settings?
    cases unusable with
    | notText found own read => simp only [found, own, read]
    | refused found own read refused => simp only [found, own, read, refused]
  · intro failed
    unfold settings? at failed
    dsimp only at failed
    split at failed
    · cases failed
    · rename_i p found
      split at failed
      · rename_i content own
        split at failed
        · rename_i read
          cases failed
          exact .notText found own read
        · rename_i text read
          split at failed
          · cases failed
          · rename_i cause refused
            cases failed
            exact .refused found own read refused
      · cases failed

theorem options_usable {s : Settings} {a : Arguments} (usable : settings? fs a.directory = .ok (some s)) :
    options fs a = ((({} : Options).withSettings s).withArguments a, none) := by
  simp only [options, usable]

theorem options_failed {a : Arguments} (failed : settings? fs a.directory = .error e) :
    options fs a = (({} : Options).withArguments a, some e) := by
  simp only [options, failed]

theorem options_error {a : Arguments} (told : (options fs a).2 = some e) :
    settings? fs a.directory = .error e := by
  unfold options at told
  split at told
  · cases told
  · cases told
  · rename_i failed
    cases told
    exact failed

def layered (s : Settings) (a : Arguments) : Options := (({} : Options).withSettings s).withArguments a

-- Each choice is that of the uppermost layer that makes it, and no layer's word on one choice touches
-- another. Only patterns add up. Settings that cannot be used leave the command line over the defaults.
theorem choices_layered (fs : FileSystem) (s : Settings) (a : Arguments) :
    (∀ c, c ≠ .exclude →
        (layered s a).choice c = ((a.choice? c).or (s.choice? c)).getD (({} : Options).choice c)) ∧
      (layered s a).choice .exclude = s.exclude.getD [] ++ a.exclude ∧
      (∀ s' a' c, s'.choice? c = s.choice? c → a'.choice? c = a.choice? c →
        (layered s' a').choice c = (layered s a).choice c) ∧
      (layered s a).digest.run.capacity = none ∧
      (settings? fs a.directory = .ok (some s) → options fs a = (layered s a, none)) ∧
      ∀ e, ((options fs a).2 = some e ↔ Unusable fs a.directory e) ∧
        (Unusable fs a.directory e → options fs a = (({} : Options).withArguments a, some e)) := by
  have upper (s : Settings) (a : Arguments) (c : Choice) (other : c ≠ .exclude) :
      (layered s a).choice c = ((a.choice? c).or (s.choice? c)).getD (({} : Options).choice c) := by
    rw [layered, Options.choice_withArguments _ _ other, Options.choice_withSettings, Option.getD_or]
  have patterns (s : Settings) (a : Arguments) :
      (layered s a).choice .exclude = s.exclude.getD [] ++ a.exclude := rfl
  have alone {e : ConfigurationError} (unusable : Unusable fs a.directory e) :
      options fs a = (({} : Options).withArguments a, some e) := options_failed (unusable_iff.mp unusable)
  refine ⟨upper s a, patterns s a, fun s' a' c file line => ?_, rfl, options_usable, fun e => ⟨?_, alone⟩⟩
  · by_cases other : c = .exclude
    · subst other
      have file : s'.exclude = s.exclude := file
      have line : a'.exclude = a.exclude := Option.some.inj line
      rw [patterns, patterns, file, line]
    · rw [upper s' a' c other, upper s a c other, file, line]
  · constructor
    · exact fun told => unusable_iff.mpr (options_error told)
    · intro unusable
      rw [alone unusable]

def configured (content : Bytes) : FileSystem :=
  FileSystem.write {} [⟨Utf8.encode configFileName, by decide⟩] (.file content) .file

theorem configured_found (content : Bytes) : (configured content).find true (file (Path.ofString ".")) =
    .ok (.child (.root (configured content).root) ⟨Utf8.encode configFileName, by decide⟩ (.file content)) := by
  have segments : Path.segments (file (Path.ofString ".")).bytes = [[Path.dot], Utf8.encode configFileName] := by
    decide
  have stays : FileSystem.enter (.root (configured content).root) [Path.dot] =
      .ok (.place (.root (configured content).root)) := rfl
  have enters : FileSystem.enter (.root (configured content).root) (Utf8.encode configFileName) =
      .ok (.place (.child (.root (configured content).root) ⟨Utf8.encode configFileName, by decide⟩
        (.file content))) := rfl
  rw [FileSystem.find_eq (by decide) (by decide) (by decide) rfl]
  simp only [segments, FileSystem.resolve, stays, enters]

def filedText : String := "[settings]\nworkers = 4\nexclude = ['*.log']\nfollow_links = true\njson = true"

def filed : Settings where
  workers := some 4
  exclude := some ["*.log"]
  followLinks := some true
  json := some true

def asked : Arguments where
  workers := some 9
  exclude := ["dist"]
  followLinks := some false

theorem filed_read : Settings.read filedText = .ok filed := by
  have parsed : Toml.parse filedText = some (.table .header [("settings", .table .header
      [("exclude", .array false [.string "*.log"]), ("follow_links", .boolean true), ("json", .boolean true),
        ("workers", .integer 4)])]) := by cbv
  exact (Settings.read_of_parse parsed).trans rfl

theorem settings_filed :
    settings? (configured (Utf8.encode filedText)) asked.directory = .ok (some filed) :=
  settings?_of_text (configured_found _) rfl filed_read

theorem many_unusable : Unusable (configured (Utf8.encode "settings.workers = 'many'")) asked.directory
    (.refused (file asked.directory) (.wrongType (.string "many") .size)) := by
  have parsed : Toml.parse "settings.workers = 'many'" =
      some (.table .header [("settings", .table .dotted [("workers", .string "many")])]) := by cbv
  exact .refused (configured_found _) rfl (Utf8.text?_encode _)
    ((Settings.read_of_parse parsed).trans rfl)

theorem choices_layered_filed :
    options (configured (Utf8.encode filedText)) asked = (layered filed asked, none) ∧
      (layered filed asked).choice .workers = (9 : Nat) ∧
      (layered filed asked).choice (.flag .followLinks) = false ∧
      (layered filed asked).choice (.flag .json) = true ∧
      (layered filed asked).choice .exclude = ["*.log", "dist"] ∧
      (layered { filed with json := none } asked).choice .exclude = ["*.log", "dist"] ∧
      options (configured (Utf8.encode "settings.workers = 'many'")) asked =
        (({} : Options).withArguments asked,
          some (.refused (file asked.directory) (.wrongType (.string "many") .size))) := by
  obtain ⟨upper, patterns, apart, -, used, -⟩ :=
    choices_layered (configured (Utf8.encode filedText)) filed asked
  obtain ⟨-, -, -, -, -, failing⟩ :=
    choices_layered (configured (Utf8.encode "settings.workers = 'many'")) filed asked
  exact ⟨used settings_filed, upper .workers nofun, upper (.flag .followLinks) nofun,
    upper (.flag .json) nofun, patterns,
    (apart { filed with json := none } asked .exclude rfl rfl).trans patterns,
    (failing _).2 many_unusable⟩

end Configuration
end TreeDigest
