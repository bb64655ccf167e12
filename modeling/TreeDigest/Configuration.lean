import TreeDigest.CommandLine.Parser
import TreeDigest.FileSystem.Resolve
import TreeDigest.Settings.Reader
namespace TreeDigest

namespace Options

def withSettings (o : Options) (s : Settings) : Options where
  digest :=
    { run :=
        { workers := (s.workers.map (·.toNat)).getD o.digest.run.workers
          timeout := (s.timeoutSeconds.map fun n => .ofSeconds n.toNat).or o.digest.run.timeout
          capacity := o.digest.run.capacity }
      followLinks := s.followLinks.getD o.digest.followLinks
      parallelWalk := s.parallelWalk.getD o.digest.parallelWalk
      exclude := s.exclude.getD o.digest.exclude
      skipUnreadable := s.skipUnreadable.getD o.digest.skipUnreadable
      keepGoing := s.keepGoing.getD o.digest.keepGoing }
  json := s.json.getD o.json
  verbose := s.verbose.getD o.verbose

-- What the command line names replaces what was there, except that its patterns join the others.
def withArguments (o : Options) (a : Arguments) : Options where
  digest :=
    { run :=
        { workers := (a.workers.map (·.toNat)).getD o.digest.run.workers
          timeout := (a.timeoutSeconds.map fun n => .ofSeconds n.toNat).or o.digest.run.timeout
          capacity := o.digest.run.capacity }
      followLinks := a.followLinks.getD o.digest.followLinks
      parallelWalk := a.parallelWalk.getD o.digest.parallelWalk
      exclude := o.digest.exclude ++ a.exclude
      skipUnreadable := a.skipUnreadable.getD o.digest.skipUnreadable
      keepGoing := a.keepGoing.getD o.digest.keepGoing }
  json := a.json.getD o.json
  verbose := a.verbose.getD o.verbose

end Options

inductive ConfigurationError where
  | notText (file : Path)
  | refused (file : Path) (cause : SettingsError)

def ConfigurationError.message : ConfigurationError → String
  | .notText file => "read " ++ file.display ++ ": stream did not contain valid UTF-8"
  | .refused file cause => "parse " ++ file.display ++ ": " ++ cause.message

namespace Configuration

def file (directory : Path) : Path := directory.join (Path.ofString configFileName)

def settings? (fs : FileSystem) (directory : Path) : Except ConfigurationError (Option Settings) :=
  let file := file directory
  match fs.find true file with
  | .error _ => .ok none
  | .ok p =>
    match p.node with
    | .file content =>
      match Utf8.text? content with
      | none => .error (.notText file)
      | some text =>
        match Settings.read text with
        | .ok s => .ok (some s)
        | .error e => .error (.refused file e)
    | _ => .ok none

-- The defaults, then the settings of the directory, then the command line. Without usable settings the
-- command line alone decides.
def options (fs : FileSystem) (a : Arguments) : Options × Option ConfigurationError :=
  match settings? fs a.directory with
  | .ok (some s) => ((({} : Options).withSettings s).withArguments a, none)
  | .ok none => (({} : Options).withArguments a, none)
  | .error e => (({} : Options).withArguments a, some e)

end Configuration
end TreeDigest
