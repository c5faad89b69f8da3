import ClassSheet.Configuration.Format
import ClassSheet.Wording

/-!
# Configurations

* `Configuration`: the content section, the options and the theme.
* `ConfigurationError`: why there is no configuration.
* `Configuration.ofJson`: reads a configuration from a text; its paths stay as written.
* `Configuration.load`: reads a configuration from a file. Its source directories are taken from
  the directory of that file.
-/

namespace ClassSheet

/-- All that is configured. -/
structure Configuration where
  content : Content
  options : Options
  theme : Theme

/-- Why there is no configuration. -/
inductive ConfigurationError where
  | notFound (path : Path)
  | unreadable (path : Path) (cause : FileError)
  | unparsable (path : Path) (cause : Json.Fault)
  /-- The tokens make no theme. -/
  | invalid (cause : ThemeError)
  deriving DecidableEq, Repr

namespace ConfigurationError

/-- The message of the cause, if the error has one. -/
def cause? (words : Wording) : ConfigurationError → Option Text
  | .notFound _ => none
  | .unreadable _ cause => some (words.file cause)
  | .unparsable _ cause => some (cause.message words)
  | .invalid cause => some cause.message

/-- The message for the user, with that of the cause. -/
def message (words : Wording) : ConfigurationError → Text
  | .notFound path => "Configuration file not found: ".toList ++ path.text
  | .unreadable path cause =>
    "Failed to read configuration ".toList ++ path.text ++ ": ".toList ++ words.file cause
  | .unparsable path cause =>
    "Failed to parse configuration ".toList ++ path.text ++ ": ".toList ++ cause.message words
  | .invalid cause => "Invalid design tokens: ".toList ++ cause.message

end ConfigurationError

namespace Configuration

/-- The name of the configuration file unless another one is given. -/
def defaultPath : Path := ⟨"BlackSquareUI.json".toList⟩

/-- The configuration in a text. Messages call the text by the given path. -/
def ofJson (path : Path) (s : Text) : Except ConfigurationError Configuration :=
  match Json.readDocument Format.sections.read s with
  | .error cause => .error (.unparsable path cause)
  | .ok sections =>
    match Theme.ofTokens sections.tokens with
    | .error cause => .error (.invalid cause)
    | .ok theme => .ok ⟨sections.content, sections.options, theme⟩

/-- The configuration with its source directories taken from a directory. The output file is left
alone, since it is taken from the first of them. -/
def relativeTo (base : Path) (c : Configuration) : Configuration :=
  { c with content := { c.content with
      sourceDir := base.join c.content.sourceDir
      includeDirs := c.content.includeDirs.map base.join } }

/-- The configuration with its source directories taken from the directory of a file, as far as
its path names one. -/
def relativeToFile (path : Path) (c : Configuration) : Configuration :=
  match path.parent? with
  | none => c
  | some base => if base.bytes = [] then c else c.relativeTo base

/-- The configuration in a file. -/
def load (disk : Disk) (path : Path) : Except ConfigurationError Configuration :=
  if !disk.contains path then .error (.notFound path)
  else
    match disk.readText path with
    | .error cause => .error (.unreadable path cause)
    | .ok s => (ofJson path s).map (relativeToFile path)

/-- The file that the stylesheet is written to. -/
def outputPath (c : Configuration) : Path := c.content.sourceDir.join c.content.outputFile

/-- The roots of the sources. -/
def sourceRoots (c : Configuration) : List Path := c.content.sourceDir :: c.content.includeDirs

/-- The style that the theme and the options make. -/
def style (c : Configuration) : Style := ⟨c.theme, c.options⟩

end Configuration

end ClassSheet
