import ClassSheet.Json.Record
import ClassSheet.Sheet.Rule
import ClassSheet.Files.Path

/-!
# The format of configurations

A configuration is an object with three sections: `content` says where the sources are and where
the stylesheet goes, `settings` holds the options, and `props` the design tokens.

* `Format.token`: a design token. Some fields have a second name.
* `Format.options`: options, each with a default.
* `Format.content`: the content section.
* `Format.sections`: the whole configuration.
-/

namespace ClassSheet

open Json (Field Reading Record Tree)
open Number (Binary64)

/-- Where the sources are and where the stylesheet goes. -/
structure Content where
  /-- The first root of the sources. -/
  sourceDir : Path
  /-- The extension of the source files, with or without a dot. -/
  fileExtension : Text
  /-- The stylesheet, below the first root. -/
  outputFile : Path
  /-- The other roots of the sources. -/
  includeDirs : List Path := []
  deriving DecidableEq, Repr

/-- The sections of a configuration as they were read. -/
structure Sections where
  content : Content
  options : Options
  tokens : List DesignToken
  deriving DecidableEq, Repr

namespace Format

/-- A path. -/
def readPath (tree : Tree) : Reading Path := (Json.readText .path tree).map Path.ofText

/-- A text. -/
def readText : Tree → Reading Text := Json.readText .text

/-! ## Design tokens -/

/-- The kinds of tokens by their names. -/
def kinds : List (Text × TokenKind) := [("range".toList, .range), ("color".toList, .color)]

/-- A value, inside `depth` lists and objects: a number or a text. All of it has to be well formed
before its kind matters. -/
def readValue (depth : Nat) (tree : Tree) : Reading TokenValue := do
  Json.check depth tree
  match tree with
  | .number (some n) => return .number n.toBinary64
  | .text (some s) => return .text s
  | _ => Json.mismatch (.noAlternative "TokenValue".toList)

/-- The fields of a token that have been read. -/
structure TokenDraft where
  name? : Option Text := none
  property? : Option Text := none
  kind? : Option TokenKind := none
  value? : Option TokenValue := none
  directions? : Option (List Text) := none
  min? : Option (Option Binary64) := none
  max? : Option (Option Binary64) := none
  step? : Option (Option Binary64) := none

/-- The token of a draft. -/
def TokenDraft.finish? (d : TokenDraft) : Option DesignToken := do
  let name ← d.name?
  let property ← d.property?
  let kind ← d.kind?
  let value ← d.value?
  return {
    name, property, kind, value
    directions := d.directions?.getD []
    min? := d.min?.getD none
    max? := d.max?.getD none
    step? := d.step?.getD none }

/-- A token inside `depth` lists and objects. -/
def token (depth : Nat) : Record TokenDraft DesignToken where
  name := "PropertyDefinition".toList
  empty := {}
  finish? := TokenDraft.finish?
  fields := [
    { name := "name".toList
      present := fun d => d.name?.isSome
      store := fun d tree => (readText tree).map fun x => { d with name? := some x } },
    { name := "property".toList
      present := fun d => d.property?.isSome
      store := fun d tree => (readText tree).map fun x => { d with property? := some x } },
    { name := "type".toList
      aliases := ["kind".toList]
      present := fun d => d.kind?.isSome
      store := fun d tree => (Json.readChoice kinds tree).map fun x => { d with kind? := some x } },
    { name := "val".toList
      aliases := ["value".toList]
      present := fun d => d.value?.isSome
      store := fun d tree =>
        (readValue (depth + 1) tree).map fun x => { d with value? := some x } },
    { name := "direction".toList
      aliases := ["directions".toList]
      required := false
      present := fun d => d.directions?.isSome
      store := fun d tree =>
        (Json.readList readText tree).map fun x => { d with directions? := some x } },
    { name := "min".toList
      required := false
      present := fun d => d.min?.isSome
      store := fun d tree =>
        (Json.readOptionalNumber tree).map fun x => { d with min? := some x } },
    { name := "max".toList
      required := false
      present := fun d => d.max?.isSome
      store := fun d tree =>
        (Json.readOptionalNumber tree).map fun x => { d with max? := some x } },
    { name := "step".toList
      required := false
      present := fun d => d.step?.isSome
      store := fun d tree =>
        (Json.readOptionalNumber tree).map fun x => { d with step? := some x } }]

/-- A list of tokens inside `depth` lists and objects. -/
def readTokens (depth : Nat) : Tree → Reading (List DesignToken) :=
  Json.readList (token (depth + 1)).read

/-! ## Options -/

/-- The policies by their names. -/
def policies : List (Text × Policy) := [("exact".toList, .exact), ("substring".toList, .substring)]

/-- The options that have been read. -/
structure OptionsDraft where
  unit? : Option Text := none
  policy? : Option Policy := none

/-- The options of a draft. -/
def OptionsDraft.finish (d : OptionsDraft) : Options :=
  { unit := d.unit?.getD defaultUnit, policy := d.policy?.getD .exact }

/-- The options. -/
def options : Record OptionsDraft Options where
  name := "SynthOptions".toList
  empty := {}
  finish? := fun d => some d.finish
  fields := [
    { name := "unit".toList
      required := false
      present := fun d => d.unit?.isSome
      store := fun d tree => (readText tree).map fun x => { d with unit? := some x } },
    { name := "matching".toList
      required := false
      present := fun d => d.policy?.isSome
      store := fun d tree =>
        (Json.readChoice policies tree).map fun x => { d with policy? := some x } }]

/-! ## The whole configuration -/

/-- The fields of the content section that have been read. -/
structure ContentDraft where
  sourceDir? : Option Path := none
  fileExtension? : Option Text := none
  outputFile? : Option Path := none
  includeDirs? : Option (List Path) := none

/-- The content section of a draft. -/
def ContentDraft.finish? (d : ContentDraft) : Option Content := do
  let sourceDir ← d.sourceDir?
  let fileExtension ← d.fileExtension?
  let outputFile ← d.outputFile?
  return { sourceDir, fileExtension, outputFile, includeDirs := d.includeDirs?.getD [] }

/-- The content section. -/
def content : Record ContentDraft Content where
  name := "ContentConfig".toList
  empty := {}
  finish? := ContentDraft.finish?
  fields := [
    { name := "sourceDir".toList
      present := fun d => d.sourceDir?.isSome
      store := fun d tree => (readPath tree).map fun x => { d with sourceDir? := some x } },
    { name := "fileExtension".toList
      present := fun d => d.fileExtension?.isSome
      store := fun d tree => (readText tree).map fun x => { d with fileExtension? := some x } },
    { name := "outputFile".toList
      present := fun d => d.outputFile?.isSome
      store := fun d tree => (readPath tree).map fun x => { d with outputFile? := some x } },
    { name := "includeDirs".toList
      required := false
      present := fun d => d.includeDirs?.isSome
      store := fun d tree =>
        (Json.readList readPath tree).map fun x => { d with includeDirs? := some x } }]

/-- The sections that have been read. -/
structure SectionsDraft where
  content? : Option Content := none
  options? : Option Options := none
  tokens? : Option (List DesignToken) := none

/-- The sections of a draft. -/
def SectionsDraft.finish? (d : SectionsDraft) : Option Sections := do
  let content ← d.content?
  let tokens ← d.tokens?
  return { content, options := d.options?.getD {}, tokens }

/-- The whole configuration. -/
def sections : Record SectionsDraft Sections where
  name := "RawConfig".toList
  empty := {}
  finish? := SectionsDraft.finish?
  fields := [
    { name := "content".toList
      present := fun d => d.content?.isSome
      store := fun d tree => (content.read tree).map fun x => { d with content? := some x } },
    { name := "settings".toList
      required := false
      present := fun d => d.options?.isSome
      store := fun d tree => (options.read tree).map fun x => { d with options? := some x } },
    { name := "props".toList
      present := fun d => d.tokens?.isSome
      store := fun d tree => (readTokens 1 tree).map fun x => { d with tokens? := some x } }]

end Format

/-- The tokens of a text that is a list of them. -/
def DesignToken.listOfJson (s : Text) : Json.Reading (List DesignToken) :=
  Json.readDocument (Format.readTokens 0) s

/-- The options of a text. -/
def Options.ofJson (s : Text) : Json.Reading Options := Json.readDocument Format.options.read s

/-- The theme of a text that is a list of tokens. A list that is no theme is refused before
anything that follows it is looked at. -/
def Theme.ofJson (s : Text) : Json.Reading Theme :=
  Json.readDocument (fun tree => do
    let tokens ← Format.readTokens 0 tree
    match Theme.ofTokens tokens with
    | .ok theme => return theme
    | .error e => Json.mismatch (.refused e.message)) s

end ClassSheet
