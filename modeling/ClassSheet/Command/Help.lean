import ClassSheet.Command.Arguments

/-!
# Help texts

* `HelpTopic.text`: the help on the program or on one of its commands.
* `versionText`: the name and the version of the program.
* `ArgumentError.text`: what is said about a wrong argument.
-/

namespace ClassSheet

/-- The name of the program. -/
def programName : Text := "blacksquare".toList

/-- The name and the version of the program, as a line. -/
def versionText : Text := programName ++ " 0.3.0\n".toList

/-- What the program does. -/
def programSummary : Text :=
  "Compile BlackSquare utility classes into a design-token stylesheet".toList

/-- What a command does. -/
def Command.summary : Command → Text
  | .build => "Write the stylesheet to \x7bsourceDir\x7d/\x7boutputFile\x7d".toList
  | .print => "Print the stylesheet to stdout instead of writing it".toList
  | .classes => "List the class names found in the sources".toList

/-- What the command that gives help does. -/
def helpSummary : Text := "Print this message or the help of the given subcommand(s)".toList

/-- The help on options that may stand anywhere. -/
def optionLines : List Text :=
  ["Options:".toList,
    "  -c, --config <CONFIG>  Path to the configuration file [default: ".toList ++
      Configuration.defaultPath.text ++ "]".toList,
    "  -v, --verbose...       Increase log verbosity (-v info, -vv debug, -vvv trace)".toList,
    "  -h, --help             Print help".toList]

/-- Lines as a text. -/
def unlines (lines : List Text) : Text := lines.flatMap (· ++ ['\n'])

/-- How the program is called. -/
def usageLine : Text := "Usage: ".toList ++ programName ++ " [OPTIONS] [COMMAND]".toList

/-- The help on a topic. -/
def HelpTopic.text : HelpTopic → Text
  | .program => unlines <|
    [programSummary,
      [],
      usageLine,
      [],
      "Commands:".toList,
      "  build    ".toList ++ Command.build.summary,
      "  print    ".toList ++ Command.print.summary,
      "  classes  ".toList ++ Command.classes.summary,
      "  help     ".toList ++ helpSummary,
      []] ++ optionLines ++ ["  -V, --version          Print version".toList]
  | .command c => unlines <|
    [c.summary,
      [],
      "Usage: ".toList ++ programName ++ " ".toList ++ c.word ++ " [OPTIONS]".toList,
      []] ++ optionLines
  | .help => unlines
    [helpSummary,
      [],
      "Usage: ".toList ++ programName ++ " help [COMMAND]...".toList,
      [],
      "Arguments:".toList,
      "  [COMMAND]...  Print help for the subcommand(s)".toList]

/-- What is wrong with an argument. -/
def ArgumentError.message : ArgumentError → Text
  | .invalidSubcommand => "unrecognized subcommand".toList
  | .unknownArgument => "unexpected argument found".toList
  | .tooManyValues => "unexpected value for an option that takes none".toList
  | .invalidValue => "a value is required for '--config <CONFIG>' but none was supplied".toList
  | .argumentConflict => "the argument '--config <CONFIG>' cannot be used multiple times".toList

/-- What is said about a wrong argument. -/
def ArgumentError.text (e : ArgumentError) : Text := unlines
  ["error: ".toList ++ e.message,
    [],
    usageLine,
    [],
    "For more information, try '--help'.".toList]

end ClassSheet
