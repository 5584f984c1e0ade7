/-!
# Help texts
-/

namespace RenderBroker.Command

def versionText : String :=
  "vortek-bridge 0.1.0\n"

inductive HelpTopic where
  | program
  | serve
  | options
  | help
  deriving DecidableEq, Repr

def HelpTopic.ofName? (name : String) : Option HelpTopic :=
  if name = "serve" then some .serve
  else if name = "options" then some .options
  else if name = "help" then some .help
  else none

def HelpTopic.lines : HelpTopic → List String
  | .program =>
    ["Render context broker for display-server clients",
      "",
      "Usage: vortek-bridge <COMMAND>",
      "",
      "Commands:",
      "  serve    Serve render contexts with the loopback backend until interrupted",
      "  options  Parse render options and print them as JSON",
      "  help     Print this message or the help of the given subcommand(s)",
      "",
      "Options:",
      "  -h, --help     Print help",
      "  -V, --version  Print version"]
  | .serve =>
    ["Serve render contexts with the loopback backend until interrupted",
      "",
      "Usage: vortek-bridge serve [OPTIONS]",
      "",
      "Options:",
      "      --config <CONFIG>              JSON configuration file",
      "      --socket <SOCKET>              Socket path "
        ++ "(relative paths resolve against the configured root)",
      "      --options <OPTIONS>            Render options as key=value pairs, "
        ++ "e.g. \"vkMaxVersion=1.2,maxDeviceMemory=2048\"",
      "      --max-contexts <MAX_CONTEXTS>  Refuse context creation beyond this many live contexts",
      "  -h, --help                         Print help"]
  | .options =>
    ["Parse render options and print them as JSON",
      "",
      "Usage: vortek-bridge options [SETTINGS]",
      "",
      "Arguments:",
      "  [SETTINGS]  Render options as key=value pairs [default: \"\"]",
      "",
      "Options:",
      "  -h, --help  Print help"]
  | .help =>
    ["Print this message or the help of the given subcommand(s)",
      "",
      "Usage: vortek-bridge help [COMMAND]...",
      "",
      "Arguments:",
      "  [COMMAND]...  Print help for the subcommand(s)"]

def HelpTopic.text (t : HelpTopic) : String :=
  String.join (t.lines.map fun line => line ++ "\n")

end RenderBroker.Command
