/-!
# Help texts

Each command has a `Page` with its help.  The usage is the first paragraph of
the help.  It stands in front of a message about a wrong call.
-/

namespace Bindery.CommandLine

/-- The pages of the help. -/
inductive Page where
  /-- The program. -/
  | main
  /-- The command that runs the pipeline. -/
  | run
  /-- The command that prints what the pipeline would run. -/
  | plan
  /-- The command that prints where the book would go. -/
  | uploadPath
  /-- The command that prints the configuration. -/
  | config
deriving DecidableEq, Repr

namespace Page

/-- The name of the program. -/
def program : String := "butler-book"

/-- The version of the program. -/
def version : String := "0.1.0"

/-- The name in front of a message. -/
def title : Page → String
  | main => program
  | run => program ++ " run"
  | plan => program ++ " plan"
  | uploadPath => program ++ " upload-path"
  | config => program ++ " config"

/-- The lines of the usage. -/
def usageLines : Page → List String
  | main =>
      ["usage: butler-book [-h] [--version] [--config CONFIG] [--run-id RUN_ID]",
        "                   [--format \x7btext,json\x7d] [--verbose | --quiet]",
        "                   \x7brun,plan,upload-path,config\x7d ..."]
  | run =>
      ["usage: butler-book run [-h] [--dry-run] [--compat-version COMPAT_VERSION]",
        "                       [--json]"]
  | plan => ["usage: butler-book plan [-h] [--compat-version COMPAT_VERSION] [--json]"]
  | uploadPath => ["usage: butler-book upload-path [-h] [--ref REF] [--json]"]
  | config => ["usage: butler-book config [-h] [--json]"]

/-- The lines of the help behind the usage. -/
def bodyLines : Page → List String
  | main =>
      ["build the butler book and publish it to the docs bucket",
        "",
        "positional arguments:",
        "  \x7brun,plan,upload-path,config\x7d",
        "    run                 install the toolchain, build the book, upload it when",
        "                        on CI",
        "    plan                print the commands \x60run\x60 would execute",
        "    upload-path         print the bucket destination for a ref",
        "    config              print the resolved configuration",
        "",
        "options:",
        "  -h, --help            show this help message and exit",
        "  --version             show program's version number and exit",
        "  --config CONFIG       YAML config file (default: $BUTLER_BOOK_CONFIG or",
        "                        configs/book.yaml)",
        "  --run-id RUN_ID       run identifier for log events",
        "  --format \x7btext,json\x7d  log format (default: json under CI)",
        "  --verbose             log captured command output",
        "  --quiet               only log warnings and errors"]
  | run =>
      ["options:",
        "  -h, --help            show this help message and exit",
        "  --dry-run             log commands without executing them",
        "  --compat-version COMPAT_VERSION",
        "                        override the pinned compatibility dependency version",
        "  --json                print a JSON run summary"]
  | plan =>
      ["options:",
        "  -h, --help            show this help message and exit",
        "  --compat-version COMPAT_VERSION",
        "                        override the pinned compatibility dependency version",
        "  --json                emit JSON output"]
  | uploadPath =>
      ["options:",
        "  -h, --help  show this help message and exit",
        "  --ref REF   ref name (default: $CI_COMMIT_REF_NAME)",
        "  --json      emit JSON output"]
  | config =>
      ["options:",
        "  -h, --help  show this help message and exit",
        "  --json      emit JSON output"]

/-- Lines as a text. -/
def text (lines : List String) : String := String.join (lines.map (· ++ "\n"))

/-- The usage. -/
def usage (p : Page) : String := text p.usageLines

/-- The help. -/
def help (p : Page) : String := text (p.usageLines ++ "" :: p.bodyLines)

end Page
end Bindery.CommandLine
