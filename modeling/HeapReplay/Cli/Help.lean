import HeapReplay.Cli.Options

/-!
# What the command says about itself

The usage line opens both the help and every message about a wrong use.  The help goes on with the
argument, the options and some examples.
-/

namespace HeapReplay.Cli

/-- The name of the command. -/
def commandName : String := "heapgen"

/-- The line that shows all arguments. -/
def usageLine : String :=
  s!"usage: {commandName} [-h] [-o OUTPUT] [-l LOG] [--no-wrap] [--stats] dump"

/-- The lines of the help. -/
def helpLines : List String :=
  [usageLine,
    "",
    "Generate a JavaScript program that recreates the structure of a GC heap log",
    "",
    "positional arguments:",
    "  dump                  heap log to read",
    "",
    "options:",
    "  -h, --help            show this help message and exit",
    "  -o OUTPUT, --output OUTPUT",
    "                        file to write the script to (default: stdout)",
    "  -l LOG, --log LOG     logging level (default=WARNING)",
    "  --no-wrap             don't wrap the script in a function",
    "  --stats               log node and root counts (implies -l info)",
    "",
    "Examples:",
    "    heapgen gc-log.txt                    # Print the script to stdout",
    "    heapgen gc-log.txt -o heap.js         # Write the script to a file",
    "    heapgen gc-log.txt --stats -l info    # Also log node counts",
    "        "]

/-- The help. -/
def helpText : String :=
  String.join (helpLines.map (· ++ "\n"))

/-- What is said about a wrong use. -/
def UsageError.text (e : UsageError) : String :=
  usageLine ++ "\n" ++ commandName ++ ": error: " ++ e.message ++ "\n"

end HeapReplay.Cli
