/-!
# Usage

The texts that explain the command line.
-/

namespace Flowchart
namespace Command

/-- How the command is called. -/
def usage : String :=
  "usage: flowsketch [-h] [-o OUTPUT] [-f \x7bjson,dsl\x7d] [--direction \x7bTB,BT,LR,RL\x7d]\n" ++
  "                  [--spacing SPACING] [--trace] [-v]\n" ++
  "                  input\n"

/-- How the command is called, with what each argument means. -/
def help : String :=
  usage ++
  "\n" ++
  "Parse flowchart DSL into a graph model.\n" ++
  "\n" ++
  "positional arguments:\n" ++
  "  input                 DSL file to parse, or '-' for stdin\n" ++
  "\n" ++
  "options:\n" ++
  "  -h, --help            show this help message and exit\n" ++
  "  -o OUTPUT, --output OUTPUT\n" ++
  "                        Write result to this file\n" ++
  "  -f \x7bjson,dsl\x7d, --format \x7bjson,dsl\x7d\n" ++
  "                        Output format (default: json)\n" ++
  "  --direction \x7bTB,BT,LR,RL\x7d\n" ++
  "                        Default flow direction; @direction in the input\n" ++
  "                        overrides it\n" ++
  "  --spacing SPACING     Default node spacing; @spacing in the input overrides\n" ++
  "                        it\n" ++
  "  --trace               Print a parse trace to stderr\n" ++
  "  -v, --verbose         Enable debug logging\n"

end Command
end Flowchart
