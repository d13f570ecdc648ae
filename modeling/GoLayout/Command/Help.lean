import GoLayout.Command.Run

/-! # Help text

    What the program says about its command line. -/

namespace GoLayout.Command

namespace Switch

/-- The placeholder for the value of an option. -/
def placeholder : Switch → Text
  | architecture => " ARCH"
  | wordSize => " BYTES"
  | structName => " NAME"
  | cursor => " LINE:COL"
  | logDirectory => " DIR"
  | _ => ""

/-- What an option does. -/
def purpose : Switch → Text
  | help => "Show this text and exit"
  | architecture => "Target architecture, amd64 where none is named"
  | wordSize => "Pointer width in bytes, 4 or 8; comes before that of the architecture"
  | structName => "Only report the struct with this name"
  | cursor => "Only report the struct at this position"
  | onlyOptimizable => "Only report structs that would shrink in another field order"
  | failOnOptimizable => "Exit with status 2 if a reported struct would shrink"
  | allNames => "Count every name of a field list, not only the first"
  | json => "Write the report as JSON"
  | logDirectory => "Also write a log file to this directory"
  | verbose => "Show detailed log lines"

/-- The lines that describe an option. -/
def helpLine (s : Switch) : Text :=
  Text.concat ["  ", Text.joinWith ", " s.spellings, s.placeholder, "\n      ", s.purpose]

end Switch

/-- The help text. -/
def helpText : Text :=
  Text.joinWith ['\n'] <|
    [Text.concat ["usage: ", Start.programName, " [options] FILE [FILE ...]"], [],
      "Report the memory layout of Go structs: sizes, offsets and padding of their fields,",
      "and whether another field order would make them smaller.", [], "options:"] ++
      Switch.all.map Switch.helpLine

end GoLayout.Command
