import GoLayout.Text.Basic

/-! # Log records

    What the program reports about its work is data: a list of records, each with the part
    of the program that speaks, a level and a message. Where records go is decided
    elsewhere. -/

namespace GoLayout.Log

/-- How important a record is. -/
inductive Level where
  | debug
  | info
  | warning
  | error
  | critical
  deriving Repr, DecidableEq

namespace Level

/-- The rank of a level; a handler takes the levels of at least its own rank. -/
def rank : Level → Nat
  | debug => 10
  | info => 20
  | warning => 30
  | error => 40
  | critical => 50

/-- The name of a level in log lines. -/
def name : Level → Text
  | debug => "DEBUG"
  | info => "INFO"
  | warning => "WARNING"
  | error => "ERROR"
  | critical => "CRITICAL"

/-- The level with a given name. -/
def ofName? (t : Text) : Option Level :=
  [debug, info, warning, error, critical].find? (·.name = t)

end Level

/-- The part of the program that a record comes from. -/
inductive Source where
  | command
  | analysis
  | parsing
  | fieldLines
  | packing
  | sizing
  | logSetup
  | settingsFile
  | custom (name : Text)
  deriving Repr, DecidableEq

/-- The name of a source in log files. -/
def Source.name : Source → Text
  | command => "go_struct_analyzer.main"
  | analysis => "go_struct_analyzer.application.struct_analyzer"
  | parsing => "go_struct_analyzer.domain.services.parsing.declaration_parser"
  | fieldLines => "go_struct_analyzer.domain.services.parsing.field_line_classifier"
  | packing => "go_struct_analyzer.domain.services.layout.layout_engine"
  | sizing => "go_struct_analyzer.domain.services.layout.type_sizer"
  | logSetup => "go_struct_analyzer.infrastructure.logging.logger_setup"
  | settingsFile => "dotenv.main"
  | custom name => name

/-- One thing that was reported. -/
structure Record where
  source : Source
  level : Level
  message : Text
  deriving Repr, DecidableEq

namespace Record

/-- The line of a record on the console. -/
def consoleLine (r : Record) : Text := Text.concat [r.level.name, ": ", r.message]

/-- The line of a record in a log file, written at a given time. -/
def fileLine (time : Text) (r : Record) : Text :=
  Text.concat [time, " - ", r.source.name, " - ", r.level.name, " - ", r.message]

end Record

/-- A record for those who follow the work in detail. -/
def Record.debug (source : Source) (parts : List Text) : Record :=
  ⟨source, .debug, Text.concat parts⟩

end GoLayout.Log
