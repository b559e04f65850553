/-!
# Log records

The tools log what they do under the name of the part that does it. A record is printed if its level
reaches the level that was asked for.
-/

namespace ChunkMachine

/-- How important a record is. -/
inductive Level where
  | debug
  | info
  | warning
deriving DecidableEq

/-- The name of a level. -/
def Level.name : Level → String
  | .debug => "DEBUG"
  | .info => "INFO"
  | .warning => "WARNING"

/-- The rank of a level. -/
def Level.rank : Level → Nat
  | .debug => 10
  | .info => 20
  | .warning => 30

/-- A log record. -/
structure LogRecord where
  level : Level
  /-- The part of the program that speaks. -/
  source : String
  message : String
deriving DecidableEq

/-- The line of a record. The time stands as the word `TIME`. -/
def LogRecord.line (r : LogRecord) : String :=
  "TIME " ++ r.level.name ++ " " ++ r.source ++ ": " ++ r.message

/-! ### Asking for a level -/

/-- Why what was asked for cannot serve as a level. -/
inductive LevelFault where
  /-- The value was dropped. -/
  | blank
  /-- It names the format of the records. -/
  | recordFormat
  /-- It names the styles that a format may be written in. -/
  | formatStyles
deriving DecidableEq

/-- The wording of a level fault. -/
def LevelFault.message : LevelFault → String
  | .blank => "'list' object has no attribute 'upper'"
  | .recordFormat => "Unknown level: '%(levelname)s:%(name)s:%(message)s'"
  | .formatStyles =>
    "Level not an integer or a valid string: \x7b" ++
      "'%': (<class 'logging.PercentStyle'>, '%(levelname)s:%(name)s:%(message)s'), " ++
      "'\x7b': (<class 'logging.StrFormatStyle'>, " ++
      "'\x7blevelname\x7d:\x7bname\x7d:\x7bmessage\x7d'), " ++
      "'$': (<class 'logging.StringTemplateStyle'>, " ++
      "'$\x7blevelname\x7d:$\x7bname\x7d:$\x7bmessage\x7d')\x7d"

/-- The capitals of a letter of a level name. Some letters beyond ASCII have capitals within it. -/
def levelCapitals (c : Char) : List Char :=
  if c.toNat = 0x131 then ['I']
  else if c.toNat = 0x17F then ['S']
  else if c.toNat = 0xFB05 ∨ c.toNat = 0xFB06 then ['S', 'T']
  else [c.toUpper]

/-- The rank that a name asks for, in capitals or not; a name that means nothing asks for the default.
The log's own settings go by names of the same kind, but are no levels. -/
def rankOfName (default : Level) (name : String) : Except LevelFault Nat :=
  match String.ofList (name.toList.flatMap levelCapitals) with
  | "CRITICAL" | "FATAL" => .ok 50
  | "ERROR" => .ok 40
  | "WARN" | "WARNING" => .ok 30
  | "INFO" => .ok 20
  | "DEBUG" => .ok 10
  | "NOTSET" => .ok 0
  | "BASIC_FORMAT" => .error .recordFormat
  | "_STYLES" => .error .formatStyles
  | _ => .ok default.rank

/-- The lines of the records that reach a rank. -/
def logLines (rank : Nat) (records : List LogRecord) : List String :=
  (records.filter fun r => rank ≤ r.level.rank).map LogRecord.line

end ChunkMachine
