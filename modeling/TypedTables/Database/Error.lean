import TypedTables.Text.Utf8
/-!
# TypedTables — database errors

What can go wrong in a local database: the engine refuses a statement, a
text it stores is not readable, or a schema cannot be created or dropped.
-/

namespace TypedTables

/-- Why the engine refuses a statement. -/
inductive EngineFault
  /-- The statement cannot be read. -/
  | syntaxError
  | noSuchTable (name : String)
  | noSuchColumn (name : String)
  /-- A table or an index of this name is there already. -/
  | nameTaken (name : String)
  /-- A row breaks a key or a unique constraint. -/
  | notUnique
  /-- A row leaves a column empty that may not be. -/
  | emptyColumn
  /-- A row refers to a row that is not there. -/
  | brokenReference
  /-- A foreign key refers to a column that does not tell rows apart. -/
  | wrongReference
  /-- A table is defined with two keys, with a column twice, or with too many columns. -/
  | invalidDefinition
  /-- More than one column has the name. -/
  | ambiguousColumn (name : String)
  /-- A value does not have the type its column needs. -/
  | wrongType
  /-- The number of arguments is not the number of placeholders. -/
  | wrongArgumentCount
  /-- A text that is asked for has no characters. -/
  | unreadableText (fault : Utf8Fault)
  /-- All numbers for rows have been given out. -/
  | full
  /-- What is opened as a database is none. -/
  | notDatabase
  /-- A database can be neither opened nor made. -/
  | cannotOpen
  /-- The engine has no meaning for the statement. -/
  | unsupported
deriving Repr, DecidableEq

/-- What can go wrong in a local database. -/
inductive DatabaseError
  /-- The engine refuses a statement. -/
  | engine (fault : EngineFault)
  /-- A stored text has no characters. -/
  | conversion (detail : String)
  /-- The tables of a schema cannot be created. -/
  | notCreated (fault : EngineFault)
  /-- The tables of a schema cannot be dropped. -/
  | notDropped (fault : EngineFault)
  /-- The name of a table is not an identifier. -/
  | invalidIdentifier (name : String)
deriving Repr, DecidableEq

/-- The message for an invalid identifier. -/
def DatabaseError.invalidIdentifierMessage (name : String) : String :=
  "invalid identifier '" ++ name ++
    "': must contain only alphanumeric characters and underscores"

/-- The fault in the words of the engine. -/
def EngineFault.message : EngineFault → String
  | .syntaxError => "syntax error"
  | .noSuchTable name => "no such table: " ++ name
  | .noSuchColumn name => "no such column: " ++ name
  | .nameTaken name => "name is already in use: " ++ name
  | .notUnique => "UNIQUE constraint failed"
  | .emptyColumn => "NOT NULL constraint failed"
  | .brokenReference => "FOREIGN KEY constraint failed"
  | .wrongReference => "foreign key mismatch"
  | .invalidDefinition => "invalid table definition"
  | .ambiguousColumn name => "ambiguous column name: " ++ name
  | .wrongType => "datatype mismatch"
  | .wrongArgumentCount => "wrong number of arguments"
  | .unreadableText fault => fault.message
  | .full => "database is full"
  | .notDatabase => "file is not a database"
  | .cannotOpen => "unable to open database file"
  | .unsupported => "unsupported statement"

def DatabaseError.message : DatabaseError → String
  | .engine fault => "database error: " ++ fault.message
  | .conversion detail => "conversion error: " ++ detail
  | .notCreated fault => "migration error: failed to create tables: " ++ fault.message
  | .notDropped fault => "migration error: failed to drop tables: " ++ fault.message
  | .invalidIdentifier name => invalidIdentifierMessage name

end TypedTables
