import Marreta.Foundation.Run

namespace Marreta

/-! Errors of the engine.  `httpResponse`, `httpError` and `nackSignal` are not
failures: they are how `reply`, `fail`, guards and `nack` stop a handler. -/

inductive ErrorCode where
  | raiseError | dbError | uniqueViolation | queueError | cacheError
  | httpClientError | typeError | referenceError | arityError
  | arithmeticError | ioError | configError | infrastructureError
  | runtimeError | invalidIdentifier | unknownColumn
deriving DecidableEq

namespace ErrorCode

def asStr : ErrorCode → String
  | .raiseError => "raise_error"
  | .dbError => "db_error"
  | .uniqueViolation => "unique_violation"
  | .queueError => "queue_error"
  | .cacheError => "cache_error"
  | .httpClientError => "http_client_error"
  | .typeError => "type_error"
  | .referenceError => "reference_error"
  | .arityError => "arity_error"
  | .arithmeticError => "arithmetic_error"
  | .ioError => "io_error"
  | .configError => "config_error"
  | .infrastructureError => "infrastructure_error"
  | .runtimeError => "runtime_error"
  | .invalidIdentifier => "invalid_identifier"
  | .unknownColumn => "unknown_column"

end ErrorCode

inductive MarretaError where
  | unexpectedCharacter (char : Char) (line column : Nat)
  | unterminatedString (line column : Nat)
  | invalidIndentation (line expected got : Nat)
  | unexpectedIndentation (line : Nat)
  | invalidNumber (lexeme : String) (line column : Nat)
  | unexpectedToken (expected gotLexeme : String) (line column : Nat)
  | unexpectedEndOfInput (expected : String)
  | reservedWord (word : String) (line column : Nat)
  | undefinedVariable (name : String) (line column : Nat)
  | undefinedTask (name : String) (line column : Nat)
  | typeError (message : String) (line column : Nat)
  | divisionByZero (line column : Nat)
  | wrongArity (taskName : String) (expected got line column : Nat)
  | notCallable (name : String) (line column : Nat)
  | runtimeError (message : String) (line column : Nat)
  | propertyNotFound (objectType property : String) (line column : Nat)
  | httpError (statusCode : Int64) (message : String)
  | httpResponse (statusCode : UInt16) (body contentType : String)
      (extraHeaders : List (String × String)) (isError : Bool)
  | routeConflict (verb pathA pathB : String) (line column : Nat)
  | exportConflict (name fileA fileB : String)
  | incompatibleRuntime (required actual : String)
  | circularSchemaReference (cycle : String)
  | invalidSchemaDefinition (schemaName message : String)
  | invalidPersistentSchemaReference
      (schemaName fieldName targetSchema : String)
  | invalidPersistentSchemaDefinition (schemaName message : String)
  | raiseError (message : String)
  | dbError (message operation : String)
  | uniqueConstraintViolation (message operation : String)
  | dbIdentifierError (code : ErrorCode) (message : String)
  | nackSignal (requeue : Bool)
  | queueError (message operation : String)
  | cacheError (message operation : String)
  | httpClientError (message operation : String)
  | fileNotFound (path : String)
  | ioError (message : String)
deriving DecidableEq

def reservedWordRole (word : String) : Option String :=
  match word with
  | "doc" => some "the document database namespace"
  | "feature" => some "the feature-flag namespace"
  | "env" => some "the environment accessor"
  | "db" => some "the database namespace"
  | "queue" => some "the queue namespace"
  | "topic" => some "the topic namespace"
  | "cache" => some "the cache namespace"
  | "fs" => some "the filesystem namespace"
  | "json" => some "the JSON namespace"
  | "base64" => some "the base64 namespace"
  | "uuid" => some "the UUID namespace"
  | "log" => some "the log namespace"
  | "time" => some "the time namespace"
  | "math" => some "the math namespace"
  | "http_client" => some "the HTTP client namespace"
  | _ => none

def reservedWordMessage (word : String) : String :=
  match reservedWordRole word with
  | some role =>
      "'" ++ word ++ "' is a reserved word (" ++ role ++ "); rename the variable."
  | none => "'" ++ word ++ "' is a reserved word; rename the variable."

namespace MarretaError

def errorCode : MarretaError → ErrorCode
  | .raiseError .. => .raiseError
  | .dbError .. => .dbError
  | .uniqueConstraintViolation .. => .uniqueViolation
  | .dbIdentifierError code _ => code
  | .nackSignal .. | .queueError .. => .queueError
  | .cacheError .. => .cacheError
  | .httpClientError .. => .httpClientError
  | .typeError .. => .typeError
  | .runtimeError .. => .runtimeError
  | .undefinedVariable .. | .undefinedTask .. | .propertyNotFound ..
  | .notCallable .. => .referenceError
  | .wrongArity .. => .arityError
  | .divisionByZero .. => .arithmeticError
  | .ioError .. | .fileNotFound .. => .ioError
  | .routeConflict .. | .exportConflict .. | .circularSchemaReference ..
  | .incompatibleRuntime .. | .invalidPersistentSchemaReference ..
  | .invalidSchemaDefinition .. | .invalidPersistentSchemaDefinition .. =>
      .configError
  | _ => .runtimeError

def semanticCode (error : MarretaError) : String :=
  error.errorCode.asStr

def operationName : MarretaError → String
  | .raiseError .. => "raise"
  | .dbError _ operation => operation
  | .uniqueConstraintViolation _ operation => operation
  | .nackSignal .. => "nack"
  | .queueError _ operation => operation
  | .cacheError _ operation => operation
  | .httpClientError _ operation => operation
  | .undefinedVariable name .. => "lookup '" ++ name ++ "'"
  | .undefinedTask name .. => "call '" ++ name ++ "'"
  | .propertyNotFound _ property .. => "access '." ++ property ++ "'"
  | .wrongArity taskName .. => "call '" ++ taskName ++ "'"
  | .divisionByZero .. => "arithmetic"
  | _ => "interpreter"

/-- The `Display` text of an error. -/
def display : MarretaError → String
  | .unexpectedCharacter char line column =>
      located line column ("unexpected character '" ++ char.toString ++ "'")
  | .unterminatedString line column =>
      located line column "unterminated string literal"
  | .invalidIndentation line expected got =>
      "Error at line " ++ toString line ++ ": invalid indentation (expected " ++
        toString expected ++ " spaces, got " ++ toString got ++ ")"
  | .unexpectedIndentation line =>
      "Error at line " ++ toString line ++
        ": invalid indentation (this line is indented deeper than expected)"
  | .invalidNumber lexeme line column =>
      located line column ("invalid number '" ++ lexeme ++ "'")
  | .unexpectedToken expected gotLexeme line column =>
      located line column ("expected " ++ expected ++ ", got '" ++ gotLexeme ++ "'")
  | .unexpectedEndOfInput expected =>
      "Error: unexpected end of input, expected " ++ expected
  | .reservedWord word line column =>
      located line column (reservedWordMessage word)
  | .undefinedVariable name line column =>
      located line column ("variable '" ++ name ++ "' is not defined")
  | .undefinedTask name line column =>
      located line column ("task '" ++ name ++ "' is not defined")
  | .typeError message line column => located line column message
  | .divisionByZero line column => located line column "division by zero"
  | .wrongArity taskName expected got line column =>
      located line column ("task '" ++ taskName ++ "' expects " ++
        toString expected ++ " argument(s), got " ++ toString got)
  | .notCallable name line column =>
      located line column ("'" ++ name ++ "' is not callable")
  | .runtimeError message line column => located line column message
  | .propertyNotFound objectType property line column =>
      located line column
        ("property '" ++ property ++ "' not found on " ++ objectType)
  | .httpError statusCode message =>
      "HTTP " ++ toString statusCode ++ ": " ++ message
  | .httpResponse statusCode _ contentType _ isError =>
      if isError then "HTTP error " ++ toString statusCode
      else "HTTP response " ++ toString statusCode ++ " (" ++ contentType ++ ")"
  | .routeConflict verb pathA pathB line column =>
      located line column ("route conflict — " ++ verb ++ " \"" ++ pathA ++
        "\" and " ++ verb ++ " \"" ++ pathB ++ "\" match the same URL pattern." ++
        "\n  Use distinct path segments or different HTTP verbs.")
  | .exportConflict name fileA fileB =>
      "Export conflict: '" ++ name ++ "' is already exported by '" ++ fileA ++
        "', redeclared in '" ++ fileB ++ "'"
  | .incompatibleRuntime required actual =>
      "this project requires marreta runtime " ++ required ++
        ", but you are running " ++ actual
  | .circularSchemaReference cycle =>
      "Circular schema reference detected: " ++ cycle ++
        ". The server cannot start."
  | .invalidSchemaDefinition schemaName message =>
      "Invalid schema '" ++ schemaName ++ "': " ++ message
  | .invalidPersistentSchemaReference schemaName fieldName targetSchema =>
      "Persistent schema '" ++ schemaName ++ "' field '" ++ fieldName ++
        "' references non-persistent schema '" ++ targetSchema ++ "'"
  | .invalidPersistentSchemaDefinition schemaName message =>
      "Invalid persistent schema '" ++ schemaName ++ "': " ++ message
  | .raiseError message => "raise: " ++ message
  | .dbError message _ => "database error: " ++ message
  | .uniqueConstraintViolation message _ =>
      "unique constraint violation: " ++ message
  | .dbIdentifierError _ message => message
  | .nackSignal requeue => "nack(requeue=" ++ toString requeue ++ ")"
  | .queueError message _ => "queue error: " ++ message
  | .cacheError message _ => "cache error: " ++ message
  | .httpClientError message _ => "http client error: " ++ message
  | .fileNotFound path => "Error: file not found '" ++ path ++ "'"
  | .ioError message => "Error: " ++ message
where
  located (line column : Nat) (message : String) : String :=
    "Error at " ++ toString line ++ ":" ++ toString column ++ ": " ++ message

/-- The text a rescue handler reads as `error.message`. -/
def displayMessage : MarretaError → String
  | .raiseError message => message
  | .dbError message _ => message
  | .uniqueConstraintViolation message _ => message
  | .dbIdentifierError _ message => message
  | .nackSignal requeue => "nack(requeue=" ++ toString requeue ++ ")"
  | .queueError message _ => message
  | .cacheError message _ => message
  | .httpClientError message _ => message
  | .typeError message .. => message
  | .runtimeError message .. => message
  | .undefinedVariable name .. => "variable '" ++ name ++ "' is not defined"
  | .undefinedTask name .. => "task '" ++ name ++ "' is not defined"
  | .divisionByZero .. => "division by zero"
  | .wrongArity taskName expected got .. =>
      "task '" ++ taskName ++ "' expects " ++ toString expected ++
        " argument(s), got " ++ toString got
  | .propertyNotFound objectType property .. =>
      "property '" ++ property ++ "' not found on " ++ objectType
  | .notCallable name .. => "'" ++ name ++ "' is not callable — expected a task"
  | .httpError _ message => message
  | .fileNotFound path => "file not found: " ++ path
  | .ioError message => message
  | .routeConflict _ pathA .. => "route conflict: " ++ pathA
  | .exportConflict name .. =>
      "export conflict: '" ++ name ++ "' defined more than once"
  | .circularSchemaReference cycle =>
      "circular schema reference involving '" ++ cycle ++ "'"
  | .invalidSchemaDefinition schemaName message =>
      "invalid schema '" ++ schemaName ++ "': " ++ message
  | .invalidPersistentSchemaReference schemaName fieldName targetSchema =>
      "persistent schema '" ++ schemaName ++ "' field '" ++ fieldName ++
        "' references non-persistent schema '" ++ targetSchema ++ "'"
  | .invalidPersistentSchemaDefinition schemaName message =>
      "invalid persistent schema '" ++ schemaName ++ "': " ++ message
  | .unexpectedToken expected gotLexeme .. =>
      "unexpected token '" ++ gotLexeme ++ "', expected " ++ expected
  | .unexpectedCharacter char .. =>
      "unexpected character '" ++ char.toString ++ "'"
  | .unterminatedString .. => "unterminated string literal"
  | .invalidIndentation .. => "invalid indentation"
  | .unexpectedIndentation .. => "invalid indentation"
  | .invalidNumber lexeme .. => "invalid number literal: " ++ lexeme
  | .unexpectedEndOfInput expected =>
      "unexpected end of input, expected " ++ expected
  | .reservedWord word .. => reservedWordMessage word
  | error => error.display

end MarretaError

/-- Places where the program panics: the tokenizer reading past the end of its
text, the interpreter taking a transaction from an empty holder, and the value
library. -/
inductive Panic where
  | lexer | emptyHolder | library
deriving DecidableEq

abbrev Fault := Foundation.Stop MarretaError Panic

end Marreta
