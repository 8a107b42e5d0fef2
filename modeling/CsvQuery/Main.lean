/-
The executable.

Everything is decided by `Program`, `Session` and `Config`; here the files
they ask about are read, what they report is printed, and the configuration is
saved.
-/
import CsvQuery.CommandLine.Program

namespace CsvQuery
namespace Executable

/-- The variables that the program looks at. -/
def settingNames : List String :=
  ["HOME", "CLICOLOR_FORCE", "CSVQL_FORMAT", "CSVQL_QUERY_TIMEOUT_MS", "CSVQL_MAX_ROWS",
    "CSVQL_CONFIG"]

/-- The environment, as far as the program looks at it. -/
def environment : IO (String → Option String) := do
  let values ← settingNames.mapM fun name => do return (name, ← IO.getEnv name)
  return fun name => (values.lookup name).join

/-- A failure that the system reports. -/
def faultOf : IO.Error → IoFault
  | .noFileOrDirectory .. => .notFound
  | .permissionDenied .. => .denied
  | .alreadyExists .. => .alreadyThere
  | .inappropriateType _ code _ => if code = 21 then .isDirectory else .notDirectory
  | .invalidArgument _ code _ => if code = 36 then .nameTooLong else .other "Invalid argument"
  | e => .other (toString e)

/-- The bytes of an open file behind those read so far. -/
partial def readOn (file : IO.FS.Handle) (bytes : List UInt8) : IO Entry := do
  match ← (file.read 65536).toBaseIO with
  | .error e => return .broken bytes (faultOf e)
  | .ok more => if more.isEmpty then return .file bytes else readOn file (bytes ++ more.toList)

/-- What a file has in it, as far as it can be read. -/
def readFile (path : Path) : IO Entry := do
  match ← (IO.FS.Handle.mk path.text .read).toBaseIO with
  | .error e => return .locked (faultOf e)
  | .ok file => readOn file []

def entryAt (path : Path) : IO (Except IoFault Entry) := do
  match path.refusal? with
  | some fault => return .error fault
  | none =>
    try
      let place ← IO.FS.realPath path.text
      match (← place.metadata).type with
      | .dir => return .ok .directory
      | .file => return .ok (← readFile path)
      | _ => return .ok .device
    catch e => return .error (faultOf e)

def filesAt (paths : List Path) : IO Files := do
  let entries ← paths.mapM fun path => do return (path, ← entryAt path)
  return fun path => (entries.lookup path).getD (.error .notFound)

/-- Print reports on a query that began at the given time. -/
def print (began : Nat) (reports : List Report) : IO Unit := do
  let millis := (← IO.monoMsNow) - began
  for report in reports do
    IO.print report.onOut
    IO.eprint (report.onErr millis)
  (← IO.getStdout).flush

/-- Make a path a directory, with those on the way that are missing. -/
def makeDirectory (path : Path) : IO Unit := do
  try IO.FS.createDir path.text
  catch e =>
    match faultOf e, ← entryAt path with
    | .notFound, _ => IO.FS.createDirAll path.text
    | _, .ok .directory => return ()
    | _, _ => throw e

def save (session : Session) : IO (Except SaveError Unit) := do
  try
    makeDirectory (Config.directory session.home)
    if session.config.fits then
      IO.FS.writeFile (Config.path session.home).text session.config.text
      return .ok ()
    else return .error .tooLarge
  catch e => return .error (.io (faultOf e))

def leave (session : Session) : IO Program.Ended := do
  try makeDirectory (Config.directory session.home)
  catch e => return Program.homeless (faultOf e)
  try
    if session.history.unsaved then
      IO.FS.writeFile (History.path session.home).text session.history.text
    return Program.left
  catch e => return Program.unsaved (faultOf e)

/-- Read the bytes of a line with its line end. -/
partial def lineFrom (stream : IO.FS.Stream) (line : List UInt8) : IO (List UInt8) := do
  match (← stream.read 1).toList with
  | [] => return line.reverse
  | b :: _ => if b = 10 then return (b :: line).reverse else lineFrom stream (b :: line)

/-- Carry on a session until the user leaves or the input ends. -/
partial def converse (stream : IO.FS.Stream) (session : Session) : IO Session := do
  let typed := Typed.ofBytes (← lineFrom stream [])
  match typed.lines with
  | [] =>
    print 0 [Session.atEnd typed.garbled]
    return session
  | line :: _ =>
    let began ← IO.monoMsNow
    let files ← filesAt (Program.pathsIn (String.ofList session.pending ++ line))
    let (session, reaction) := session.feed files line
    match reaction with
    | none => pure ()
    | some (.prints reports) => print began (session.closing reports)
    | some .saves =>
      let result ← save session
      print began (session.closing [session.saveReport result])
    if session.closed then return session else converse stream session

/-- Carry out what the program has set out to do. -/
def carryOut : Program.Start → IO UInt32
  | .ends ended => do
    print 0 ended.reports
    return ended.status.toUInt32
  | .answers query config style => do
    let began ← IO.monoMsNow
    let files ← filesAt (Program.pathsIn query)
    let ended := Program.answer files query config style
    print began ended.reports
    return ended.status.toUInt32
  | .converses session => do
    print 0 Session.greeting
    let ended ← leave (← converse (← IO.getStdin) session)
    print 0 ended.reports
    return ended.status.toUInt32

end Executable
end CsvQuery

open CsvQuery in
def main (args : List String) : IO UInt32 := do
  let env ← Executable.environment
  let home := Program.home env
  let given := (Arguments.read args env).toOption.bind Arguments.config
  let files ← Executable.filesAt [given.getD (Config.path home), History.path home]
  Executable.carryOut (Program.start args env files)
