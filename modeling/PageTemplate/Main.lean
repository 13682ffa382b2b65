import PageTemplate.Program

/-! The program as a command: it looks at the paths that the program may read, runs it and
puts out what it leaves behind. -/
namespace PageTemplate

def fileOfError : IO.Error → File
  | .noFileOrDirectory .. => .absent .notFound
  | .inappropriateType _ 20 _ => .absent .notDirectory
  | .inappropriateType _ 21 _ => .absent .isDirectory
  | .invalidArgument _ 36 _ => .absent .nameTooLong
  | .permissionDenied _ code details =>
    .unreadable (.other (details ++ " (os error " ++ toString code ++ ")"))
  | e => .unreadable (.other (toString e))

/-- Looks at a path. What is read below `/dev` comes from a device. -/
def lookAt (path : Text) : IO (Text × File) := do
  try
    let content ← IO.FS.readBinFile (String.ofList path)
    return (path, if "/dev/".toList.isPrefixOf path then .device content else .bytes content)
  catch e =>
    return (path, fileOfError e)

/-- The directory of the user's settings: the one that is named, if its path is absolute, or
else the usual one in the home directory. -/
def settingsHomeOf (named home : Option String) : Option String :=
  match named with
  | some dir => if dir.startsWith "/" then some dir else home.map (· ++ "/.config")
  | none => home.map (· ++ "/.config")

/-- The paths that a command line makes the program look at; a call for help needs none. -/
def pathsOf (argv : List Text) (settingsPath settingsHome : Option Text) : List Text :=
  match Arguments.parse argv with
  | .error _ => []
  | .ok a =>
    if a.help then []
    else
      match a.settings with
      | .skip => a.templates
      | .file path => path :: a.templates
      | .search => Program.settingsPaths settingsPath settingsHome ++ a.templates

/-- What the log shows of a bad line of the settings, without the time; nothing if warnings are
below its level. -/
def logLine (level : Option String) (e : LineError) : String :=
  if level = some "off" ∨ level = some "error" then ""
  else " WARN smartscript::config: ignoring config line line=" ++ toString e.line ++ " error=" ++
    e.cause.message ++ "\n"

end PageTemplate

open PageTemplate in
def main (argv : List String) : IO UInt32 := do
  let argv := argv.map String.toList
  let settingsPath := (← IO.getEnv "SMARTSCRIPT_RC").map String.toList
  let home := settingsHomeOf (← IO.getEnv "XDG_CONFIG_HOME") (← IO.getEnv "HOME")
  let settingsHome := home.map String.toList
  let paths := pathsOf argv settingsPath settingsHome
  let files ← paths.mapM lookAt
  let input ← if paths.any Program.isInput then (← IO.getStdin).readBinToEnd else pure .empty
  let world : World :=
    { files := fun path => ((files.find? (·.1 = path)).map (·.2)).getD (.absent .notFound)
      input := input
      settingsPath := settingsPath
      settingsHome := settingsHome }
  let level ← IO.getEnv "SMARTSCRIPT_LOG"
  match Program.run turnLimit world argv with
  | none => throw (.userError "a loop does not end")
  | some outcome =>
    let stdout ← IO.getStdout
    stdout.write ⟨outcome.output⟩
    stdout.flush
    let stderr ← IO.getStderr
    stderr.putStr (String.join (outcome.warnings.map (logLine level)))
    stderr.putStr outcome.errors
    return outcome.status
