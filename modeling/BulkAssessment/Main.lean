import BulkAssessment.Config

/-!
# The command line

The command settles the settings of the service and prints them, or says what is wrong
with them. An option wins over the variable of the environment with the same meaning,
and either wins over the configuration file, which is read from the standard input.
-/

namespace BulkAssessment

namespace Settings

/-- Take the value of an option; of several options with one meaning the last counts. -/
def withOption? (s : Settings) (option value : String) : Option Settings :=
  if option ∈ ["--database", "-d"] then some { s with databasePath := some value }
  else if option ∈ ["--bind", "-b"] then some { s with bindAddress := some value }
  else if option = "--app-url" then some { s with appUrl := some value }
  else .none

/-- The settings that options with their values ask for. -/
def ofArguments? : Settings → List String → Option Settings
  | s, [] => some s
  | s, option :: value :: rest => (s.withOption? option value).bind fun s => s.ofArguments? rest
  | _, [_] => .none

end Settings

/-- What is printed about settings that can be used. -/
def Config.report (c : Config) (address : SocketAddress) : String :=
  Text.join "\n"
    ["Database path: " ++ c.databasePath, "Application URL: " ++ c.appUrl,
      "Log level: " ++ c.logLevel, "Address: http://" ++ address.text]

/-- What is printed about settings that cannot be used. -/
def ConfigError.message : ConfigError → String
  | unreadable => "The configuration file is no text."
  | malformed => "The configuration file cannot be parsed."
  | badAddress text => ConfigError.addressMessage text

/-- The report on the settings of a file and those that win over them. -/
def settle (directories : Directories) (overrides : Settings) (file : ByteArray) :
    Except ConfigError String := do
  let c := (overrides.orElse (← ConfigFile.read file)).resolve directories
  let address ← Config.address c.bindAddress
  pure (c.report address)

namespace CommandLine

/-- The rest of an input, read in a bounded number of chunks. -/
def readAll (input : IO.FS.Stream) : Nat → ByteArray → IO ByteArray
  | 0, acc => pure acc
  | chunks + 1, acc => do
    let chunk ← input.read 65536
    if chunk.isEmpty then pure acc else readAll input chunks (acc ++ chunk)

/-- The settings in the environment. -/
def environment : IO Settings := do
  pure {
    databasePath := ← IO.getEnv "GGRC_DATABASE"
    bindAddress := ← IO.getEnv "GGRC_BIND"
    appUrl := ← IO.getEnv "GGRC_APP_URL"
    logLevel := none }

/-- The directories of the user. -/
def directories : IO Directories := do
  let home := (← IO.getEnv "HOME").getD ""
  pure {
    config := (← IO.getEnv "XDG_CONFIG_HOME").getD (home ++ "/.config")
    data := (← IO.getEnv "XDG_DATA_HOME").getD (home ++ "/.local/share") }

end CommandLine

end BulkAssessment

open BulkAssessment in
/-- Print the settings, or fail. -/
def main (arguments : List String) : IO UInt32 := do
  match Settings.none.ofArguments? arguments with
  | none =>
    IO.eprintln "Options: --database PATH, --bind ADDRESS, --app-url URL"
    pure 2
  | some options =>
    let file ← CommandLine.readAll (← IO.getStdin) 65536 ByteArray.empty
    let overrides := options.orElse (← CommandLine.environment)
    match settle (← CommandLine.directories) overrides file with
    | .ok report => IO.println report; pure 0
    | .error e => IO.eprintln e.message; pure 1
