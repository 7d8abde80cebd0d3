import BulkAssessment.SocketAddress
import BulkAssessment.Text.Blank
import BulkAssessment.Toml.Document

/-!
# Configuration

A setting comes from an override, else from the configuration file, else from a
default. The file is optional, and every key in it is; keys that are not known do not
matter. A file that exists has to be a TOML document with texts for the known keys.
-/

namespace BulkAssessment

/-- Why a configuration cannot be used. -/
inductive ConfigError where
  /-- The file is no UTF-8 text. -/
  | unreadable
  /-- The file is no TOML document, or a known key has a value of the wrong type. -/
  | malformed
  /-- The text is no address to listen on. -/
  | badAddress (text : String)
  deriving DecidableEq, Repr

/-- The text of a bad address. -/
def ConfigError.addressMessage (text : String) : String :=
  "Configuration error: Invalid bind address '" ++ text ++ "': invalid socket address syntax"

/-- The settings as far as one source gives them. -/
structure Settings where
  databasePath : Option String
  bindAddress : Option String
  appUrl : Option String
  logLevel : Option String
  deriving DecidableEq, Repr

/-- The settings of the service. -/
structure Config where
  databasePath : String
  bindAddress : String
  appUrl : String
  logLevel : String
  deriving DecidableEq, Repr

/-- The directories of the user. -/
structure Directories where
  config : String
  data : String

namespace Directories

/-- Where the configuration file is looked for. -/
def configFile (d : Directories) : String := d.config ++ "/ggrc/config.toml"

/-- Where the service keeps its data. -/
def dataFolder (d : Directories) : String := d.data ++ "/ggrc"

end Directories

namespace Settings

/-- No settings. -/
def none : Settings := ⟨.none, .none, .none, .none⟩

/-- The settings of two sources, the first one winning. -/
def orElse (s t : Settings) : Settings where
  databasePath := s.databasePath <|> t.databasePath
  bindAddress := s.bindAddress <|> t.bindAddress
  appUrl := s.appUrl <|> t.appUrl
  logLevel := s.logLevel <|> t.logLevel

/-- The settings with defaults for those that are missing. -/
def resolve (s : Settings) (d : Directories) : Config where
  databasePath := s.databasePath.getD (d.dataFolder ++ "/ggrc.db")
  bindAddress := s.bindAddress.getD "127.0.0.1:5730"
  appUrl := Text.trimEndOf '/' (s.appUrl.getD "http://localhost:8080")
  logLevel := s.logLevel.getD "info"

end Settings

namespace ConfigFile

/-- A text, if the key is there. -/
def text? : Option Toml.Value → Except ConfigError (Option String)
  | none => .ok none
  | some (.string s) => .ok (some s)
  | some _ => .error .malformed

/-- The log level in the logging section, which is a table, or a list that starts with
the level. -/
def logLevel? : Option Toml.Value → Except ConfigError (Option String)
  | none => .ok none
  | some (.table entries) => text? (Keyed.get? "level" entries)
  | some (.array items) => text? items.head?
  | some .date => .ok none
  | some _ => .error .malformed

/-- The settings in a file. -/
def parse (content : String) : Except ConfigError Settings :=
  match Toml.parse? content with
  | none => .error .malformed
  | some entries => do
    pure {
      databasePath := ← text? (Keyed.get? "database_path" entries)
      bindAddress := ← text? (Keyed.get? "bind_address" entries)
      appUrl := ← text? (Keyed.get? "app_url" entries)
      logLevel := ← logLevel? (Keyed.get? "logging" entries) }

/-- The settings in the bytes of a file. -/
def read (bytes : ByteArray) : Except ConfigError Settings :=
  match String.fromUTF8? bytes with
  | none => .error .unreadable
  | some content => parse content

end ConfigFile

/-- The address that the service is to listen on. -/
def Config.address (bindAddress : String) : Except ConfigError SocketAddress :=
  match SocketAddress.parse? bindAddress with
  | some a => .ok a
  | none => .error (.badAddress bindAddress)

end BulkAssessment
