import SqlScript.File.Reading
import SqlScript.Registry
import SqlScript.Yaml.Cursor

/-!
# Requests that cannot be carried out

What is found out before any script is read: the vendor is unknown, the settings cannot be read or
make no sense, or a vendor is described wrongly.
-/

namespace SqlScript

/-- What is wrong with a settings file. -/
inductive SettingsFault
  | malformed (fault : Yaml.Fault)
  | wrongType
  | unknownKey (key : String)
  | repeatedKey (key : String)
  | missingKey (key : String)
deriving Repr, DecidableEq

def SettingsFault.message : SettingsFault → String
  | malformed fault => fault.message
  | wrongType => "a value is not of the right type"
  | unknownKey key => "unknown key '" ++ key ++ "'"
  | repeatedKey key => "repeated key '" ++ key ++ "'"
  | missingKey key => "missing key '" ++ key ++ "'"

/-- Why a request cannot be carried out at all. -/
inductive SetupError
  | unknownVendor (error : UnknownVendor)
  | unreadable (fault : ReadFault)
  | badEntry (fault : EntryFault)
  | badSettings (path : String) (fault : SettingsFault)
deriving Repr, DecidableEq

def SetupError.message : SetupError → String
  | unknownVendor error => error.message
  | unreadable fault => "I/O error: " ++ fault.message
  | badEntry fault => "configuration error: " ++ fault.message
  | badSettings path fault => "configuration error: " ++ path ++ ": " ++ fault.message

end SqlScript
