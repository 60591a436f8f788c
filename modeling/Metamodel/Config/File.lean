import Metamodel.Config.Text

/-!
# Configuration files

Where a configuration comes from when it is not given as a text: a file that may be missing or be
something else than a file of text.
-/

namespace Metamodel

/-- What stands at the place of a configuration file. -/
inductive ConfigFile where
  /-- Nothing. -/
  | missing
  /-- A directory. -/
  | directory
  /-- A file of bytes. -/
  | regular (bytes : ByteArray)

namespace ConfigFile

/-- The configuration in a file, which must be there and be text. -/
def load : ConfigFile → Except ConfigError Config
  | .missing | .directory => .error .io
  | .regular bytes =>
    match String.fromUTF8? bytes with
    | some text => Config.parse text
    | none => .error .io

/-- The configuration in a file, or the default one where there is no file. -/
def loadOrDefault : ConfigFile → Except ConfigError Config
  | .missing | .directory => .ok {}
  | .regular bytes => load (.regular bytes)

end ConfigFile

end Metamodel
