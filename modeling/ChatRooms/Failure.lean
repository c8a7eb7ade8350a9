namespace ChatRooms

/-- Why a line cannot be queued for a client. -/
inductive Undeliverable where
  | closed
  | full
  deriving DecidableEq, Repr

def Undeliverable.message : Undeliverable → String
  | closed => "Channel closed"
  | full => "Channel full"

/-- Why bytes from a connection are not a line. -/
inductive LineFault where
  | tooLong
  | notUnicode
  deriving DecidableEq, Repr

def LineFault.message : LineFault → String
  | tooLong => "max line length exceeded"
  | notUnicode => "Unable to decode input as UTF8"

/-- Why a file cannot be read as text. -/
inductive FileFault where
  | missing
  | notUnicode
  deriving DecidableEq, Repr

def FileFault.message : FileFault → String
  | missing => "No such file or directory (os error 2)"
  | notUnicode => "stream did not contain valid UTF-8"

/-- How a text fails to be the JSON that was expected: it breaks the grammar, it ends too early, or
it holds a value of the wrong kind. -/
inductive JsonFlaw where
  | malformed
  | truncated
  | mistyped
  deriving DecidableEq, Repr

/-- What ends a connection or keeps the server from starting, as opposed to a refusal. -/
inductive Failure where
  | file (fault : FileFault)
  | line (fault : LineFault)
  | json (flaw : JsonFlaw)
  | settings (detail : String)
  | hubGone
  deriving DecidableEq, Repr

/-- The sentence for a failure. A JSON flaw is reported by its kind alone. -/
def Failure.message : Failure → String
  | file fault => "IO error: " ++ fault.message
  | line fault => "line codec error: " ++ fault.message
  | json _ => "JSON configuration error"
  | settings detail => "invalid configuration: " ++ detail
  | hubGone => "Channel send error"

end ChatRooms
