import SearchRelay.Refusal
import SearchRelay.Text.Quoted

/-!
# Failures of the program

What stops the program: its input, its output or its journal fails, or the
address of the indexer is unusable. A failure of a single request never does.
-/

namespace SearchRelay

/-- A fault of a file or a stream: reported by the system or by the stream itself, or a text that the system
cannot take. -/
inductive IoFault where
  | system (code : Nat) (kind message : String)
  | report (text : String)
  | unusable (text : String)
deriving DecidableEq, Repr

namespace IoFault

def message : IoFault → String
  | system code _ text => s!"{text} (os error {code})"
  | report text => text
  | unusable text => text

def notFound : IoFault := .system 2 "NotFound" "No such file or directory"

def notDirectory : IoFault := .system 20 "NotADirectory" "Not a directory"

def isDirectory : IoFault := .system 21 "IsADirectory" "Is a directory"

def permissionDenied : IoFault := .system 13 "PermissionDenied" "Permission denied"

def nameTooLong : IoFault := .system 36 "InvalidFilename" "File name too long"

def zeroByte : IoFault := .unusable "file name contained an unexpected NUL byte"

def shown : IoFault → String
  | system code kind text => s!"Os \x7b code: {code}, kind: {kind}, message: {Quoted.quote text} \x7d"
  | report text => s!"Custom \x7b kind: Other, error: {Quoted.quote text} \x7d"
  | unusable text => s!"Error \x7b kind: InvalidInput, message: {Quoted.quote text} \x7d"

end IoFault

inductive Failure where
  | io (fault : IoFault)
  | config (refusal : Refusal)
  | logging
deriving DecidableEq, Repr

namespace Failure

def message : Failure → String
  | io fault => s!"stdio failure: {fault.message}"
  | config refusal => refusal.message
  | logging => "failed to initialise logging: a global default trace dispatcher has already been set"

def shownRefusal : Refusal → String
  | .malformedRequest detail => s!"MalformedRequest({Quoted.quote detail})"
  | .invalidPath path =>
    let segments := ", ".intercalate (path.map Quoted.quote)
    s!"InvalidPath \x7b path: [{segments}] \x7d"
  | .invalidHeader name => s!"InvalidHeader \x7b name: {Quoted.quote name} \x7d"
  | .unsupportedMethod name => s!"UnsupportedMethod({Quoted.quote name})"
  | .invalidBaseUrl url reason =>
    s!"InvalidBaseUrl \x7b url: {Quoted.quote url}, reason: {Quoted.quote reason} \x7d"

def shown : Failure → String
  | io fault => s!"Io({fault.shown})"
  | config refusal => s!"Config({shownRefusal refusal})"
  | logging => "Logging(TryInitError \x7b inner: SetGlobalDefaultError \x7b _no_construct: () \x7d \x7d)"

end Failure

end SearchRelay
