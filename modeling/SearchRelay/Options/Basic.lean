import SearchRelay.Route
import SearchRelay.Text.Ascii
import SearchRelay.Text.Utf8

/-!
# Options

The command line names the indexer by host and port or by a URL, and this
database server by a key or by host and port. Two options that exclude each
other are never both given, and a local port comes with a local host.
-/

namespace SearchRelay

inductive Flag where
  | remoteHost
  | remotePort
  | url
  | localKey
  | localHost
  | localPort
  | timeout
  | logFile
deriving DecidableEq, Repr

namespace Flag

def name : Flag → String
  | remoteHost => "remote-host"
  | remotePort => "remote-port"
  | url => "url"
  | localKey => "local-key"
  | localHost => "local-host"
  | localPort => "local-port"
  | timeout => "timeout"
  | logFile => "log-file"

def all : List Flag := [remoteHost, remotePort, url, localKey, localHost, localPort, timeout, logFile]

def ofName? (name : List UInt8) : Option Flag := all.find? fun flag => flag.name.toUTF8.toList = name

end Flag

/-- The values that were given. A path of a file need not be text. -/
structure Options where
  remoteHost : Option String
  remotePort : Option UInt16
  url : Option String
  localKey : Option String
  localHost : Option String
  localPort : Option UInt16
  timeout : Option Nat
  logFile : Option (List UInt8)
deriving DecidableEq, Repr

namespace Options

def empty : Options := ⟨none, none, none, none, none, none, none, none⟩

def has (options : Options) : Flag → Bool
  | .remoteHost => options.remoteHost.isSome
  | .remotePort => options.remotePort.isSome
  | .url => options.url.isSome
  | .localKey => options.localKey.isSome
  | .localHost => options.localHost.isSome
  | .localPort => options.localPort.isSome
  | .timeout => options.timeout.isSome
  | .logFile => options.logFile.isSome

/-! ## What the options mean -/

/-- A URL for a host and a port. A host with a colon is an address that needs brackets, unless it has them. -/
def hostUrl (host : String) (port : UInt16) : String :=
  if host.toList.contains ':' && host.toList.head? != some '[' then s!"http://[{host}]:{port.toNat}"
  else s!"http://{host}:{port.toNat}"

def baseUrl (options : Options) : String :=
  options.url.getD (hostUrl (options.remoteHost.getD "localhost") (options.remotePort.getD 5985))

def route (options : Options) : Route :=
  match options.localKey, options.localHost with
  | some key, _ => .key key
  | none, some host => .address host (options.localPort.getD 5984)
  | none, none => .command

def shownLogFile (options : Options) : Option String :=
  options.logFile.map fun path => String.ofList (Utf8.decodeLossy path)

end Options

end SearchRelay
