/-!
# What the command line says about itself
-/

namespace SearchRelay.Options

def help : String :=
  "Relay CouchDB external-hook requests to a full-text search indexer\n\n" ++
  "Usage: couchdb-fti-hook [OPTIONS]\n\n" ++
  "Options:\n" ++
  "      --remote-host <REMOTE_HOST>  Host of the search indexer [default: localhost]\n" ++
  "      --remote-port <REMOTE_PORT>  Port of the search indexer [default: 5985]\n" ++
  "  -u, --url <URL>                  Full base URL of the search indexer, e.g. http://search:5985/lucene\n" ++
  "      --local-key <LOCAL_KEY>      Key identifying this CouchDB to the indexer; used as the route " ++
  "prefix\n" ++
  "      --local-host <LOCAL_HOST>    Host of this CouchDB; with --local-port, used as the route prefix\n" ++
  "      --local-port <LOCAL_PORT>    Port of this CouchDB [default: 5984]\n" ++
  "      --timeout <SECS>             Give up on an indexer request after this many seconds\n" ++
  "      --log-file <PATH>            Append diagnostics to this file instead of stderr\n" ++
  "  -h, --help                       Print help\n" ++
  "  -V, --version                    Print version\n"

def version : String := "couchdb-fti-hook 0.1.0\n"

end SearchRelay.Options
