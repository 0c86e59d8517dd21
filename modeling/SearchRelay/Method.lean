import SearchRelay.Text.Ascii

/-!
# Request methods

The five methods that are forwarded. A name means a method whatever the case of
its letters.
-/

namespace SearchRelay

inductive Method where
  | get
  | head
  | post
  | put
  | delete
deriving DecidableEq, Repr

namespace Method

def name : Method → String
  | get => "GET"
  | head => "HEAD"
  | post => "POST"
  | put => "PUT"
  | delete => "DELETE"

def all : List Method := [get, head, post, put, delete]

/-- The method with a name, up to the case of ASCII letters. -/
def ofName? (name : String) : Option Method := all.find? fun m => Ascii.sameFold m.name name

def hasBody : Method → Bool
  | post => true
  | put => true
  | _ => false

end Method

end SearchRelay
