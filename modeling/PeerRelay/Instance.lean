/-!
# Instances

The peers that messages are exchanged with, and the directory of the peers known at present.

The URI is the identity of an instance: two instances with one URI are the same peer, whatever
their names. A directory may start with repeated URIs; adding or removing a URI takes out all
entries that had it.
-/

namespace PeerRelay

/-- A peer, with a name for humans and the URI that identifies it. -/
structure Instance where
  name : String
  uri : String
deriving DecidableEq, Repr, Inhabited

/-- The form in which an instance is shown to humans. -/
def Instance.render (i : Instance) : String :=
  s!"{i.name} ({i.uri})"

/-- The peers known at present, in the order in which they are addressed. -/
structure Directory where
  instances : List Instance
deriving DecidableEq, Repr, Inhabited

namespace Directory

/-- Whether a peer with the URI is known. -/
def contains (d : Directory) (uri : String) : Bool :=
  d.instances.any (·.uri == uri)

/-- The directory without any peer of the URI. -/
def remove (d : Directory) (uri : String) : Directory :=
  ⟨d.instances.filter (·.uri != uri)⟩

/-- Removes a URI, and tells whether it was known: whether there are not as many peers as before. -/
def takeOut (d : Directory) (uri : String) : Bool × Directory :=
  let left := d.remove uri
  (left.instances.length != d.instances.length, left)

/-- Adds a peer at the end, in place of every peer with its URI. -/
def add (d : Directory) (i : Instance) : Directory :=
  ⟨(d.remove i.uri).instances ++ [i]⟩

end Directory

/-- The first instance of each URI, in order. -/
def distinctByUri : List Instance → List Instance
  | [] => []
  | i :: rest => i :: (distinctByUri rest).filter (·.uri != i.uri)

end PeerRelay
