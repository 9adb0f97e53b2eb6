import Ferrixd.Link
import Ferrixd.Ts6.Misread

/-! # What the bridge carries

A frame that is translated for a TS6 peer, and read back with the grammar and the aliases of the link, is the event it
was, under conditions that are stated for each kind. -/

namespace Ferrixd

open Protocol

/-! ## The event of a frame -/

namespace LinkMessage

/-- The UIDs of the users that a frame names, a source apart that may be a server. -/
def users : LinkMessage → List String
  | .uid _ u _ _ _ _ _ _ => [u]
  | .nick u _ => [u]
  | .quit u _ => [u]
  | .sjoin _ u _ _ _ => [u]
  | .spart _ u _ => [u]
  | .smode _ _ _ flags args => statusArgs flags.toList true args
  | .skick _ _ target _ => [target]
  | .saway u _ => [u]
  | .saccount u _ => [u]
  | .kill u _ => [u]
  | .schghost u _ => [u]
  | .sinvite source target _ => [source, target]
  | _ => []

/-- The source of a frame that a server may send as well as a user. -/
def actor : LinkMessage → Option String
  | .smode _ source _ _ _ => some source
  | .skick _ source _ _ => some source
  | .stopic _ source _ _ _ => some source
  | _ => none

end LinkMessage

namespace Tables

end Tables

/-! ## The conditions -/

/-- The bytes of a text. -/
def size (text : String) : Nat :=
  (utf8 text).length

namespace Tables

end Tables

/-! ## Reading the lines back -/

/-- The event of a line, if it fits. -/
def Sourced.event (sourced : Sourced) : Option Ts6In :=
  if rfc1459BodyBytes < sourced.size then none
  else (parseSource (utf8 sourced.source)).toOption.map fun source =>
    parseTs6 ⟨[], some source, .named sourced.frame.verb, sourced.frame.params⟩

variable {t : Tables} {mapper later : UidMapper} {peerCaps : List String} {message : LinkMessage}

/-- The parts of a line whose fields depend on an identifier. -/
structure Template where
  source : String → String
  verb : String
  middles : String → List String
  trailing : String → Option String

namespace Template

def fill (template : Template) (ts6Uid : String) : Sourced :=
  ⟨template.source ts6Uid, template.verb, template.middles ts6Uid, template.trailing ts6Uid⟩

/-- Whatever the identifier, the line can be read. -/
structure Valid (template : Template) : Prop where
  source : ∀ ts6Uid, Ts6Word ts6Uid → Ts6Word (template.source ts6Uid)
  verb : template.verb.toList ≠ [] ∧ template.verb.toList.all Char.isAlpha = true
  middles : ∀ ts6Uid, Middle ts6Uid → ∀ field ∈ template.middles ts6Uid, Middle field
  trailing : ∀ ts6Uid, Trailing ts6Uid → ∀ field ∈ template.trailing ts6Uid, Trailing field

/-- What the line says once it is read. -/
def event (template : Template) (later : UidMapper) (ts6Uid : String) : Ts6In :=
  later.unalias (parseTs6 ⟨[], some ⟨template.source ts6Uid, none, none⟩, .named template.verb,
    template.middles ts6Uid ++ (template.trailing ts6Uid).toList⟩)

end Template

section User

variable {uid channel : String} (sound : mapper.Sound) (known : representable uid = true)
include sound known

end User

/-! ### Topics -/

section Introduction

variable {origin uid nick user host account realname ts6Uid : String} {lamport : UInt64} {later : UidMapper}

end Introduction

/-! ## Every kind of frame -/

end Ferrixd
