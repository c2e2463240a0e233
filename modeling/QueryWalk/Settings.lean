import QueryWalk.Failure

namespace QueryWalk

/-!
# Settings of a walk

Options say what a caller asks for; settings are what a walker goes by. Every
option has a default, and the only one that can be refused is the depth limit,
which must be a positive integer.
-/

/-- Who is told about the choice of a handler for every node. -/
inductive Listener where
  /-- Nobody. -/
  | silent
  /-- A debugging aid that writes one line of text. -/
  | debugging
  /-- A listener that makes an entry, and then gives up at one kind. -/
  | logging (rejected : Option NodeKind)
  deriving DecidableEq

namespace Listener

/-- Whether there is anybody to tell. -/
def isPresent : Listener → Bool
  | .silent => false
  | .debugging | .logging _ => true

end Listener

/-- What a caller asks for. -/
structure Options where
  trackParents : Bool
  trackNewParents : Bool
  trackPaths : Bool
  maxDepth : Option Number
  /-- Whether choices are written out when nobody else listens. -/
  debug : Bool
  /-- The caller's own listener. -/
  onDispatch : Listener

/-- What a walker goes by. -/
structure Settings where
  trackParents : Bool
  trackNewParents : Bool
  trackPaths : Bool
  /-- The deepest level a walk goes down to. -/
  maxDepth : Nat
  maxDepth_pos : 0 < maxDepth
  listener : Listener

namespace Options

/-- The deepest level a walk goes down to when nothing is said. -/
def defaultMaxDepth : Nat :=
  1000

/-- Accept a depth limit if it is a positive integer. -/
def positive? : Number → Option { limit : Nat // 0 < limit }
  | .whole value =>
      if positive : 0 < value.toNat then
        some ⟨value.toNat, positive⟩
      else
        none
  | _ => none

/-- The depth limit to go by. -/
def depthLimit (options : Options) :
    Except Failure { limit : Nat // 0 < limit } :=
  match options.maxDepth with
  | none => .ok ⟨defaultMaxDepth, by decide⟩
  | some given =>
      match positive? given with
      | some limit => .ok limit
      | none => .error (.invalidMaxDepth given)

/-- The listener to tell: the caller's own before the debugging aid. -/
def listener (options : Options) : Listener :=
  if options.onDispatch.isPresent then
    options.onDispatch
  else if options.debug then
    .debugging
  else
    .silent

/-- The settings that options amount to. -/
def settings (options : Options) : Except Failure Settings :=
  options.depthLimit.map fun limit =>
    { trackParents := options.trackParents
      trackNewParents := options.trackNewParents
      trackPaths := options.trackPaths
      maxDepth := limit.1
      maxDepth_pos := limit.2
      listener := options.listener }

end Options

namespace Settings

/-- Settings as callers see them. -/
def toData (settings : Settings) : Data :=
  .record
    [("maxDepth", .ofNat settings.maxDepth),
      ("onDispatch", .flag settings.listener.isPresent),
      ("trackNewParents", .flag settings.trackNewParents),
      ("trackParents", .flag settings.trackParents),
      ("trackPaths", .flag settings.trackPaths)]

end Settings

end QueryWalk
