import Overlay.Connect

/-!
# Planned dialing

A dialer whose answers are laid down in advance: the first call plays the first turn of the
plan, the second the second, and the last turn is repeated. The calls are recorded.
-/

namespace Overlay.Connect

/-- A plan under way. -/
structure Plan where
  /-- The turns still to be played; the last one stays. -/
  turns : List (Delayed Dialed)
  /-- The peers for which the dialer was called so far. -/
  calls : List PeerId
deriving Repr

namespace Plan

/-- The start of a plan. -/
def start (turns : List (Delayed Dialed)) : Plan := ⟨turns, []⟩

/-- The turn that the next call plays; an empty plan connects at once. -/
def next (p : Plan) : Delayed Dialed := p.turns.headD (.after 0 (.ok ()))

/-- What is left of the turns after one was played. -/
def left : List (Delayed Dialed) → List (Delayed Dialed)
  | _ :: turn :: rest => turn :: rest
  | turns => turns

/-- The dialer that follows the plan. -/
def dial : Dialer Plan := fun peer p ↦ (p.next, ⟨left p.turns, p.calls ++ [peer.id]⟩)

end Plan

end Overlay.Connect
