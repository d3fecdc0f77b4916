/-!
# Deadlines and cancellation

Moments are natural numbers of milliseconds, and computing takes no time. Work under limits
goes on at a moment if the moment precedes the cancellation and does not exceed the deadline.
So where work ends on the deadline itself the work counts, and where it ends on the
cancellation the cancellation does; work that is cancelled before it begins is never begun.

`Limits.allows` is this rule, `Limits.cut?` says when and why work is cut off that does not end
in time, and `Policy.bounded` puts both together for work that takes a known time. A delay
that is given in advance is bounded by `timer` first.
-/

namespace Overlay

instance decidableEqExcept {ε α : Type} [DecidableEq ε] [DecidableEq α] :
    DecidableEq (Except ε α)
  | .ok a, .ok b => decidable_of_iff (a = b) ⟨congrArg Except.ok, Except.ok.inj⟩
  | .error d, .error e => decidable_of_iff (d = e) ⟨congrArg Except.error, Except.error.inj⟩
  | .ok _, .error _ => isFalse nofun
  | .error _, .ok _ => isFalse nofun

/-- Why work ended before it was done. -/
inductive Interrupted where
  | timeout
  | cancelled
deriving DecidableEq, Repr

/-- The wording of an interruption. -/
def Interrupted.message : Interrupted → String
  | .timeout => "Timed out"
  | .cancelled => "Cancelled"

/-- The longest that a timer waits: thirty years. -/
def longestWait : Nat := 30 * 365 * 24 * 60 * 60 * 1000

/-- How long a timer waits that is set to a delay. -/
def timer (delay : Nat) : Nat := min delay longestWait

/-- A result that takes time, or never comes. -/
inductive Delayed (α : Type) where
  | never
  | after (delay : Nat) (value : α)
deriving DecidableEq, Repr

/-- The same result after a further delay. -/
def Delayed.later {α : Type} (delay : Nat) : Delayed α → Delayed α
  | .never => .never
  | .after wait value => .after (delay + wait) value

/-- What limits a piece of work. -/
structure Limits where
  /-- The last moment at which the work goes on. -/
  deadline : Option Nat
  /-- The first moment at which the work no longer goes on. -/
  cancelAt : Option Nat
deriving DecidableEq, Repr

namespace Limits

/-- No limits. -/
def unlimited : Limits := ⟨none, none⟩

/-- Whether the work goes on at a moment. -/
def allows (l : Limits) (t : Nat) : Bool :=
  (l.cancelAt.all fun c ↦ t < c) && l.deadline.all fun d ↦ t ≤ d

/-- When and why work is cut off that began at `start` and is not done in time. -/
def cut? (l : Limits) (start : Nat) : Option (Nat × Interrupted) :=
  match l.cancelAt, l.deadline with
  | none, none => none
  | some c, none => some (max start c, .cancelled)
  | none, some d => some (max start d, .timeout)
  | some c, some d =>
    if c ≤ d then some (max start c, .cancelled) else some (max start d, .timeout)

@[simp] theorem allows_unlimited (t : Nat) : unlimited.allows t = true := rfl

theorem allows_of_le {l : Limits} {s t : Nat} (hst : s ≤ t) (ht : l.allows t = true) :
    l.allows s = true := by
  obtain ⟨deadline, cancelAt⟩ := l
  cases deadline <;> cases cancelAt <;> simp_all [allows] <;> omega

end Limits

/-- How long one step may take, and when all steps are cancelled. -/
structure Policy where
  timeout : Nat
  cancelAt : Option Nat
deriving DecidableEq, Repr

namespace Policy

/-- The limits of a step that begins at `start`. -/
def limits (p : Policy) (start : Nat) : Limits := ⟨some (start + p.timeout), p.cancelAt⟩

/-- Whether a step may begin. -/
def admits (p : Policy) (start : Nat) : Bool := p.cancelAt.all fun c ↦ start < c

/-- When and why a step is cut off that is not done in time. -/
def cutoff (p : Policy) (start : Nat) : Nat × Interrupted :=
  match p.cancelAt with
  | none => (start + p.timeout, .timeout)
  | some c =>
    if c ≤ start + p.timeout then (max start c, .cancelled) else (start + p.timeout, .timeout)

theorem allows_limits_self (p : Policy) (start : Nat) :
    (p.limits start).allows start = p.admits start := by
  simp [limits, Limits.allows, admits]

theorem cut?_limits (p : Policy) (start : Nat) :
    (p.limits start).cut? start = some (p.cutoff start) := by
  obtain ⟨timeout, cancelAt⟩ := p
  have h : max start (start + timeout) = start + timeout := by omega
  cases cancelAt with
  | none => simp only [limits, Limits.cut?, cutoff, h]
  | some c => simp only [limits, Limits.cut?, cutoff, h]; split <;> rfl

/-- When a step that begins at `start` ends, and its result unless it is cut off. -/
def bounded {α : Type} (p : Policy) (start : Nat) (work : Delayed α) :
    Nat × Except Interrupted α :=
  match work with
  | .never => ((p.cutoff start).1, .error (p.cutoff start).2)
  | .after delay value =>
    if (p.limits start).allows (start + delay) then (start + delay, .ok value)
    else ((p.cutoff start).1, .error (p.cutoff start).2)

/-- Steps one after another: when each ends, and with what. -/
def boundedAll {α : Type} (p : Policy) :
    Nat → List (Delayed α) → List (Nat × Except Interrupted α)
  | _, [] => []
  | start, work :: rest => p.bounded start work :: p.boundedAll (p.bounded start work).1 rest

end Policy

end Overlay
