/-
  Gates by a test of the fluents of the current tick.

  Until the gate has opened once, the test decides whether the goal starts; if the
  first tick is let through, it opens the gate without a test.  An episode through
  which the gate stayed closed is reported when it ends.

  * `TickTest`: a test, which may change from call to call;
  * `ListedTest`: a constant, every `k`-th call, or a guard.
-/
import GoalAutomata.Gate

namespace GoalAutomata

/-! ## Tests -/

/-- A test of the fluents of a tick, with a state of its own. -/
class TickTest (P : Type) where
  test : P → Fluents → Bool × P

/-- A predicate on fluents is a test without state. -/
instance : TickTest (Fluents → Bool) where
  test p I := (p I, p)

/-- A test that can be written down. -/
inductive ListedTest where
  /-- the same answer always -/
  | constant (answer : Bool)
  /-- true on every `k`-th call, after `calls` calls -/
  | every (k calls : Nat)
  /-- true when the guard holds -/
  | guard (g : Guard)

instance : TickTest ListedTest where
  test
    | .constant b, _ => (b, .constant b)
    | .every k calls, _ => ((calls + 1) % k == 0, .every k (calls + 1))
    | .guard g, I => (g.holds I, .guard g)

/-! ## The gate -/

/-- A gate by a test. -/
structure StatelessGate (P : Type) where
  test : P
  /-- whether the first tick of an episode is let through -/
  allowFirst : Bool
  /-- whether the gate has opened in this episode -/
  started : Bool := false
  /-- the ticks of this episode before the gate opened -/
  closedTicks : Nat := 0

namespace StatelessGate

variable {P R : Type}

/-- A gate that is always open. -/
def always : StatelessGate ListedTest := { test := .constant true, allowFirst := true }

/-- The gate after a tick at which it was open or closed. -/
def note (k : StatelessGate P) (isOpen : Bool) : StatelessGate P :=
  let started := k.started || isOpen
  { k with
    started
    closedTicks := if started then k.closedTicks else k.closedTicks + 1 }

/-- One tick: the test decides, unless the first tick is let through. -/
def step [TickTest P] (k : StatelessGate P) (I : Fluents) : Outcome R (StatelessGate P) Bool :=
  if !k.started && k.allowFirst then .done true (k.note true)
  else
    let (isOpen, test) := TickTest.test k.test I
    .done isOpen ({ k with test }.note isOpen)

/-- The start of an episode; the test keeps its state. -/
def reset (k : StatelessGate P) : StatelessGate P :=
  { k with started := false, closedTicks := 0 }

/-- An episode with ticks through which the gate stayed closed is reported. -/
def resetRemarks (k : StatelessGate P) : List (Event R) :=
  if !k.started && 0 < k.closedTicks then [.neverOpened k.closedTicks] else []

instance [TickTest P] : Gate (StatelessGate P) R where
  step := step
  reset := reset
  resetRemarks := resetRemarks

end StatelessGate

end GoalAutomata
