/-
  Potentials over a known graph.

  * A state with a known path to acceptance has the potential of its distance.
  * A proven failure has potential zero, and so has the initial state unless its
    distance says otherwise.
  * Any other state is still being explored.  It gets the least
    `potential of a predecessor + bonus` over the known transitions into it, and no
    more than the reward; an accepting predecessor counts as zero.

  The exploring states are reached by a forward pass, which expands every state
  once, in the order of a breadth-first walk from the initial one.
-/
import GoalAutomata.KnownGraph
import GoalAutomata.Potential

namespace GoalAutomata

/-- The states met by at most `n` rounds of a breadth-first walk, after those in `seen`. -/
def meetFrom (next : Nat → List Nat) : Nat → List Nat → List Nat → List Nat
  | 0, seen, _ => seen
  | n + 1, seen, frontier =>
    let fresh := frontier.eraseDups.filter (!seen.contains ·)
    if fresh.isEmpty then seen else meetFrom next n (seen ++ fresh) (fresh.flatMap next)

namespace KnownGraph

variable {C R : Type} [Amount R]

/-- The destinations of a state, by label. -/
def destinations (G : KnownGraph C) (q : Nat) : List Nat := (G.row q).toList.map (·.2)

/-- The states that can be reached from the initial one, in the order in which a breadth-first walk
    meets them.  Every round but the last meets a state, so their number bounds the rounds. -/
def walkOrder (G : KnownGraph C) : List Nat :=
  meetFrom G.destinations (G.size + 1) [] [0]

/-- The potentials that do not depend on exploration. -/
def settled (G : KnownGraph C) (L : Levels) (reward : R) : StateMap R :=
  let base := Potential.ofLevels L 0 reward
  let reaching :=
    if G.accepting.isEmpty then [] else (List.range G.size).filter (!L.isFailure ·)
  let onPath := reaching.foldl (fun P q => P.insert q (base.get q)) (∅ : StateMap R)
  let failed := G.failures.toList.foldl (fun P q => P.insert q 0) onPath
  failed.insertIfNew 0 0

/-- Whether a state is still being explored. -/
def isExploring (G : KnownGraph C) (L : Levels) (q : Nat) : Bool :=
  q ≠ 0 && L.isFailure q && !G.failures.contains q

/-- What a transition from `q` to `r` offers to an exploring state. -/
def offer (G : KnownGraph C) (bonuses : StateMap R) (reward : R) (P : StateMap R) (q r : Nat) : R :=
  Amount.lesser
    (if q ∈ G.accepting then 0 else P[q]?.getD 0 + bonuses[r]?.getD 0) reward

/-- The potentials after the transition from `q` to `r` has been looked at. -/
def relax (G : KnownGraph C) (L : Levels) (bonuses : StateMap R) (reward : R) (q : Nat)
    (P : StateMap R) (r : Nat) : StateMap R :=
  if G.isExploring L r then
    let x := G.offer bonuses reward P q r
    P.alter r fun p => some (p.elim x (Amount.lesser · x))
  else P

/-- The potentials after the state `q` has been expanded. -/
def expand (G : KnownGraph C) (L : Levels) (bonuses : StateMap R) (reward : R)
    (P : StateMap R) (q : Nat) : StateMap R :=
  (G.destinations q).foldl (G.relax L bonuses reward q) P

/-- The potentials of the known states. -/
def potentials (G : KnownGraph C) (bonuses : StateMap R) (reward : R) : Potential R :=
  let L := Levels.ofAutomaton G.toAutomaton
  ⟨G.walkOrder.foldl (G.expand L bonuses reward) (G.settled L reward)⟩

end KnownGraph

end GoalAutomata
