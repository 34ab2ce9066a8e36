/-
  Sensors: what reads fluents from observations.
-/
import GoalAutomata.Fluents

namespace GoalAutomata

/-- What reads the fluents of an observation and of the action that led to it, none after a reset.
    A failure has a text of its own; a sensor may change with every reading. -/
class Sensor (X O A : Type) where
  read : X → O → Option A → Except String Fluents × X

/-- A function of its arguments is a sensor that never fails and never changes. -/
instance {O A : Type} : Sensor (O → Option A → Fluents) O A where
  read f o a? := (.ok (f o a?), f)

/-- A function of its arguments that may fail never changes either. -/
instance {O A : Type} : Sensor (O → Option A → Except String Fluents) O A where
  read f o a? := (f o a?, f)

end GoalAutomata
