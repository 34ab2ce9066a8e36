/-
  Reading guards from text.

  The grammar, with parentheses for the inner guard:

      or    := and ('|' and)*
      and   := unary ('&' unary)*
      unary := ('~' | '!') unary | '(' or ')' | word

  One operand stands for itself, several make one flat conjunction or
  disjunction.  The words `true` and `false` are the constants.

  The tokens are read once from left to right, at the place of an operand or of
  an operator by turns.  A `Frame` holds what has been read of one disjunction,
  and opening a parenthesis puts the frame aside until it closes.

  * `Guard.parse`: the guard of a text, or what is wrong with it;
  * `Guard.Failure.message`: the wording of what is wrong.
-/
import GoalAutomata.Guard
import GoalAutomata.Guard.Token

namespace GoalAutomata

namespace Guard

/-- What is wrong with a text that is no guard. -/
inductive Failure where
  /-- a character that belongs to no token -/
  | illegal (c : Char)
  /-- a token where an operand should be -/
  | unexpected (t : Token)
  /-- no operand before the end of the text -/
  | ended
  /-- a parenthesis that is not closed where its guard ends -/
  | unclosed
  /-- a token after the whole guard -/
  | trailing (t : Token)
  deriving DecidableEq

namespace Failure

/-- The wording of a failure. -/
def message : Failure → String
  | illegal c => "unexpected character `" ++ c.toString ++ "`"
  | unexpected t => "unexpected token " ++ t.describe
  | ended => "unexpected end of input"
  | unclosed => "missing closing parenthesis"
  | trailing t => "trailing token " ++ t.describe

end Failure

/-- The guard that a word stands for. -/
def ofWord (w : List Char) : Guard :=
  if w = ['t', 'r', 'u', 'e'] then tt
  else if w = ['f', 'a', 'l', 's', 'e'] then ff
  else atom (.ofList w)

/-- The guard `g` under `n` negations. -/
def negations : Nat → Guard → Guard
  | 0, g => g
  | n + 1, g => not (negations n g)

/-- One operand itself, or several (last one first) under a common operator. -/
def gather (op : List Guard → Guard) : List Guard → Guard
  | [g] => g
  | gs => op gs.reverse

/-- What has been read of a disjunction. -/
structure Frame where
  /-- its finished disjuncts, last one first -/
  disjuncts : List Guard := []
  /-- the finished conjuncts of the current disjunct, last one first -/
  conjuncts : List Guard := []
  /-- the number of negations in front of the next operand -/
  negated : Nat := 0

namespace Frame

/-- A negation in front of the next operand. -/
def negate (f : Frame) : Frame := { f with negated := f.negated + 1 }

/-- The next operand, which takes the negations in front of it. -/
def push (f : Frame) (g : Guard) : Frame :=
  { f with conjuncts := negations f.negated g :: f.conjuncts, negated := 0 }

/-- The end of the current disjunct. -/
def split (f : Frame) : Frame :=
  { disjuncts := gather and f.conjuncts :: f.disjuncts }

/-- The disjunction, with the current disjunct as its last. -/
def close (f : Frame) : Guard := gather or f.split.disjuncts

end Frame

mutual

/-- Reads on at the place of an operand, inside the frame `f` and, around it, the frames
    `outer` of the open parentheses. -/
def readOperand (f : Frame) (outer : List Frame) : List Token → Except Failure Guard
  | [] => .error .ended
  | .neg :: ts => readOperand f.negate outer ts
  | .left :: ts => readOperand {} (f :: outer) ts
  | .word w :: ts => readOperator (f.push (ofWord w)) outer ts
  | t :: _ => .error (.unexpected t)

/-- Reads on at the place of an operator. -/
def readOperator (f : Frame) (outer : List Frame) : List Token → Except Failure Guard
  | [] => match outer with
    | [] => .ok f.close
    | _ :: _ => .error .unclosed
  | .conj :: ts => readOperand f outer ts
  | .disj :: ts => readOperand f.split outer ts
  | .right :: ts => match outer with
    | [] => .error (.trailing .right)
    | f' :: outer => readOperator (f'.push f.close) outer ts
  | t :: _ => match outer with
    | [] => .error (.trailing t)
    | _ :: _ => .error .unclosed

end

/-- The guard of a list of tokens. -/
def ofTokens (ts : List Token) : Except Failure Guard := readOperand {} [] ts

/-- The guard of a text. -/
def parse (text : String) : Except Failure Guard :=
  match Token.scan text.toList with
  | .ok ts => ofTokens ts
  | .error c => .error (.illegal c)

end Guard

end GoalAutomata
