import SourceGen.Syntax.Shape

/-!
# Precedence

How strongly expressions hold together, and what surrounds an operand. The questions that brackets depend
on are answered here: whether an operand as such needs them, and whether reading it would take in the
operator that follows it.
-/

namespace SourceGen

/-- How strongly an expression holds together, loosest first. -/
inductive Precedence
  | jump | assign | range | or | and | binding | comparison | bitOr | bitXor | bitAnd | shift | sum
  | product | cast | unary | atom
deriving DecidableEq, Repr

namespace Precedence

/-- The position in the order. -/
def rank : Precedence → Nat
  | jump => 0
  | assign => 1
  | range => 2
  | or => 3
  | and => 4
  | binding => 5
  | comparison => 6
  | bitOr => 7
  | bitXor => 8
  | bitAnd => 9
  | shift => 10
  | sum => 11
  | product => 12
  | cast => 13
  | unary => 14
  | atom => 15

instance : LE Precedence := ⟨fun p q => p.rank ≤ q.rank⟩

instance : LT Precedence := ⟨fun p q => p.rank < q.rank⟩

instance (p q : Precedence) : Decidable (p ≤ q) := inferInstanceAs (Decidable (p.rank ≤ q.rank))

instance (p q : Precedence) : Decidable (p < q) := inferInstanceAs (Decidable (p.rank < q.rank))

end Precedence

/-- The binary operators with their precedence; an operator stands after those it is the beginning of. -/
def binaryOperators : List (String × Precedence) :=
  [("+=", .assign), ("-=", .assign), ("*=", .assign), ("/=", .assign), ("%=", .assign),
    ("^=", .assign), ("&=", .assign), ("|=", .assign), ("<<=", .assign), (">>=", .assign),
    ("&&", .and), ("||", .or), ("<<", .shift), (">>", .shift), ("==", .comparison),
    ("<=", .comparison), ("!=", .comparison), (">=", .comparison), ("+", .sum), ("-", .sum),
    ("*", .product), ("/", .product), ("%", .product), ("^", .bitXor), ("&", .bitAnd),
    ("|", .bitOr), ("<", .comparison), (">", .comparison)]

namespace Node

/-- The precedence of a binary operator. -/
def operatorPrecedence : Node → Precedence
  | .leaf (.op s) =>
    match binaryOperators.find? fun o => o.1 == s with
    | some o => o.2
    | none => .jump
  | _ => .jump

/-- Whether an operator could also begin an expression. -/
def beginsExpr (o : Node) : Bool := ["-", "*", "&&", "||", "&", "|", "<<", "<"].any o.isOp

/-- Whether an expression has attributes of its own. -/
def isAttributed : Node → Bool
  | .form .attributed _ => true
  | _ => false

/-- How strongly an expression holds together. -/
def precedence (e : Node) : Precedence :=
  match e.bare with
  | .form .breakExpr [_, _, v] | .form .returnExpr [_, v] | .form .yieldExpr [_, v] =>
    if v.isAbsent then .atom else .jump
  | .form .closure [_, _, _, _, _, _, ret, _] =>
    if ret.isAbsent then .jump else if e.isAttributed then .unary else .atom
  | .form .assign _ => .assign
  | .form .range _ => .range
  | .form .binary [_, o, _] => o.operatorPrecedence
  | .form .letExpr _ => .binding
  | .form .cast _ => .cast
  | .form .rawAddr _ | .form .reference _ | .form .unary _ => .unary
  | _ => if e.isAttributed then .unary else .atom

/-- Whether an expression is a jump without a value. -/
def isEmptyJump (e : Node) : Bool :=
  match e.bare with
  | .form .breakExpr [_, _, v] | .form .returnExpr [_, v] | .form .yieldExpr [_, v] => v.isAbsent
  | _ => false

/-- Whether an expression reaches to the end of what encloses it. -/
def isOpenEnded (e : Node) : Bool :=
  match e.bare with
  | .form .breakExpr _ | .form .closure _ | .form .letExpr _ | .form .returnExpr _
  | .form .yieldExpr _ => true
  | .form .range [lower, _, _] => lower.isAbsent
  | _ => false

/-- Whether an expression is a block without label and attributes. -/
def isPlainBlock : Node → Bool
  | .form .blockExpr [label, .group _ parts] =>
    label.isAbsent && !parts.any fun
      | .attr _ => true
      | _ => false
  | _ => false

end Node

/-- What surrounds an expression. -/
structure Surroundings where
  /-- The precedence of the operator before the expression. -/
  previous : Precedence := .jump
  /-- The precedence of the operator after the expression. -/
  next : Precedence := .jump
  /-- Whether the operator after the expression could begin an expression. -/
  nextBegins : Bool := false
  /-- Whether there is an operator after the expression. -/
  nextContinues : Bool := false
  /-- Whether the expression is a statement. -/
  statement : Bool := false
  /-- Whether the expression is the first operand of a statement. -/
  startsStatement : Bool := false
  /-- Whether the expression is the body of a match arm. -/
  arm : Bool := false
  /-- Whether the expression is the first operand of the body of a match arm. -/
  startsArm : Bool := false
  /-- Whether a brace after the expression would open a block. -/
  condition : Bool := false
  /-- Whether the expression ends where that block begins. -/
  endsCondition : Bool := false
  /-- Whether the expression could be left out, so that a brace would open that block. -/
  optionalOperand : Bool := false
deriving DecidableEq, Repr

/-- How reading an expression ends at the operator after it. -/
inductive Ending
  | /-- The operator cannot be read. -/
    stuck
  | /-- The operator is left to what encloses the expression. -/
    free
  | /-- The operator becomes part of the expression. -/
    taken
deriving DecidableEq, Repr

namespace Surroundings

/-- The surroundings of a statement. -/
def ofStatement : Surroundings := { statement := true }

/-- The surroundings of the body of a match arm. -/
def ofArm : Surroundings := { arm := true }

/-- The surroundings of an expression that a block follows. -/
def ofCondition : Surroundings := { condition := true, endsCondition := true }

/-- The surroundings of the operand before an operator. -/
def before (c : Surroundings) (begins : Bool) (operator : Precedence) : Surroundings :=
  { c with
    next := operator
    nextBegins := begins
    nextContinues := true
    statement := false
    startsStatement := c.statement || c.startsStatement
    arm := false
    startsArm := c.arm || c.startsArm
    endsCondition := false }

/-- The surroundings of the operand before a dot or a question mark. -/
def beforeDot (c : Surroundings) : Surroundings :=
  { c with
    next := .atom
    nextBegins := false
    nextContinues := true
    statement := c.statement || c.startsStatement
    startsStatement := false
    arm := c.arm || c.startsArm
    startsArm := false
    endsCondition := false }

/-- The surroundings of the operand after an operator; `optional` tells whether it could be left out, and
`resets` whether a brace in it opens no block. -/
def after (c : Surroundings) (resets optional : Bool) (operator : Precedence) : Surroundings :=
  { c with
    previous := operator
    statement := false
    startsStatement := false
    arm := false
    startsArm := false
    condition := c.condition && !resets
    optionalOperand := c.condition && optional }

/-- Whether an expression cannot stand here without brackets, whatever its operators are. -/
def parenthesizes (c : Surroundings) (e : Node) : Bool :=
  (c.startsStatement && !e.needsSemicolon) ||
    (c.startsArm && !e.needsComma) ||
    match e.bare with
    | .form .structExpr _ => c.condition
    | .form .returnExpr [_, v] | .form .yieldExpr [_, v] => c.endsCondition && v.isAbsent
    | .form .breakExpr [_, _, v] => c.endsCondition && !c.condition && v.isAbsent
    | .form .range [_, _, upper] => c.endsCondition && !c.condition && upper.isAbsent
    | .form .path _ | .form .qualifiedPath _ => c.endsCondition && !c.condition
    | _ => c.optionalOperand && e.isPlainBlock

/-- How strongly an expression holds together here. -/
def precedence (c : Surroundings) (e : Node) : Precedence :=
  if c.nextBegins && e.isEmptyJump then .jump
  else if !c.nextContinues && e.isOpenEnded then .unary
  else e.precedence

/-- Whether what comes before lets the whole expression be the operand. -/
def admits (c : Surroundings) (e : Node) : Bool :=
  match e.bare with
  | .form .assign _ => c.previous ≤ .assign
  | .form .binary [_, o, _] =>
    let p := o.operatorPrecedence
    if p = .assign then c.previous ≤ .assign else c.previous < p
  | .form .cast _ => c.previous < .cast
  | .form .range [lower, _, _] => lower.isAbsent || c.previous < .assign
  | _ => true

/-- How reading ends after an operand of an operator. -/
def endingOfOperand (c : Surroundings) (operator : Precedence) : Ending :=
  if c.next = .jump then .taken
  else if operator = .assign || operator = .comparison then
    if operator ≤ c.next then .taken else .free
  else if operator < c.next then .taken else .free

/-- How strongly an operand after an operator holds together, given how reading it ends. -/
def precedenceAfter (c : Surroundings) (e : Node) (ending : Unit → Ending) : Precedence :=
  let p := c.precedence e
  let isLoose := match c.previous with
    | .assign | .binding | .unary => p < c.previous
    | _ => p ≤ c.previous
  let isOpen := match c.next with
    | .range | .or | .and => true
    | _ => !c.nextBegins
  if isLoose && isOpen && ending () != .taken && c.admits e then .unary else p

/-- How reading ends after an operand that was kept together, given how reading its last operand ended. -/
def endingAfter (c : Surroundings) (byPrecedence last : Ending) (needsParens : Unit → Bool) : Ending :=
  match last with
  | .free => byPrecedence
  | .taken => .taken
  | .stuck => if needsParens () then byPrecedence else if c.next = .atom then .stuck else .free

/-- How reading an expression ends at the operator after it. The expression is itself an operand of
`operator`; `late` tells whether reading is past the point where it could get stuck, and `held` whether it
is past the point where the operator could be left. A closure takes in all that it can if `firm`. -/
def ending (firm : Bool) (c : Surroundings) (operator : Precedence) (late held : Bool) (e : Node) : Ending :=
  let byPrecedence := c.endingOfOperand operator
  let isHeld := byPrecedence = .taken
  let atom : Ending :=
    if operator = .range && (c.next = .assign || c.next = .range) then .stuck
    else if operator = .binding && c.next < .binding then .stuck
    else byPrecedence
  let jump : Ending := if c.next = .assign && .assign < operator then .stuck else .taken
  if c.parenthesizes e then byPrecedence
  else
    match e with
    | .form .attributed [_, e] =>
      match e with
      | .form .assign _ | .form .binary _ | .form .range _ => atom
      | e => ending firm { c with optionalOperand := false } operator late held e
    | .form .assign [_, _, r] =>
      if c.next ≠ .atom && held then .taken
      else
        let last := ending firm (c.after false false .assign) .assign (c.next ≠ .atom || late) true r
        if last ≠ .stuck then .taken else if c.next = .atom then .stuck else .free
    | .form .binary [_, o, r] =>
      let p := o.operatorPrecedence
      if c.next ≠ .atom && held then .taken
      else if p = .comparison && c.next = .comparison then .taken
      else
        let right := c.after false false p
        let last := ending firm right p (c.next ≠ .atom || late) isHeld r
        c.endingAfter byPrecedence last fun _ =>
          p ≠ .assign && right.precedenceAfter r (fun _ => ending firm right p true false r) ≤ p
    | .form .rawAddr [_, _, _, r] | .form .reference [_, _, r] | .form .unary [_, r] =>
      if c.next ≠ .atom && held then .taken
      else
        let right := c.after false false .unary
        let last := ending firm right operator (c.next ≠ .atom || late) isHeld r
        c.endingAfter byPrecedence last fun _ =>
          right.precedenceAfter r (fun _ => ending firm right .unary true false r) < .unary
    | .form .range [_, _, upper] =>
      if upper.isAbsent then if c.nextBegins then .taken else .stuck
      else if late then .taken
      else
        let right := c.after false true .range
        let isLoose := c.next = .assign || c.next = .range
        let last := ending firm right .range late (!isLoose) upper
        if last = .taken || (last = .free && !isLoose) then .taken
        else if right.precedenceAfter upper (fun _ => ending firm right .range true false upper) ≤ .range
          then .taken
        else .stuck
    | .form .breakExpr [_, _, v] =>
      if v.isAbsent then jump
      else if held then .taken
      else if ending firm (c.after true true .jump) .jump true true v = .stuck then .free else .taken
    | .form .returnExpr [_, v] | .form .yieldExpr [_, v] =>
      if v.isAbsent then jump
      else if held then .taken
      else if ending firm (c.after true false .jump) .jump true true v = .stuck then .free else .taken
    | .form .closure [_, _, _, _, _, _, ret, body] =>
      if firm || held || !(ret.isAbsent || body.isPlainBlock) then .taken
      else if ending firm (c.after false false .jump) .jump true true body = .stuck then .free else .taken
    | .form .letExpr [_, _, _, v] =>
      if held then .taken
      else
        let right := c.after false false .binding
        let isLoose := c.next < .binding
        let last := ending firm right .binding true (!isLoose) v
        if last ≠ .taken && isLoose then .free
        else if last = .taken then .taken
        else if right.precedenceAfter v (fun _ => ending firm right .binding true false v) < .binding
          then .taken
        else if last = .stuck then .free else .taken
    | _ => atom

/-- How strongly the operand before an operator holds together. -/
def leftPrecedence (firm : Bool) (c : Surroundings) (e : Node) : Precedence :=
  if (!c.nextBegins || c.next = .range) && ending firm c .jump false false e = .free && c.admits e
    then .atom
  else c.precedence e

/-- How strongly the operand after an operator holds together. -/
def rightPrecedence (firm : Bool) (c : Surroundings) (e : Node) : Precedence :=
  c.precedenceAfter e fun _ => ending firm c c.previous true false e

end Surroundings

end SourceGen
