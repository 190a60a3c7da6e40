import Fabric.Policy.Compact.Token
import Fabric.Policy.Rule
import Fabric.Word

/-!
Reading the compact notation:

    policy := expr
    expr   := AND(args) | OR(args) | OutOf(number, args) | principal
    args   := expr {, expr}

Keywords are in any letter case. The reader takes one token at a time; the groups that are open are a
list, so that there are as many as parentheses. A principal gets its index when it first appears, and the
index is looked up when it appears again.
-/
namespace Fabric.Compact

/-- Parentheses match and are not nested too deep; `offset` counts the tokens passed. -/
def checkNesting (depth offset : Nat) : List Token → Except PolicyError Unit
  | [] => if depth = 0 then .ok () else .error (.unbalancedParentheses offset)
  | .openParen :: rest =>
    if Policy.maxDepth < depth + 1 then .error (.tooDeep Policy.maxDepth)
    else checkNesting (depth + 1) (offset + 1) rest
  | .closeParen :: rest =>
    match depth with
    | 0 => .error (.unbalancedParentheses offset)
    | d + 1 => checkNesting d (offset + 1) rest
  | _ :: rest => checkNesting depth (offset + 1) rest

inductive Keyword
  | all
  | any
  | outOf
deriving DecidableEq, Repr

def Keyword.ofWord? (s : String) : Option Keyword :=
  match s.toUpper with
  | "AND" => some .all
  | "OR" => some .any
  | "OUTOF" => some .outOf
  | _ => none

/-- An open group: its keyword, the number written in it, and the rules read so far, the last first. -/
structure Group where
  keyword : Keyword
  count : UInt32
  rules : List Rule

/-- The rule that a group stands for once it is closed. -/
def Group.close (g : Group) : Except PolicyError Rule :=
  let rules := g.rules.reverse
  match g.keyword with
  | .all => .ok (.nOutOf (UInt32.ofNat rules.length) rules)
  | .any => .ok (.nOutOf 1 rules)
  | .outOf =>
    if g.count = 0 ∨ rules.length < g.count.toNat then .error (.outOfRange g.count rules.length)
    else .ok (.nOutOf g.count rules)

/-- What may come next. -/
inductive Stage
  | expr
  /-- A word was read, which is a keyword if a parenthesis follows and a principal otherwise. -/
  | word (s : String)
  | count
  | commaAfterCount
  | firstArg
  | nextArg
  | finished (r : Rule)

structure Parser where
  stage : Stage
  groups : List Group
  identities : List Principal
  /-- The indices that principals have got. -/
  seen : List (Principal × UInt32)

namespace Parser

def start : Parser := ⟨.expr, [], [], []⟩

/-- An expression is complete: it goes into the innermost open group. -/
def supply (p : Parser) (r : Rule) : Parser :=
  match p.groups with
  | [] => { p with stage := .finished r }
  | g :: outer => { p with stage := .nextArg, groups := { g with rules := r :: g.rules } :: outer }

def leaf (p : Parser) (s : String) : Except PolicyError Parser := do
  let x ← Principal.parse s
  match p.seen.lookup x with
  | some index => return p.supply (.signedBy index)
  | none =>
    let index := UInt32.ofNat p.identities.length
    return { p with identities := p.identities ++ [x], seen := p.seen ++ [(x, index)] }.supply (.signedBy index)

def readExpr (p : Parser) : Token → Except PolicyError Parser
  | .word s => .ok { p with stage := .word s }
  | .quoted s => p.leaf s
  | t => .error (.unexpectedToken t.describe)

def openGroup (p : Parser) (s : String) : Except PolicyError Parser :=
  match Keyword.ofWord? s with
  | none => .error (.unknownKeyword s)
  | some .outOf => .ok { p with stage := .count, groups := ⟨.outOf, 0, []⟩ :: p.groups }
  | some keyword => .ok { p with stage := .firstArg, groups := ⟨keyword, 0, []⟩ :: p.groups }

def readCount (p : Parser) : Token → Except PolicyError Parser
  | .number s =>
    match Word.uint32? (Nat.ofDigitChars 10 s.toList 0) with
    | some n =>
      .ok { p with
        stage := .commaAfterCount
        groups := p.groups.modifyHead fun g => { g with count := n } }
    | none => .error (.invalidOutOfCount s)
  | t => .error (.invalidOutOfCount t.describe)

/-- A complete expression is followed by a comma or the end of its group, or by nothing. -/
def readNext (p : Parser) (t : Token) : Except PolicyError Parser :=
  match p.groups, t with
  | _ :: _, .comma => .ok { p with stage := .expr }
  | g :: outer, .closeParen => do return { p with groups := outer }.supply (← g.close)
  | _, t => .error (.unexpectedToken t.describe)

def step (p : Parser) (t : Token) : Except PolicyError Parser :=
  match p.stage, t with
  | .expr, t => p.readExpr t
  | .word s, .openParen => p.openGroup s
  -- a word without a parenthesis is a principal, and the token is still to be read
  | .word s, t => do (← p.leaf s).readNext t
  | .count, t => p.readCount t
  | .commaAfterCount, .comma => .ok { p with stage := .firstArg }
  | .commaAfterCount, t => .error (.unexpectedToken t.describe)
  | .firstArg, .closeParen => .error .emptyRuleSet
  | .firstArg, t => p.readExpr t
  | .nextArg, t => p.readNext t
  | .finished _, t => .error (.unexpectedToken t.describe)

def run (p : Parser) (ts : List Token) : Except PolicyError Parser := ts.foldlM step p

/-- The text ends after `offset` tokens. -/
def finish (p : Parser) (offset : Nat) : Except PolicyError Policy := do
  let p ← match p.stage with
    | .word s => p.leaf s
    | _ => pure p
  match p.stage with
  | .finished r => .ok ⟨0, p.identities, r⟩
  -- a group is still open
  | .nextArg => .error (.unbalancedParentheses offset)
  | .count => .error (.invalidOutOfCount "")
  | .commaAfterCount => .error (.unexpectedToken "end of input, expected ','")
  | _ => .error .empty

end Parser

/-- The policy that a list of tokens stands for. -/
def ofTokens (ts : List Token) : Except PolicyError Policy := do
  -- parentheses come first: a text with both faults fails here
  checkNesting 0 0 ts
  (← (← Parser.start.run ts).finish ts.length).validated

def parse (s : String) : Except PolicyError Policy := do
  if Text.isBlankText s then throw .empty
  ofTokens (← Token.split s)

end Fabric.Compact
