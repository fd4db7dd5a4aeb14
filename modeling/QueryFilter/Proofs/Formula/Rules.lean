import QueryFilter.Formula.ParseError

/-!
# The rules of the grammar

The grammar of formulas can also be given as rules that match a text from left to right:

    logic     = start or_expr end
    or_expr   = and_expr (or_op and_expr)*
    and_expr  = not_expr (and_op not_expr)*
    not_expr  = not_op* primary
    primary   = reference | group
    group     = "(" or_expr ")"
    reference = digit+
    or_op     = "OR" !alphanumeric        (and_op and not_op likewise)

Of two alternatives the first that matches is taken, and a repetition goes on for as long as
it can. Blanks are skipped between the parts of a sequence and between repetitions, but not
in the last rules, which are atomic. A rule that matches makes a pair, with the pairs of the
rules inside it; the formula is made by walking over the pairs. A text has one outcome.
-/

namespace QueryFilter
namespace Formula

/-! ### Rules -/

inductive Rule
  | logic
  | orExpr
  | andExpr
  | notExpr
  | primary
  | group
  | reference
  | orOp
  | andOp
  | notOp
  | endOfInput
  deriving DecidableEq, Repr

/-- What a rule is called in messages. -/
def Rule.name : Rule → String
  | logic => "logic"
  | orExpr => "or_expr"
  | andExpr => "and_expr"
  | notExpr => "not_expr"
  | primary => "primary"
  | group => "group"
  | reference => "reference"
  | orOp => "or_op"
  | andOp => "and_op"
  | notOp => "not_op"
  | endOfInput => "EOI"

/-- What matches characters, or no more than a place in the text. A word is matched in any
ASCII case. -/
inductive Terminal
  | start
  | finish
  | character (accepts : Char → Bool)
  | word (letters : List Char)

/-- What a terminal leaves of the rest of a text, if it matches there. -/
def Terminal.eat? (text : List Char) : Terminal → List Char → Option (List Char)
  | start, cs => if cs = text then some cs else none
  | finish, cs => if cs = [] then some cs else none
  | character _, [] => none
  | character accepts, c :: cs => if accepts c then some cs else none
  | word letters, cs =>
    if (cs.take letters.length).map Char.toUpper = letters.map Char.toUpper then
      some (cs.drop letters.length)
    else none

/-- Parsing expressions. What is left of a repetition after its first match is an expression
of its own, since blanks come before each further match. -/
inductive Expression
  | terminal (t : Terminal)
  | rule (rule : Rule)
  | seq (first second : Expression)
  | choice (first second : Expression)
  | star (body : Expression)
  | more (body : Expression)
  | absent (body : Expression)

namespace Expression

def character (accepts : Char → Bool) : Expression := terminal (.character accepts)

def plus (body : Expression) : Expression := seq body (star body)

/-- A word that no letter or digit follows. -/
def keyword (letters : String) : Expression :=
  seq (terminal (.word letters.toList)) (absent (character Char.isAlphanum))

/-- A rule once or more, with another in between. -/
def joined (element operator : Rule) : Expression :=
  seq (rule element) (star (seq (rule operator) (rule element)))

end Expression

def Rule.body : Rule → Expression
  | logic => .seq (.terminal .start) (.seq (.rule orExpr) (.rule endOfInput))
  | orExpr => .joined andExpr orOp
  | andExpr => .joined notExpr andOp
  | notExpr => .seq (.star (.rule notOp)) (.rule primary)
  | primary => .choice (.rule reference) (.rule group)
  | group => .seq (.character (· == '(')) (.seq (.rule orExpr) (.character (· == ')')))
  | reference => .plus (.character Char.isDigit)
  | orOp => .keyword "OR"
  | andOp => .keyword "AND"
  | notOp => .keyword "NOT"
  | endOfInput => .terminal .finish

/-- Whether a rule skips no blanks. -/
def Rule.isAtomic : Rule → Bool
  | reference | orOp | andOp | notOp => true
  | _ => false

/-! ### Matches -/

/-- A rule that has matched, with the text that it has matched and the pairs inside it. -/
inductive Pair
  | node (rule : Rule) (text : List Char) (inner : List Pair)

def Pair.rule : Pair → Rule
  | node rule _ _ => rule

def Pair.inner : Pair → List Pair
  | node _ _ inner => inner

/-- Skips the blanks that may stand here. -/
def skip (atomic : Bool) (cs : List Char) : List Char :=
  if atomic then cs else cs.dropWhile isSkipped

/-- The pairs of a rule that has matched from one place to another. An atomic rule has no
pairs inside it. -/
def Rule.pairs (rule : Rule) (atomic : Bool) (cs rest : List Char) (inner : List Pair) :
    List Pair :=
  if atomic then [] else [.node rule (cs.take (cs.length - rest.length)) inner]

/-- How an expression comes out before the rest of a text: it makes pairs and leaves a rest,
or it fails. -/
inductive Matches (text : List Char) :
    Bool → Expression → List Char → Option (List Pair × List Char) → Prop
  | terminal {atomic : Bool} {t : Terminal} {cs : List Char} :
      Matches text atomic (.terminal t) cs ((t.eat? text cs).map fun rest => ([], rest))
  | rule {atomic : Bool} {rule : Rule} {cs : List Char} {result : Option (List Pair × List Char)}
      (body : Matches text (atomic || rule.isAtomic) rule.body cs result) :
      Matches text atomic (.rule rule) cs
        (result.map fun (inner, rest) => (rule.pairs atomic cs rest inner, rest))
  | seq {atomic : Bool} {e f : Expression} {cs rest : List Char} {pairs : List Pair}
      {result : Option (List Pair × List Char)}
      (first : Matches text atomic e cs (some (pairs, rest)))
      (second : Matches text atomic f (skip atomic rest) result) :
      Matches text atomic (.seq e f) cs
        (result.map fun (later, last) => (pairs ++ later, last))
  | seq_fail {atomic : Bool} {e f : Expression} {cs : List Char}
      (first : Matches text atomic e cs none) : Matches text atomic (.seq e f) cs none
  | choice_first {atomic : Bool} {e f : Expression} {cs : List Char}
      {result : List Pair × List Char} (first : Matches text atomic e cs (some result)) :
      Matches text atomic (.choice e f) cs (some result)
  | choice_second {atomic : Bool} {e f : Expression} {cs : List Char}
      {result : Option (List Pair × List Char)} (first : Matches text atomic e cs none)
      (second : Matches text atomic f cs result) : Matches text atomic (.choice e f) cs result
  | star {atomic : Bool} {e : Expression} {cs rest last : List Char} {pairs later : List Pair}
      (first : Matches text atomic e cs (some (pairs, rest)))
      (others : Matches text atomic (.more e) rest (some (later, last))) :
      Matches text atomic (.star e) cs (some (pairs ++ later, last))
  | star_none {atomic : Bool} {e : Expression} {cs : List Char}
      (first : Matches text atomic e cs none) : Matches text atomic (.star e) cs (some ([], cs))
  | more {atomic : Bool} {e : Expression} {cs rest last : List Char} {pairs later : List Pair}
      (first : Matches text atomic e (skip atomic cs) (some (pairs, rest)))
      (others : Matches text atomic (.more e) rest (some (later, last))) :
      Matches text atomic (.more e) cs (some (pairs ++ later, last))
  | more_none {atomic : Bool} {e : Expression} {cs : List Char}
      (first : Matches text atomic e (skip atomic cs) none) :
      Matches text atomic (.more e) cs (some ([], cs))
  | absent {atomic : Bool} {e : Expression} {cs : List Char}
      (body : Matches text atomic e cs none) : Matches text atomic (.absent e) cs (some ([], cs))
  | absent_fail {atomic : Bool} {e : Expression} {cs : List Char}
      {result : List Pair × List Char} (body : Matches text atomic e cs (some result)) :
      Matches text atomic (.absent e) cs none

/-- An expression comes out in at most one way. -/
theorem Matches.unique {text : List Char} {atomic : Bool} {e : Expression} {cs : List Char}
    {result other : Option (List Pair × List Char)} (h : Matches text atomic e cs result)
    (h' : Matches text atomic e cs other) : result = other := by
  induction h generalizing other with
  | terminal =>
    cases h'
    rfl
  | rule _ ih =>
    cases h' with
    | rule body => rw [ih body]
  | seq _ _ ihfirst ihsecond =>
    cases h' with
    | seq first second =>
      cases ihfirst first
      rw [ihsecond second]
    | seq_fail first => cases ihfirst first
  | seq_fail _ ih =>
    cases h' with
    | seq first _ => cases ih first
    | seq_fail => rfl
  | choice_first _ ih =>
    cases h' with
    | choice_first first => exact ih first
    | choice_second first _ => cases ih first
  | choice_second _ _ ihfirst ihsecond =>
    cases h' with
    | choice_first first => cases ihfirst first
    | choice_second _ second => exact ihsecond second
  | star _ _ ihfirst ihothers =>
    cases h' with
    | star first others =>
      cases ihfirst first
      cases ihothers others
      rfl
    | star_none first => cases ihfirst first
  | star_none _ ih =>
    cases h' with
    | star first _ => cases ih first
    | star_none => rfl
  | more _ _ ihfirst ihothers =>
    cases h' with
    | more first others =>
      cases ihfirst first
      cases ihothers others
      rfl
    | more_none first => cases ihfirst first
  | more_none _ ih =>
    cases h' with
    | more first _ => cases ih first
    | more_none => rfl
  | absent _ ih =>
    cases h' with
    | absent => rfl
    | absent_fail body => cases ih body
  | absent_fail _ ih =>
    cases h' with
    | absent body => cases ih body
    | absent_fail => rfl

/-! ### Walking over pairs -/

/-- Why a text is turned down: the rules do not match it, or they match but not in a way that
the walk knows, or a row number is too large. -/
inductive Rejection
  | unmatched
  | malformed (message : String)
  | oversized (digits : List Char)

/-- A single operand stays as it is; several are combined. -/
def collapse (combine : List Formula → Formula) : List Formula → Except Rejection Formula
  | [] => .error (.malformed "Missing operand")
  | [f] => .ok f
  | fs => .ok (combine fs)

mutual

/-- The formula of a pair. Of the pairs inside it, those that it has no use for are passed
over. -/
def Pair.formula : Pair → Except Rejection Formula
  | .node .logic _ inner => soughtFormula "Empty expression" inner
  | .node .orExpr _ inner => (formulas .andExpr inner).bind (collapse any)
  | .node .andExpr _ inner => (formulas .notExpr inner).bind (collapse all)
  | .node .notExpr _ inner => negatedFormula 0 none inner
  | .node .primary _ inner => operandFormula inner
  | .node .group _ inner => (soughtFormula "Empty parentheses" inner).map group
  | .node .reference digits _ =>
    if maxRow < decimal digits then .error (.oversized digits) else .ok (row (decimal digits))
  | .node rule _ _ => .error (.malformed ("Unknown operand: " ++ rule.name))

/-- The formula of the first pair of the rule for operands of OR. -/
def soughtFormula (message : String) : List Pair → Except Rejection Formula
  | [] => .error (.malformed message)
  | pair :: rest => if pair.rule = .orExpr then pair.formula else soughtFormula message rest

/-- The formulas of the pairs of a rule. -/
def formulas (rule : Rule) : List Pair → Except Rejection (List Formula)
  | [] => .ok []
  | pair :: rest =>
    if pair.rule = rule then pair.formula.bind fun f => (formulas rule rest).map (f :: ·)
    else formulas rule rest

/-- The formula of an operand under the negations before it. -/
def negatedFormula (negations : Nat) (operand : Option Formula) :
    List Pair → Except Rejection Formula
  | [] =>
    match operand with
    | none => .error (.malformed "Missing operand after NOT")
    | some f => .ok (negate negations f)
  | pair :: rest =>
    if pair.rule = .notOp then negatedFormula (negations + 1) operand rest
    else if pair.rule = .primary then
      pair.formula.bind fun f => negatedFormula negations (some f) rest
    else negatedFormula negations operand rest

/-- The formula of a number or a group. -/
def operandFormula : List Pair → Except Rejection Formula
  | [] => .error (.malformed "Empty operand")
  | pair :: _ =>
    if pair.rule = .reference ∨ pair.rule = .group then pair.formula
    else .error (.malformed ("Unknown operand: " ++ pair.rule.name))

end

theorem soughtFormula_cons {pair : Pair} (h : pair.rule = .orExpr) (message : String)
    (rest : List Pair) : soughtFormula message (pair :: rest) = pair.formula := by
  rw [soughtFormula, if_pos h]

/-- What the rules make of a text. -/
inductive Parses (text : List Char) : Except Rejection Formula → Prop
  | unmatched (failed : Matches text false (.rule .logic) text none) :
      Parses text (.error .unmatched)
  | matched {pair : Pair} {rest : List Char}
      (matched : Matches text false (.rule .logic) text (some ([pair], rest))) :
      Parses text pair.formula

/-- The rules make at most one thing of a text. -/
theorem Parses.unique {text : List Char} {result other : Except Rejection Formula}
    (h : Parses text result) (h' : Parses text other) : result = other := by
  cases h with
  | unmatched failed =>
    cases h' with
    | unmatched => rfl
    | matched matched => cases failed.unique matched
  | matched matched =>
    cases h' with
    | unmatched failed => cases failed.unique matched
    | matched matched' =>
      cases matched.unique matched'
      rfl

end Formula
end QueryFilter
