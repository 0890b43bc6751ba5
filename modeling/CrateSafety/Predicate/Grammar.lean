import CrateSafety.Predicate.Token

/-!
# Grammar of predicates

Recursive descent from tokens to expressions. Each rule of the grammar is a goal; a goal reads a part of
the tokens and leaves the rest. The depth of the descent is bounded by a number computed from the count
of tokens.
-/

namespace CrateSafety

namespace Grammar

/-- Words that are not names. -/
def keywords : List String :=
  ["False", "None", "True", "and", "as", "assert", "async", "await", "break", "class", "continue",
    "def", "del", "elif", "else", "except", "finally", "for", "from", "global", "if", "import", "in",
    "is", "lambda", "nonlocal", "not", "or", "pass", "raise", "return", "try", "while", "with", "yield"]

/-- Whether a token is a name. -/
def isName (t : Token) : Bool :=
  t.kind = .word && !keywords.contains t.lexeme

/-- The gap before the next token. -/
def gapOf : List Token → String
  | t :: _ => t.gap
  | [] => ""

/-- Whether the next token is a given lexeme. -/
def nextIs (lexeme : String) : List Token → Bool
  | t :: _ => t.lexeme == lexeme
  | [] => false

/-- Whether the next token is one of the given lexemes. -/
def nextIn (lexemes : List String) : List Token → Bool
  | t :: _ => lexemes.contains t.lexeme
  | [] => false

/-- Reads a given lexeme. -/
def accept (lexeme : String) : List Token → Option (Token × List Token)
  | t :: rest => if t.lexeme == lexeme then some (t, rest) else none
  | [] => none

/-- A token as text with the gap before it. -/
def Token.piece (t : Token) : String :=
  t.gap ++ t.lexeme

/-- An operand after a gap. -/
def spaced (gap : String) (operand : Expr) (rest : Parts) : Parts :=
  if gap.isEmpty then .child operand rest else .text gap (.child operand rest)

/-- Relations written as one symbol or word. -/
def simpleRelation? : String → Option Relation
  | "in" => some (.membership false)
  | "is" => some (.identity false)
  | symbol => (Comparison.ofSymbol? symbol).map .order

/-- Reads a relation with its spelling. -/
def relation? : List Token → Option (Relation × String × List Token)
  | a :: b :: rest =>
    if a.lexeme == "not" && b.lexeme == "in" then
      some (.membership true, Token.piece a ++ Token.piece b ++ gapOf rest, rest)
    else if a.lexeme == "is" && b.lexeme == "not" then
      some (.identity true, Token.piece a ++ Token.piece b ++ gapOf rest, rest)
    else
      (simpleRelation? a.lexeme).map fun r => (r, Token.piece a ++ gapOf (b :: rest), b :: rest)
  | _ => none

/-- The word of a connective. -/
def connectiveWord : Connective → String
  | .and => "and"
  | .or => "or"

/-- The operators of the binary levels, from the loosest to the tightest. -/
def binaryOperators : Nat → List String
  | 0 => ["|"]
  | 1 => ["^"]
  | 2 => ["&"]
  | 3 => ["<<", ">>"]
  | 4 => ["+", "-"]
  | _ => ["*", "/", "//", "%", "@"]

/-- Whether an expression is an assignment without parentheses. -/
def isAssignment : Expr → Bool
  | .compound .assignment _ => true
  | _ => false

mutual

/-- Whether an expression may be assigned to by a comprehension. -/
def isTarget : Expr → Bool
  | .name id => !keywords.contains id
  | .member _ _ _ => true
  | .unit _ => true
  | .paren _ body _ => isTarget body
  | .compound shape parts =>
    match shape with
    | .subscript => true
    | .tuple => areTargets parts
    | .list => areTargets parts
    | .starred => areTargets parts
    | _ => false
  | _ => false

/-- Whether all operands may be assigned to by a comprehension. -/
def areTargets : Parts → Bool
  | .nil => true
  | .text _ rest => areTargets rest
  | .child operand rest => isTarget operand && areTargets rest

end

/-- What may still come in an argument list. -/
inductive ArgPhase where
  | positional
  | keyword
  | unpacking
  deriving DecidableEq

/-- What has been seen of a parameter list. -/
structure ParamState where
  /-- Some parameter was read. -/
  any : Bool := false
  /-- Some parameter had a default. -/
  defaults : Bool := false
  /-- The mark for positional parameters was read. -/
  slash : Bool := false
  /-- A star was read. -/
  star : Bool := false
  /-- A bare star awaits a name. -/
  needsName : Bool := false

/-- Goals whose result is an expression. -/
inductive ExprGoal where
  /-- One or more expressions, starred or not, separated by commas. -/
  | sequence
  /-- An expression, starred or not. -/
  | starOrExpr
  /-- An element of a bracketed list: starred, assigned or plain. -/
  | element
  /-- An assigned or plain expression. -/
  | named
  | expression
  | disjunction
  | conjunction
  | inversion
  | comparison
  | binary (level : Nat)
  | factor
  | power
  | awaited
  | primary
  | atom
  /-- Further operands of a connective. -/
  | junctionRest (op : Connective) (left : Expr)
  /-- Further links of a comparison. -/
  | comparisonRest (left : Expr)
  /-- Further operands of a binary operator. -/
  | binaryRest (level : Nat) (left : Expr)
  /-- Members, calls and subscripts of an expression. -/
  | trailers (base : Expr)
  /-- The targets of a comprehension clause. -/
  | targets
  /-- One target of a comprehension clause. -/
  | target
  /-- What stands in parentheses after `yield`. -/
  | yielded
  /-- A clause of a comprehension with those after it. -/
  | clause

/-- Goals whose result is a list of parts. -/
inductive PartsGoal where
  /-- Further elements up to a closing bracket, which is left in place. -/
  | moreElements (close : String)
  /-- Further expressions of a sequence without brackets. -/
  | moreSequence
  /-- Further targets. -/
  | moreTargets
  /-- Further pairs of a dictionary up to its closing bracket, which is left in place. -/
  | morePairs
  /-- A pair of a dictionary, or an unpacked one. -/
  | pair
  /-- Arguments up to and with the closing parenthesis. -/
  | args (phase : ArgPhase) (sole : Bool)
  /-- What follows an argument. -/
  | argsRest (phase : ArgPhase)
  /-- Subscripts up to and with the closing bracket. -/
  | subscripts
  /-- What follows a subscript. -/
  | subscriptsRest
  /-- A colon of a slice and what follows it; `more` if a second colon may come. -/
  | sliceRest (more : Bool)
  /-- Parameters up to the colon, which is left in place. -/
  | params (state : ParamState)
  /-- What follows a parameter. -/
  | paramsRest (state : ParamState) (last : Bool)
  /-- Conditions of a clause and the clause after it. -/
  | clauseRest

mutual

/-- Reads an expression. -/
def parseExpr : Nat → ExprGoal → List Token → Option (Expr × List Token)
  | 0, _, _ => none
  | n + 1, goal, ts =>
    match goal with
    | .sequence => do
      let (first, rest) ← parseExpr n .starOrExpr ts
      if nextIs "," rest then
        let (more, rest) ← parseParts n .moreSequence rest
        some (.compound .tuple (.child first more), rest)
      else some (first, rest)
    | .starOrExpr =>
      match ts with
      | t :: rest =>
        if t.lexeme == "*" then do
          let (operand, after) ← parseExpr n (.binary 0) rest
          some (.compound .starred (.text t.lexeme (spaced (gapOf rest) operand .nil)), after)
        else parseExpr n .expression ts
      | [] => none
    | .element =>
      match ts with
      | t :: rest =>
        if t.lexeme == "*" then do
          let (operand, after) ← parseExpr n (.binary 0) rest
          some (.compound .starred (.text t.lexeme (spaced (gapOf rest) operand .nil)), after)
        else parseExpr n .named ts
      | [] => none
    | .named =>
      match ts with
      | t :: a :: rest =>
        if isName t && a.lexeme == ":=" then do
          let (value, after) ← parseExpr n .expression rest
          some (.compound .assignment
            (.child (.name t.lexeme) (.text (Token.piece a) (spaced (gapOf rest) value .nil))), after)
        else parseExpr n .expression ts
      | _ => parseExpr n .expression ts
    | .expression =>
      match ts with
      | t :: rest =>
        if t.lexeme == "lambda" then do
          let (params, after) ← parseParts n (.params {}) rest
          let (colon, after) ← accept ":" after
          let (body, final) ← parseExpr n .expression after
          some (.compound .lambda (.text t.lexeme (params.append
            (.text (Token.piece colon) (spaced (gapOf after) body .nil)))), final)
        else do
          let (body, after) ← parseExpr n .disjunction ts
          match accept "if" after with
          | some (ifToken, afterIf) => do
            let (test, rest) ← parseExpr n .disjunction afterIf
            let (elseToken, afterElse) ← accept "else" rest
            let (other, final) ← parseExpr n .expression afterElse
            some (.compound .conditional (.child body (.text (Token.piece ifToken)
              (spaced (gapOf afterIf) test (.text (Token.piece elseToken)
                (spaced (gapOf afterElse) other .nil))))), final)
          | none => some (body, after)
      | [] => none
    | .disjunction => do
      let (first, rest) ← parseExpr n .conjunction ts
      parseExpr n (.junctionRest .or first) rest
    | .conjunction => do
      let (first, rest) ← parseExpr n .inversion ts
      parseExpr n (.junctionRest .and first) rest
    | .junctionRest op left =>
      match accept (connectiveWord op) ts with
      | some (t, rest) => do
        let (right, after) ← parseExpr n (if op = .or then .conjunction else .inversion) rest
        parseExpr n (.junctionRest op (.junction left op (Token.piece t ++ gapOf rest) right)) after
      | none => some (left, ts)
    | .inversion =>
      match accept "not" ts with
      | some (_, rest) => do
        let (operand, after) ← parseExpr n .inversion rest
        some (.negation (gapOf rest) operand, after)
      | none => parseExpr n .comparison ts
    | .comparison => do
      let (first, rest) ← parseExpr n (.binary 0) ts
      parseExpr n (.comparisonRest first) rest
    | .comparisonRest left =>
      match relation? ts with
      | some (op, spelling, rest) => do
        let (right, after) ← parseExpr n (.binary 0) rest
        if (relation? after).isSome then
          let (links, final) ← parseExpr n (.comparisonRest right) after
          some (.chain left op spelling links, final)
        else some (.compare left op spelling right, after)
      | none => some (left, ts)
    | .binary level => do
      let (first, rest) ← parseExpr n (if level < 5 then .binary (level + 1) else .factor) ts
      parseExpr n (.binaryRest level first) rest
    | .binaryRest level left =>
      match ts with
      | t :: rest =>
        if (binaryOperators level).contains t.lexeme then do
          let (right, after) ← parseExpr n (if level < 5 then .binary (level + 1) else .factor) rest
          parseExpr n (.binaryRest level (.compound .binary
            (.child left (.text (Token.piece t) (spaced (gapOf rest) right .nil))))) after
        else some (left, ts)
      | [] => some (left, ts)
    | .factor =>
      match ts with
      | t :: rest =>
        if t.lexeme == "-" then do
          let (operand, after) ← parseExpr n .factor rest
          some (.minus (gapOf rest) operand, after)
        else if t.lexeme == "+" || t.lexeme == "~" then do
          let (operand, after) ← parseExpr n .factor rest
          some (.compound .unary (.text t.lexeme (spaced (gapOf rest) operand .nil)), after)
        else parseExpr n .power ts
      | [] => none
    | .power => do
      let (base, rest) ← parseExpr n .awaited ts
      match accept "**" rest with
      | some (t, rest) => do
        let (exponent, after) ← parseExpr n .factor rest
        some (.compound .binary
          (.child base (.text (Token.piece t) (spaced (gapOf rest) exponent .nil))), after)
      | none => some (base, rest)
    | .awaited =>
      match accept "await" ts with
      | some (t, rest) => do
        let (operand, after) ← parseExpr n .primary rest
        some (.compound .await (.text t.lexeme (spaced (gapOf rest) operand .nil)), after)
      | none => parseExpr n .primary ts
    | .primary => do
      let (base, rest) ← parseExpr n .atom ts
      parseExpr n (.trailers base) rest
    | .trailers base =>
      match ts with
      | t :: rest =>
        if t.lexeme == "." then
          match rest with
          | field :: after =>
            if isName field then
              parseExpr n (.trailers (.member base (Token.piece t ++ field.gap) field.lexeme)) after
            else none
          | [] => none
        else if t.lexeme == "(" then do
          let (args, after) ← parseParts n (.args .positional true) rest
          parseExpr n (.trailers (.call base (.text (Token.piece t) args))) after
        else if t.lexeme == "[" then do
          let (subscripts, after) ← parseParts n .subscripts rest
          parseExpr n (.trailers
            (.compound .subscript (.child base (.text (Token.piece t) subscripts)))) after
        else some (base, ts)
      | [] => some (base, ts)
    | .atom =>
      match ts with
      | [] => none
      | t :: rest =>
        match t.kind with
        | .number kind => some (.number kind t.lexeme, rest)
        | .quoted =>
          let more := rest.takeWhile fun u => u.kind = .quoted
          if more.isEmpty then some (.quoted t.lexeme, rest)
          else
            let tail := more.foldr (fun u parts => Parts.text u.gap (.text u.lexeme parts)) .nil
            some (.compound .strings (.text t.lexeme tail), rest.drop more.length)
        | .word =>
          if isName t || ["True", "False", "None"].contains t.lexeme then some (.name t.lexeme, rest)
          else none
        | .symbol =>
          match t.lexeme with
          | "..." => some (.compound .ellipsis (.text t.lexeme .nil), rest)
          | "(" =>
            match accept ")" rest with
            | some (close, after) => some (.unit close.gap, after)
            | none =>
              if nextIs "yield" rest then do
                let (body, after) ← parseExpr n .yielded rest
                let (close, final) ← accept ")" after
                some (.paren (gapOf rest) body close.gap, final)
              else do
                let (first, after) ← parseExpr n .element rest
                if nextIs "," after then
                  let (more, after) ← parseParts n (.moreElements ")") after
                  let (close, final) ← accept ")" after
                  some (.paren (gapOf rest) (.compound .tuple (.child first more)) close.gap, final)
                else if nextIn ["for", "async"] after then
                  let (clause, after) ← parseExpr n .clause after
                  let (close, final) ← accept ")" after
                  some (.paren (gapOf rest)
                    (.compound .generator (.child first (.child clause .nil))) close.gap, final)
                else if first.isStarred then none
                else
                  let (close, final) ← accept ")" after
                  some (.paren (gapOf rest) first close.gap, final)
          | "[" =>
            match accept "]" rest with
            | some (close, after) =>
              some (.compound .list (.text t.lexeme (.text (Token.piece close) .nil)), after)
            | none => do
              let (first, after) ← parseExpr n .element rest
              if nextIn ["for", "async"] after then
                let (clause, after) ← parseExpr n .clause after
                let (close, final) ← accept "]" after
                some (.compound .comprehension (.text t.lexeme (spaced (gapOf rest) first
                  (.child clause (.text (Token.piece close) .nil)))), final)
              else
                let (more, after) ← parseParts n (.moreElements "]") after
                let (close, final) ← accept "]" after
                some (.compound .list (.text t.lexeme (spaced (gapOf rest) first
                  (more.append (.text (Token.piece close) .nil)))), final)
          | "\x7b" =>
            match accept "\x7d" rest with
            | some (close, after) =>
              some (.compound .dict (.text t.lexeme (.text (Token.piece close) .nil)), after)
            | none =>
              if nextIs "**" rest then do
                let (pairs, after) ← parseParts n .pair rest
                if nextIn ["for", "async"] after then
                  let (clause, after) ← parseExpr n .clause after
                  let (close, final) ← accept "\x7d" after
                  some (.compound .comprehension (.text t.lexeme (pairs.append (.child clause
                    (.text (Token.piece close) .nil)))), final)
                else
                  let (more, after) ← parseParts n .morePairs after
                  let (close, final) ← accept "\x7d" after
                  some (.compound .dict (.text t.lexeme (pairs.append (more.append
                    (.text (Token.piece close) .nil)))), final)
              else do
                let (first, after) ← parseExpr n .element rest
                if nextIs ":" after then
                  let (pairs, after) ← parseParts n .pair rest
                  if nextIn ["for", "async"] after then
                    let (clause, after) ← parseExpr n .clause after
                    let (close, final) ← accept "\x7d" after
                    some (.compound .comprehension (.text t.lexeme (pairs.append (.child clause
                      (.text (Token.piece close) .nil)))), final)
                  else
                    let (more, after) ← parseParts n .morePairs after
                    let (close, final) ← accept "\x7d" after
                    some (.compound .dict (.text t.lexeme (pairs.append (more.append
                      (.text (Token.piece close) .nil)))), final)
                else if nextIn ["for", "async"] after then
                  let (clause, after) ← parseExpr n .clause after
                  let (close, final) ← accept "\x7d" after
                  some (.compound .comprehension (.text t.lexeme (spaced (gapOf rest) first
                    (.child clause (.text (Token.piece close) .nil)))), final)
                else
                  let (more, after) ← parseParts n (.moreElements "\x7d") after
                  let (close, final) ← accept "\x7d" after
                  some (.compound .set (.text t.lexeme (spaced (gapOf rest) first
                    (more.append (.text (Token.piece close) .nil)))), final)
          | _ => none
    | .targets => do
      let (first, rest) ← parseExpr n .target ts
      if nextIs "," rest then
        let (more, rest) ← parseParts n .moreTargets rest
        some (.compound .tuple (.child first more), rest)
      else some (first, rest)
    | .target =>
      match ts with
      | t :: rest =>
        if t.lexeme == "*" then
          if nextIs "*" rest then none
          else do
            let (operand, after) ← parseExpr n .target rest
            some (.compound .starred (.text t.lexeme (spaced (gapOf rest) operand .nil)), after)
        else do
          let (operand, after) ← parseExpr n .primary ts
          if isTarget operand then some (operand, after) else none
      | [] => none
    | .yielded =>
      match ts with
      | t :: rest =>
        match accept "from" rest with
        | some (fromToken, after) => do
          let (source, final) ← parseExpr n .expression after
          some (.compound .yield (.text t.lexeme (.text (Token.piece fromToken)
            (spaced (gapOf after) source .nil))), final)
        | none =>
          if nextIs ")" rest then some (.compound .yield (.text t.lexeme .nil), rest)
          else do
            let (value, after) ← parseExpr n .sequence rest
            some (.compound .yield (.text t.lexeme (spaced (gapOf rest) value .nil)), after)
      | [] => none
    | .clause => do
      let (lead, ts) ←
        match accept "async" ts with
        | some (t, rest) => some (Token.piece t, rest)
        | none => some ("", ts)
      let (forToken, rest) ← accept "for" ts
      let (targets, after) ← parseExpr n .targets rest
      let (inToken, afterIn) ← accept "in" after
      let (source, final) ← parseExpr n .disjunction afterIn
      let (more, final) ← parseParts n .clauseRest final
      some (.compound .clause (.text (lead ++ Token.piece forToken) (spaced (gapOf rest) targets
        (.text (Token.piece inToken) (spaced (gapOf afterIn) source more)))), final)

/-- Reads a list of parts. -/
def parseParts : Nat → PartsGoal → List Token → Option (Parts × List Token)
  | 0, _, _ => none
  | n + 1, goal, ts =>
    match goal with
    | .moreElements close =>
      match accept "," ts with
      | some (comma, rest) =>
        if nextIs close rest then some (.text (Token.piece comma) .nil, rest)
        else do
          let (next, after) ← parseExpr n .element rest
          let (more, final) ← parseParts n (.moreElements close) after
          some (.text (Token.piece comma) (spaced (gapOf rest) next more), final)
      | none => some (.nil, ts)
    | .moreSequence =>
      match accept "," ts with
      | some (comma, rest) =>
        match parseExpr n .starOrExpr rest with
        | some (next, after) => do
          let (more, final) ← parseParts n .moreSequence after
          some (.text (Token.piece comma) (spaced (gapOf rest) next more), final)
        | none => some (.text (Token.piece comma) .nil, rest)
      | none => some (.nil, ts)
    | .moreTargets =>
      match accept "," ts with
      | some (comma, rest) =>
        if nextIs "in" rest then some (.text (Token.piece comma) .nil, rest)
        else do
          let (next, after) ← parseExpr n .target rest
          let (more, final) ← parseParts n .moreTargets after
          some (.text (Token.piece comma) (spaced (gapOf rest) next more), final)
      | none => some (.nil, ts)
    | .morePairs =>
      match accept "," ts with
      | some (comma, rest) =>
        if nextIs "\x7d" rest then some (.text (Token.piece comma) .nil, rest)
        else do
          let (next, after) ← parseParts n .pair rest
          let (more, final) ← parseParts n .morePairs after
          some (.text (Token.piece comma) (next.append more), final)
      | none => some (.nil, ts)
    | .pair =>
      match accept "**" ts with
      | some (star, rest) => do
        let (operand, after) ← parseExpr n (.binary 0) rest
        some (.text (Token.piece star) (spaced (gapOf rest) operand .nil), after)
      | none => do
        let (key, after) ← parseExpr n .expression ts
        let (colon, rest) ← accept ":" after
        let (value, final) ← parseExpr n .expression rest
        some (spaced (gapOf ts) key (.text (Token.piece colon) (spaced (gapOf rest) value .nil)), final)
    | .args phase sole =>
      match ts with
      | [] => none
      | t :: rest =>
        if t.lexeme == ")" then some (.text (Token.piece t) .nil, rest)
        else if t.lexeme == "**" then do
          let (value, after) ← parseExpr n .expression rest
          let (more, final) ← parseParts n (.argsRest .unpacking) after
          some (.text (Token.piece t) (spaced (gapOf rest) value more), final)
        else if t.lexeme == "*" then
          if phase = .unpacking then none
          else do
            let (value, after) ← parseExpr n .expression rest
            if nextIn ["for", "async"] after then
              if sole then
                let (element, after) ← parseExpr n .element ts
                let (clause, after) ← parseExpr n .clause after
                let (close, final) ← accept ")" after
                some (spaced t.gap (.compound .generator (.child element (.child clause .nil)))
                  (.text (Token.piece close) .nil), final)
              else none
            else
              let (more, final) ← parseParts n (.argsRest phase) after
              some (.text (Token.piece t) (spaced (gapOf rest) value more), final)
        else if isName t && nextIs "=" rest then do
          let (equal, rest) ← accept "=" rest
          let (value, after) ← parseExpr n .expression rest
          let (more, final) ← parseParts n
            (.argsRest (if phase = .positional then .keyword else phase)) after
          some (spaced t.gap (.compound .label (.text t.lexeme .nil))
            (.text (Token.piece equal) (spaced (gapOf rest) value more)), final)
        else if phase = .positional then do
          let (value, after) ← parseExpr n .named ts
          if nextIn ["for", "async"] after then
            if sole then
              let (clause, after) ← parseExpr n .clause after
              let (close, final) ← accept ")" after
              some (spaced t.gap (.compound .generator (.child value (.child clause .nil)))
                (.text (Token.piece close) .nil), final)
            else none
          else
            let (more, final) ← parseParts n (.argsRest .positional) after
            some (spaced t.gap value more, final)
        else none
    | .argsRest phase =>
      match ts with
      | t :: rest =>
        if t.lexeme == "," then do
          let (more, final) ← parseParts n (.args phase false) rest
          some (.text (Token.piece t) more, final)
        else if t.lexeme == ")" then some (.text (Token.piece t) .nil, rest)
        else none
      | [] => none
    | .subscripts =>
      match ts with
      | [] => none
      | t :: rest =>
        if t.lexeme == ":" then parseParts n (.sliceRest true) ts
        else if t.lexeme == "*" then do
          let (value, after) ← parseExpr n .expression rest
          let (more, final) ← parseParts n .subscriptsRest after
          some (spaced t.gap (.compound .starred (.text t.lexeme (spaced (gapOf rest) value .nil))) more,
            final)
        else do
          let (value, after) ← parseExpr n .named ts
          if nextIs ":" after then
            if isAssignment value then none
            else
              let (more, final) ← parseParts n (.sliceRest true) after
              some (spaced t.gap value more, final)
          else
            let (more, final) ← parseParts n .subscriptsRest after
            some (spaced t.gap value more, final)
    | .sliceRest more => do
      let (colon, rest) ← accept ":" ts
      if nextIs ":" rest && more then
        let (tail, final) ← parseParts n (.sliceRest false) rest
        some (.text (Token.piece colon) tail, final)
      else if nextIn [",", "]"] rest then
        let (tail, final) ← parseParts n .subscriptsRest rest
        some (.text (Token.piece colon) tail, final)
      else
        let (value, after) ← parseExpr n .expression rest
        if nextIs ":" after && more then
          let (tail, final) ← parseParts n (.sliceRest false) after
          some (.text (Token.piece colon) (spaced (gapOf rest) value tail), final)
        else
          let (tail, final) ← parseParts n .subscriptsRest after
          some (.text (Token.piece colon) (spaced (gapOf rest) value tail), final)
    | .subscriptsRest =>
      match ts with
      | t :: rest =>
        if t.lexeme == "," then
          match accept "]" rest with
          | some (close, after) =>
            some (.text (Token.piece t) (.text (Token.piece close) .nil), after)
          | none => do
            let (more, final) ← parseParts n .subscripts rest
            some (.text (Token.piece t) more, final)
        else if t.lexeme == "]" then some (.text (Token.piece t) .nil, rest)
        else none
      | [] => none
    | .params state =>
      match ts with
      | [] => none
      | t :: rest =>
        if t.lexeme == ":" then if state.needsName then none else some (.nil, ts)
        else if t.lexeme == "/" then
          if !state.any || state.slash || state.star then none
          else do
            let (more, final) ← parseParts n (.paramsRest { state with slash := true } false) rest
            some (.text (Token.piece t) more, final)
        else if t.lexeme == "**" then
          if state.needsName then none
          else
            match rest with
            | name :: after =>
              if isName name then do
                let (more, final) ← parseParts n (.paramsRest state true) after
                some (.text (Token.piece t) (spaced name.gap (.name name.lexeme) more), final)
              else none
            | [] => none
        else if t.lexeme == "*" then
          if state.star then none
          else
            match rest with
            | name :: after =>
              if name.lexeme == "," then do
                let (more, final) ← parseParts n
                  (.paramsRest { state with star := true, needsName := true } false) rest
                some (.text (Token.piece t) more, final)
              else if isName name then do
                let (more, final) ← parseParts n (.paramsRest { state with star := true } false) after
                some (.text (Token.piece t) (spaced name.gap (.name name.lexeme) more), final)
              else none
            | [] => none
        else if isName t then
          match accept "=" rest with
          | some (equal, after) => do
            let (value, after') ← parseExpr n .expression after
            let (more, final) ← parseParts n (.paramsRest
              { state with any := true, defaults := true, needsName := false } false) after'
            some (spaced t.gap (.name t.lexeme) (.text (Token.piece equal)
              (spaced (gapOf after) value more)), final)
          | none =>
            if state.defaults && !state.star then none
            else do
              let (more, final) ← parseParts n
                (.paramsRest { state with any := true, needsName := false } false) rest
              some (spaced t.gap (.name t.lexeme) more, final)
        else none
    | .paramsRest state last =>
      match ts with
      | t :: rest =>
        if t.lexeme == ":" then if state.needsName then none else some (.nil, ts)
        else if t.lexeme == "," then
          if last then
            if nextIs ":" rest then some (.text (Token.piece t) .nil, rest) else none
          else do
            let (more, final) ← parseParts n (.params state) rest
            some (.text (Token.piece t) more, final)
        else none
      | [] => none
    | .clauseRest =>
      match accept "if" ts with
      | some (ifToken, rest) => do
        let (test, after) ← parseExpr n .disjunction rest
        let (more, final) ← parseParts n .clauseRest after
        some (.child (.compound .condition
          (.text (Token.piece ifToken) (spaced (gapOf rest) test .nil))) more, final)
      | none =>
        if nextIn ["for", "async"] ts then do
          let (clause, final) ← parseExpr n .clause ts
          some (.child clause .nil, final)
        else some (.nil, ts)

end

/-- The expression that makes up all of a token list. -/
def parse? (ts : List Token) : Option Expr :=
  match parseExpr (30 * (ts.length + 2)) .sequence ts with
  | some (e, []) => some e
  | _ => none

end Grammar

/-- Reads a text as an expression; `none` if it is none. -/
def Expr.parse? (cs : List Char) : Option Expr := do
  Grammar.parse? (← Token.tokenize cs)

end CrateSafety
