import CrateSafety.Requirement.Reading

/-!
# Justifications

A justification is a text at an operation site, made of clauses that claim atoms and may give a reason.
-/

namespace CrateSafety

/-- One clause of a justification. -/
structure Claim where
  /-- The clause. -/
  text : String
  /-- The claimed atoms. -/
  atoms : Conjunction
  /-- The reason, empty if none is given. -/
  reason : String

/-- A justification with its clauses. -/
structure Justification where
  /-- The text as written. -/
  raw : String
  /-- The claims in order. -/
  claims : List Claim

namespace Claim

/-- Drops the slashes of a line comment, and the blanks after them. -/
def dropSlashes (cs : List Char) : List Char :=
  match cs with
  | '/' :: '/' :: rest => (rest.dropWhile (· == '/')).dropWhile Text.isBlank
  | _ => cs

/-- Whether a character spells a letter of the marker, in either case; a long s counts as an s. -/
def spells (letter c : Char) : Bool :=
  c.toUpper == letter || (letter == 'S' && c.toNat == 0x17f)

/-- Drops letters of the marker. -/
def dropLetters? : List Char → List Char → Option (List Char)
  | [], cs => some cs
  | letter :: letters, c :: cs => if spells letter c then dropLetters? letters cs else none
  | _ :: _, [] => none

/-- Drops the marker at the start of a text, if it is there. -/
def dropMarker (cs : List Char) : List Char :=
  match dropLetters? "SAFETY".toList (dropSlashes (cs.dropWhile Text.isBlank)) with
  | some rest =>
    match rest.dropWhile Text.isBlank with
    | ':' :: more => more.dropWhile Text.isBlank
    | _ => cs
  | none => cs

/-- What follows a mark and its blanks, or the whole text if no blank follows. -/
def afterMark (whole rest : List Char) : List Char :=
  match rest with
  | c :: _ => if Text.isBlank c then rest.dropWhile Text.isBlank else whole
  | [] => whole

/-- Drops a bullet, or a number with a stop or a bracket, before a blank. -/
def dropItemMark (cs : List Char) : List Char :=
  match cs with
  | c :: rest =>
    if c == '-' || c == '*' || c.toNat == 0x2022 then afterMark cs rest
    else if Text.isDecimalDigit c then
      match rest.dropWhile Text.isDecimalDigit with
      | '.' :: more => afterMark cs more
      | ')' :: more => afterMark cs more
      | _ => cs
    else cs
  | [] => cs

/-- Drops leading blanks, comment slashes and the mark of a list item. -/
def dropBullet (cs : List Char) : List Char :=
  dropItemMark (dropSlashes (cs.dropWhile Text.isBlank))

/-- The positions of the colons that are not part of a path separator, given the character before and
its position. -/
def colonsAfter (previous : Option Char) (position : Nat) : List Char → List Nat
  | [] => []
  | c :: rest =>
    let others := colonsAfter (some c) (position + 1) rest
    if c == ':' && previous != some ':' && rest.head? != some ':' then position :: others else others

/-- A clause cut at a position into predicate and reason, `width` characters left out. -/
def cutAt (clause : List Char) (position width : Nat) : List Char × List Char :=
  (Text.trim (clause.take position), Text.trim (clause.drop (position + width)))

/-- Whether a text is an expression. -/
def isExpression (cs : List Char) : Except PredicateError Bool := do
  return (← Reading.expression? cs).isSome

/-- The first of the positions before which the clause is an expression. -/
def expressionEnd? (clause : List Char) : List Nat → Except PredicateError (Option Nat)
  | [] => .ok none
  | position :: rest => do
    if ← isExpression (clause.take position) then return some position
    else expressionEnd? clause rest

/-- The word that introduces a reason. -/
def because : List Char := " because ".toList

/-- Cuts a clause into its predicate and its reason: at the word for a reason, else at the first colon
after which an expression ends, else nowhere if all of it is an expression, else at the first colon. -/
def split (clause : List Char) : Except PredicateError (List Char × List Char) := do
  match Text.find? because (Text.lower clause) with
  | some position => return cutAt clause position because.length
  | none =>
    let colons := colonsAfter none 0 clause
    match ← expressionEnd? clause colons with
    | some position => return cutAt clause position 1
    | none =>
      if ← isExpression clause then return (Text.trim clause, [])
      else
        match colons with
        | position :: _ => return cutAt clause position 1
        | [] => return (Text.trim clause, [])

/-- The atoms that a predicate claims: those of its only alternative, or the predicate as a whole. -/
def claimed (predicate : List Char) : Except PredicateError Conjunction := do
  let text := String.ofList predicate
  match ← Reading.parseDnf text with
  | [atoms] => return atoms
  | _ =>
    match ← Reading.expression? predicate with
    | some e => return [← Atom.ofExpr e (Reading.pathHeads predicate)]
    | none => return [Atom.ofProse predicate]

/-- The claim of a line, if it has a predicate. -/
def ofLine? (line : List Char) : Except PredicateError (Option Claim) := do
  let clause := Text.trim (dropMarker (dropBullet line))
  if clause.isEmpty then return none
  let (predicate, reason) ← split clause
  if predicate.isEmpty then return none
  return some ⟨String.ofList clause, ← claimed predicate, String.ofList reason⟩

end Claim

/-- The justification written as `raw`; `none` if there is no text but blanks. -/
def Justification.parse (raw : Option String) : Except PredicateError (Option Justification) := do
  match raw with
  | none => return none
  | some raw =>
    if !Text.hasInk raw.toList then return none
    let lines := Text.splitAt (fun c => c == '\n' || c == ';') (Claim.dropMarker raw.toList)
    let claims ← lines.mapM Claim.ofLine?
    return some ⟨raw, claims.filterMap id⟩

end CrateSafety
