import CrateSafety.Snapshot.Fault
import CrateSafety.Snapshot.Json
import CrateSafety.Text.Basic

/-!
# Reading of values

Texts, truth values, integers, lists, mappings and the fields of records. Truth values and integers are
also accepted in spelled form.
-/

namespace CrateSafety.Read

variable {α : Type}

/-- A text. -/
def text : Json → Checked String
  | .string s => .valid s
  | _ => .fault .notText

/-- A value that may be null. -/
def nullable (read : Json → Checked α) : Json → Checked (Option α)
  | .null => .valid none
  | value => some <$> read value

/-- The spellings of false. -/
def falseSpellings : List String := ["0", "off", "f", "false", "n", "no"]

/-- The spellings of true. -/
def trueSpellings : List String := ["1", "on", "t", "true", "y", "yes"]

/-- A whole number as a truth value. -/
def flagOfInt (n : Int) : Checked Bool :=
  if n = 0 then .valid false else if n = 1 then .valid true else .fault .unreadFlag

/-- Whether an integer fits in 64 bits with a sign. -/
def fitsWord (n : Int) : Bool :=
  -(Int.pow 2 63) ≤ n && n < Int.pow 2 63

/-- A number without a fraction, of magnitude below 2 ^ 63, as an integer. -/
def intOfDouble : Double → Checked Int
  | .posInf => .fault .infinite
  | .negInf => .fault .infinite
  | .negZero => .valid 0
  | .finite q =>
    if q.den ≠ 1 then .fault .fractional
    else if q.num.natAbs < Nat.pow 2 63 then .valid q.num
    else .fault .oversizedInteger

/-- A truth value: plain, zero or one, or spelled in either case. -/
def flag : Json → Checked Bool
  | .bool b => .valid b
  | .string s =>
    let spelled := s.toLower
    if falseSpellings.contains spelled then .valid false
    else if trueSpellings.contains spelled then .valid true
    else .fault .unreadFlag
  | .integer n => if fitsWord n then flagOfInt n else .fault .notFlag
  | .decimal d =>
    match intOfDouble d with
    | .valid n => flagOfInt n
    | .invalid _ => .fault .notFlag
  | _ => .fault .notFlag

/-- Blanks around a spelled integer: those of texts, the separators U+001C to U+001F apart. -/
def isMargin (c : Char) : Bool :=
  Text.isBlank c && !(28 ≤ c.toNat && c.toNat ≤ 31)

/-- Digits with single underscores between them, as a number; `n` is what was read before. -/
def digitsFrom (n : Nat) : List Char → Option Nat
  | [] => some n
  | '_' :: c :: rest => if c.isDigit then digitsFrom (n * 10 + (c.toNat - 48)) rest else none
  | c :: rest => if c.isDigit then digitsFrom (n * 10 + (c.toNat - 48)) rest else none

/-- A spelled number without its leading zeros and the underscores among them. The last character stands
for the number if nothing else is left. -/
def withoutLeadingZeros : List Char → List Char
  | '0' :: rest =>
    match rest.dropWhile fun c => c == '0' || c == '_' with
    | [] => [rest.getLastD '0']
    | body => body
  | cs => cs

/-- A spelled natural number: digits, and a fraction of zeros at most. -/
def natural? (cs : List Char) : Option Nat :=
  let whole := withoutLeadingZeros (cs.takeWhile (· != '.'))
  let fraction := (cs.dropWhile (· != '.')).drop 1
  match whole with
  | c :: _ => if c.isDigit && fraction.all (· == '0') then digitsFrom 0 whole else none
  | [] => none

/-- A spelled integer: a sign and a natural number. -/
def integer? (cs : List Char) : Option Int :=
  match cs with
  | '-' :: rest => (natural? rest).map fun n => -(n : Int)
  | '+' :: rest => (natural? rest).map fun n => (n : Int)
  | rest => (natural? rest).map fun n => (n : Int)

/-- The most digits of a spelled integer. -/
def maxDigits : Nat := 4300

/-- A spelled integer with blanks around. -/
def spelledInteger (cs : List Char) : Checked Int :=
  let spelled := Text.dropEndWhile isMargin (cs.dropWhile isMargin)
  match integer? spelled with
  | some n => if n.natAbs < Nat.pow 10 maxDigits then .valid n else .fault .oversizedInteger
  | none => .fault .unreadInteger

/-- An integer: plain, a number without a fraction, a truth value, or spelled. -/
def integer : Json → Checked Int
  | .integer n => .valid n
  | .bool b => .valid (if b then 1 else 0)
  | .decimal d => intOfDouble d
  | .string s => spelledInteger s.toList
  | _ => .fault .notInteger

/-- The items of a list, each checked at its position. -/
def items (read : Json → Checked α) (position : Nat) : List Json → Checked (List α)
  | [] => .valid []
  | value :: rest =>
    List.cons <$> (read value).beneath (.index position) <*> items read (position + 1) rest

/-- A list. -/
def list (read : Json → Checked α) : Json → Checked (List α)
  | .array values => items read 0 values
  | _ => .fault .notList

/-- A list of distinct values. -/
def set (read : Json → Checked String) : Json → Checked (List String)
  | .array values => Text.distinct <$> items read 0 values
  | _ => .fault .notSet

/-- The values of a mapping, each checked at its key. -/
def entries (read : Json → Checked α) : List (String × Json) → Checked (List (String × α))
  | [] => .valid []
  | (key, value) :: rest =>
    List.cons <$> (Prod.mk key <$> (read value).beneath (.name key)) <*> entries read rest

/-- A mapping, its entries in order. -/
def mapping (read : Json → Checked α) : Json → Checked (List (String × α))
  | .object fields => entries read fields
  | _ => .fault .notMapping

/-- A member of an enumeration, given by its name. -/
def member (members : List (String × α)) (cause : Cause) : Json → Checked α
  | .string s =>
    match members.find? fun entry => entry.1 == s with
    | some entry => .valid entry.2
    | none => .fault cause
  | _ => .fault cause

/-- A record of the named type. -/
def record (type : String) (read : List (String × Json) → Checked α) : Json → Checked α
  | .object fields => read fields
  | _ => .fault (.notRecord type)

/-- A required field. -/
def required (fields : List (String × Json)) (name : String) (read : Json → Checked α) : Checked α :=
  match Json.field? fields name with
  | some value => (read value).beneath (.name name)
  | none => (Checked.fault .missing).beneath (.name name)

/-- A field with a default. -/
def optional (fields : List (String × Json)) (name : String) (default : α) (read : Json → Checked α) :
    Checked α :=
  match Json.field? fields name with
  | some value => (read value).beneath (.name name)
  | none => .valid default

/-- A value whose record has no fields but the known ones; unknown fields come last, in order. -/
def closed (fields : List (String × Json)) (known : List String) (value : Checked α) : Checked α :=
  let unknown := fields.filter fun entry => !known.contains entry.1
  let check : Checked Unit :=
    if unknown.isEmpty then .valid () else .invalid (unknown.map fun entry => ⟨[.name entry.1], .unknownField⟩)
  (fun v _ => v) <$> value <*> check

end CrateSafety.Read
