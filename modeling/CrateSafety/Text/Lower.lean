import CrateSafety.Text.Class

/-!
# Lowering of letters

Full lowering of a text. One capital lowers to two characters, and a capital sigma at the end of a word
lowers to the final form.
-/

namespace CrateSafety.Text

/-- The lower-case image of a character other than the capital sigma. -/
def lowerChar (c : Char) : List Char :=
  if c.toNat < 128 then [c.toLower]
  else if c.toNat == 0x130 then ['i', Char.ofNat 0x307]
  else
    match lowerRuns.find? (fun (first, last, step, _) =>
        first ≤ c.toNat && c.toNat ≤ last && (c.toNat - first) % step == 0) with
    | some (first, _, _, image) => [Char.ofNat (image + (c.toNat - first))]
    | none => [c]

/-- Whether a cased letter comes next, ignorable characters passed over. -/
def casedNext (cs : List Char) : Bool :=
  match cs.dropWhile isCaseIgnorable with
  | c :: _ => isCased c
  | [] => false

/-- Lowers a text that follows a cased letter (`inWord`) or does not. -/
def lowerAfter (inWord : Bool) : List Char → List Char
  | [] => []
  | c :: rest =>
    let image :=
      if c.toNat == 0x3a3 then
        if inWord && !casedNext rest then [Char.ofNat 0x3c2] else [Char.ofNat 0x3c3]
      else lowerChar c
    image ++ lowerAfter (if isCaseIgnorable c then inWord else isCased c) rest

/-- The text with every capital lowered. -/
def lower (cs : List Char) : List Char :=
  lowerAfter false cs

end CrateSafety.Text
