import Switchboard.Text.CaseTable

/-!
# Letter case

`lower` is the full lower-casing of a text: every letter takes its lower case, `İ` becomes an `i`
with a dot above, and a capital sigma takes its final form at the end of a word, that is after a
cased letter and not before one, marks and signs aside. `foldsTo` is simple case folding against
an ASCII letter: the Kelvin sign folds to `k` and the long s to `s`.
-/

namespace Switchboard.Text

def inRanges (table : Array (Nat × Nat)) (c : Char) : Bool :=
  table.any fun (lo, hi) => lo ≤ c.toNat && c.toNat ≤ hi

def isCased (c : Char) : Bool := c.isAlpha || inRanges CaseTable.cased c

def isCaseIgnorable (c : Char) : Bool := inRanges CaseTable.caseIgnorable c

/-- Whether a cased letter comes first once marks and signs are passed over. -/
def startsCased (cs : List Char) : Bool :=
  match cs.dropWhile isCaseIgnorable with
  | c :: _ => isCased c
  | [] => false

def lowerCode (n : Nat) : Option Nat :=
  (CaseTable.lowerRuns.find? fun (lo, hi, step, _) =>
    lo ≤ n && n ≤ hi && (n - lo) % step == 0).map fun (_, _, _, d) => ((n : Int) + d).toNat

def lowerChar (c : Char) : List Char :=
  if c.toNat < 0x80 then [c.toLower]
  else if c = 'İ' then ['i', '\u0307']
  else
    match lowerCode c.toNat with
    | some n => [Char.ofNat n]
    | none => [c]

/-- Lower-cases what follows `before`, which is given in reverse. -/
def lowerAfter (before : List Char) : List Char → List Char
  | [] => []
  | c :: rest =>
    (if c = 'Σ' then
      if startsCased before && !startsCased rest then ['ς'] else ['σ']
    else lowerChar c) ++ lowerAfter (c :: before) rest

def lower (s : String) : String := String.ofList (lowerAfter [] s.toList)

/-- Whether `c` matches the lower-case ASCII letter or other ASCII character `a`, case aside. -/
def foldsTo (a c : Char) : Bool :=
  c.toLower == a || (a == 'k' && c == '\u212a') || (a == 's' && c == 'ſ')

/-- Whether two texts are equal up to the case of ASCII letters. -/
def eqIgnoreCase (a b : List Char) : Bool := a.map Char.toLower == b.map Char.toLower

end Switchboard.Text
