/-!
# UUIDs

The lower-case RFC 4122 form: `8-4-4-4-12` hexadecimal digits, versions 1 to 5, variant `8` to
`b`. A `Uuid` is a text of that form; it is only compared.
-/

namespace Psfn.Lib

def isLowerHexDigit (c : Char) : Bool :=
  ('0' ≤ c && c ≤ '9') || ('a' ≤ c && c ≤ 'f')

/-- The pattern, character by character. -/
def uuidCharacter (c : Char) (i : Nat) : Bool :=
  if i = 8 || i = 13 || i = 18 || i = 23 then c = '-'
  else if i = 14 then '1' ≤ c && c ≤ '5'
  else if i = 19 then c = '8' || c = '9' || c = 'a' || c = 'b'
  else isLowerHexDigit c

def isRfc4122Uuid (value : String) : Bool :=
  value.toList.length = 36 && value.toList.zipIdx.all fun p => uuidCharacter p.1 p.2

/-- A text that is a UUID. -/
structure Uuid where
  value      : String
  wellFormed : isRfc4122Uuid value = true

instance : DecidableEq Uuid := fun a b =>
  decidable_of_iff (a.value = b.value) (by cases a; cases b; simp)

end Psfn.Lib
