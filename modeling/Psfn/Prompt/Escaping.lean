import Psfn.Lib.Replace
import Psfn.Voice.Segmenter

/-!
# Free text embedded in a prompt

`sanitizePromptEmbeddedText` of `shared/utils/escaping.ts`: external text is neutralized before it
is placed between the frames of a prompt. A string is the list of its UTF-16 code units, and a
regular expression is the length of its match at the start of a text.
-/

namespace Psfn.Prompt

open Psfn.Lib Psfn.Lib.Replace
open Psfn.Voice (Text unit text isSpace isLetter)

def promptEmbeddedTextDefaultMaxLength : Nat := 256

/-- `INVISIBLE_CHAR_PATTERN`. -/
def isInvisible (u : UInt16) : Bool :=
  (0x200b ≤ u && u ≤ 0x200f) || (0x202a ≤ u && u ≤ 0x202e) || (0x2060 ≤ u && u ≤ 0x2064) ||
    (0x2066 ≤ u && u ≤ 0x2069) || u = 0xfeff

/-- `CONTROL_CHAR_PATTERN`. -/
def isControl (u : UInt16) : Bool :=
  u ≤ 0x1f || (0x7f ≤ u && u ≤ 0x9f) || u = 0x2028 || u = 0x2029

def isDigit (u : UInt16) : Bool := unit '0' ≤ u && u ≤ unit '9'

/-! ## `neutralizeTagSequences` -/

/-- `[a-z0-9_.:-]`. -/
def isNameUnit (u : UInt16) : Bool :=
  isLetter u || isDigit u || u = unit '_' || u = unit '.' || u = unit ':' || u = unit '-'

/-- `[\s/>]`: what follows the name of a tag. -/
def endsName (u : UInt16) : Bool := isSpace u || u = unit '/' || u = unit '>'

/-- `[a-z][a-z0-9_.:-]*`, up to the unit after the name. -/
def opensName : Text → Bool
  | [] => false
  | u :: t => isLetter u && (t.dropWhile isNameUnit).head?.any endsName

/-- `\/?[a-z][a-z0-9_.:-]*`, up to the unit after the name. -/
def opensTag (t : Text) : Bool :=
  if t.head? = some (unit '/') then opensName t.tail else opensName t

/-- `[^<>]*>`. -/
def closesNext : Text → Bool
  | [] => false
  | u :: t => if u = unit '>' then true else if u = unit '<' then false else closesNext t

def tagDelimiters : Delimiters UInt16 where
  opens u t := u = unit '<' && opensTag t && closesNext t
  closes u := u = unit '>'
  onOpen _ := unit '‹'
  onClose _ := unit '›'

/-- `TAG_SEQUENCE_PATTERN`, `<\/?[a-z][a-z0-9_.:-]*(?:[\s/][^<>]*)?>`. No unit of the name may
follow it, and it holds no angle bracket, so the match runs to the next `>`. -/
def tagSequencePattern : Text → Option Nat
  | [] => none
  | u :: t =>
    if u = unit '<' && opensTag t && closesNext t then some (tagDelimiters.spanLength t + 1)
    else none

def neutralizeTagSequences (value : Text) : Text :=
  replaceAll tagSequencePattern
    (fun found => (found.map fun u => if u = unit '<' then unit '‹' else u).map
      fun u => if u = unit '>' then unit '›' else u) value

/-! ## `neutralizeBracketFrames` -/

def bracketFrameKeywords : List Text :=
  ["system", "assistant", "user", "operator", "admin", "presence", "instruction", "instructions",
    "important", "note", "context", "tool", "function"].map text

def isWordUnit (u : UInt16) : Bool := isLetter u || isDigit u || u = unit '_'

/-- A letter in either case. -/
def lower (u : UInt16) : UInt16 := if unit 'A' ≤ u && u ≤ unit 'Z' then u + 0x20 else u

/-- The keyword followed by `\b`. -/
def hasKeyword : Text → Text → Bool
  | [], t => !t.head?.any isWordUnit
  | _ :: _, [] => false
  | k :: keyword, u :: t => lower u = k && hasKeyword keyword t

/-- `\s*(?:${BRACKET_FRAME_KEYWORDS})\b`. -/
def opensFrame (t : Text) : Bool :=
  bracketFrameKeywords.any fun keyword => hasKeyword keyword (t.dropWhile isSpace)

def frameDelimiters : Delimiters UInt16 where
  opens u t := u = unit '[' && opensFrame t
  closes u := u = unit ']'
  onOpen _ := unit '('
  onClose _ := unit ')'

/-- `BRACKET_FRAME_PATTERN`, `\[(\s*(?:${BRACKET_FRAME_KEYWORDS})\b[^\]]*)(\]?)`. -/
def bracketFramePattern : Text → Option Nat
  | [] => none
  | u :: t =>
    if u = unit '[' && opensFrame t then some (frameDelimiters.spanLength t + 1) else none

def neutralizeBracketFrames (value : Text) : Text :=
  replaceAll bracketFramePattern
    (fun found =>
      let body := found.tail.takeWhile (· ≠ unit ']')
      let close := found.tail.dropWhile (· ≠ unit ']')
      unit '(' :: body ++ if close.isEmpty then [] else [unit ')']) value

/-! ## `sanitizePromptEmbeddedText` -/

structure MaxLengthError where
  message : String
  got     : JsNumber
deriving DecidableEq, Repr

def stripUnsafe (value : Text) : Text :=
  (value.filter fun u => !isInvisible u).map fun u => if isControl u then unit ' ' else u

/-- `.replace(/\s+/g, ' ').trim()`. -/
def collapse (value : Text) : Text :=
  ((squeeze isSpace (unit ' ') false value).dropWhile isSpace).rdropWhile isSpace

/-- The text cut to `maxLength` units, the last of them an ellipsis. -/
def capLength (maxLength : Nat) (sanitized : Text) : Text :=
  if sanitized.length > maxLength then
    (sanitized.take (maxLength - 1)).rdropWhile isSpace ++ [unit '…']
  else sanitized

def sanitizeTo (maxLength : Nat) (value : Text) : Text :=
  capLength maxLength
    (collapse (neutralizeBracketFrames (neutralizeTagSequences (stripUnsafe value))))

/-- An accepted limit as a number of units. -/
def units : JsNumber → Nat
  | .finite q => q.num.toNat
  | _ => 0

def sanitizePromptEmbeddedText (value : Text) (maxLength : Option JsNumber) :
    Except MaxLengthError Text :=
  let limit := maxLength.getD (.finite promptEmbeddedTextDefaultMaxLength)
  if !limit.isInteger || limit.le (.finite 0) then
    throw { message := "sanitizePromptEmbeddedText: maxLength must be a positive integer, got "
            got := limit }
  else
    pure (sanitizeTo (units limit) value)

end Psfn.Prompt
