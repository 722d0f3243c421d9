import CertAuthority.Time.Civil
import CertAuthority.Toml.Text

/-!
# Numbers, dates and truth values of TOML

A value without quotes or brackets is a run of characters that must have one of a few forms as a
whole. Whole numbers keep their value; of floats and dates only the form matters.
-/

namespace CertAuthority.Toml

/-- Whether a character may stand in a number, a date or a truth value. -/
def isRunChar (c : Char) : Bool :=
  c.isAlphanum || c == '_' || c == '+' || c == '-' || c == '.' || c == ':'

/-- The digits of a run in which single underscores may stand between digits. -/
def separated? (isDigit : Char → Bool) : List Char → Option (List Char)
  | [] => none
  | [c] => if isDigit c then some [c] else none
  | c :: '_' :: rest => if isDigit c then (separated? isDigit rest).map (c :: ·) else none
  | c :: rest => if isDigit c then (separated? isDigit rest).map (c :: ·) else none

/-- The number that digits write in a base. -/
def ofDigits (base : Nat) (digits : List Char) : Nat :=
  digits.foldl (fun n c => n * base + (Text.hexDigit? c).getD 0) 0

/-- Reads digits of a base, which may be parted by underscores. -/
def number? (base : Nat) (cs : List Char) : Option Nat :=
  (separated? (fun c => (Text.hexDigit? c).any (· < base)) cs).map (ofDigits base)

/-- The number of a run of decimal digits without a leading zero. -/
def decimal? : List Char → Option Nat
  | ['0'] => some 0
  | '0' :: _ => none
  | cs => number? 10 cs

/-- Whether a number has a sign of 64 bits. -/
def inRange (n : Int) : Option Int :=
  if -0x8000000000000000 ≤ n && n < 0x8000000000000000 then some n else none

/-- Reads an integer of 64 bits, in decimal or in one of three other bases. -/
def integer? : List Char → Option Int
  | '0' :: 'x' :: cs => number? 16 cs >>= fun n => inRange n
  | '0' :: 'o' :: cs => number? 8 cs >>= fun n => inRange n
  | '0' :: 'b' :: cs => number? 2 cs >>= fun n => inRange n
  | '+' :: cs => decimal? cs >>= fun n => inRange n
  | '-' :: cs => decimal? cs >>= fun n => inRange (-(n : Int))
  | cs => decimal? cs >>= fun n => inRange n

/-- A run without its sign. -/
def unsigned : List Char → List Char
  | '+' :: cs => cs
  | '-' :: cs => cs
  | cs => cs

/-- The power of ten behind the mark of an exponent. -/
def exponent? (cs : List Char) : Option Int := do
  let n ← number? 10 (unsigned cs)
  return if cs.head? = some '-' then -n else n

/-- The least number that rounds to infinity. -/
def floatBound : Nat := Nat.pow 2 1024 - Nat.pow 2 970

/-- Whether `m * 10 ^ e` is below the numbers that round to infinity. -/
def isFinite (m : Nat) (e : Int) : Bool :=
  let size : Int := (toString m).length + e
  if m = 0 || size ≤ 308 then true
  else if 310 ≤ size then false
  else if 0 ≤ e then m * Nat.pow 10 e.toNat < floatBound
  else m < floatBound * Nat.pow 10 (-e).toNat

/-- Whether a run without a sign is a number with a fraction, an exponent or both; with it whether its
value is finite. -/
def unsignedFloat? (cs : List Char) : Option Bool := do
  if cs = ['i', 'n', 'f'] || cs = ['n', 'a', 'n'] then some true
  else
    let isMark (c : Char) : Bool := c == 'e' || c == 'E'
    let mantissa := cs.takeWhile (!isMark ·)
    let tail := cs.dropWhile (!isMark ·)
    let whole := mantissa.takeWhile (· != '.')
    let n ← decimal? whole
    let (m, places) ←
      match mantissa.dropWhile (· != '.') with
      | [] => if tail.isEmpty then none else some (n, 0)
      | _ :: fraction => do
        let digits ← separated? Char.isDigit fraction
        some (n * Nat.pow 10 digits.length + ofDigits 10 digits, digits.length)
    match tail with
    | [] => some (isFinite m (-places))
    | _ :: e => some (isFinite m ((← exponent? e) - places))

/-- Whether a run is a float that can be read: a positive one may not be too large. -/
def isFloat (cs : List Char) : Bool :=
  match unsignedFloat? (unsigned cs) with
  | none => false
  | some finite => finite || cs.head? = some '-'

/-- Whether two digits write a number between two bounds. -/
def twoDigits (low high : Nat) (a b : Char) : Bool :=
  a.isDigit && b.isDigit && low ≤ ofDigits 10 [a, b] && ofDigits 10 [a, b] ≤ high


/-- Whether the rest of a time is nothing, or the offset from universal time. -/
def isOffset : List Char → Bool
  | [] => true
  | ['Z'] => true
  | ['z'] => true
  | [sign, a, b, ':', c, d] =>
    (sign == '+' || sign == '-') && twoDigits 0 23 a b && twoDigits 0 59 c d
  | _ => false

/-- Whether a run is a time of day; with a date before it, an offset may follow. -/
def isTime (afterDate : Bool) : List Char → Bool
  | a :: b :: ':' :: c :: d :: ':' :: e :: f :: rest =>
    twoDigits 0 23 a b && twoDigits 0 59 c d && twoDigits 0 60 e f &&
      let rest? :=
        match rest with
        | '.' :: cs => if cs.head?.any Char.isDigit then some (cs.dropWhile Char.isDigit) else none
        | cs => some cs
      match rest? with
      | none => false
      | some rest => if afterDate then isOffset rest else rest.isEmpty
  | _ => false

/-- What stands behind a day of the calendar. -/
def afterDate? : List Char → Option (List Char)
  | y1 :: y2 :: y3 :: y4 :: '-' :: m1 :: m2 :: '-' :: d1 :: d2 :: rest =>
    let year := ofDigits 10 [y1, y2, y3, y4]
    let month := ofDigits 10 [m1, m2]
    if [y1, y2, y3, y4].all Char.isDigit && twoDigits 1 12 m1 m2 &&
        twoDigits 1 (Civil.monthDays year month) d1 d2 then some rest
    else none
  | _ => none

/-- Whether a run is a date with a time after it. -/
def isDateAndTime (cs : List Char) : Bool :=
  match afterDate? cs with
  | some ('T' :: time) => isTime true time
  | some ('t' :: time) => isTime true time
  | _ => false

/-- Reads a value that is neither a text nor a list nor a table. -/
def run? (cs : List Char) : Option Value :=
  if cs = "true".toList then some (.boolean true)
  else if cs = "false".toList then some (.boolean false)
  else if (integer? cs).isSome then (integer? cs).map .integer
  else if isFloat cs then some .float
  else if isTime false cs || isDateAndTime cs || afterDate? cs = some [] then some .date
  else none

/-- Reads a value without quotes or brackets. A date may have a time after a space. -/
def bare? (cs : List Char) : Option (Value × List Char) :=
  let run := cs.takeWhile isRunChar
  let rest := cs.dropWhile isRunChar
  match rest with
  | ' ' :: after =>
    let time := after.takeWhile isRunChar
    if afterDate? run = some [] && time.head?.any Char.isDigit then
      if isTime true time then some (.date, after.dropWhile isRunChar) else none
    else (run? run).map (·, rest)
  | _ => (run? run).map (·, rest)

end CertAuthority.Toml
