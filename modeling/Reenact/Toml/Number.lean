import Reenact.Toml.Text

/-!
# Numbers and dates in settings files

Whole numbers in four bases, numbers with a fraction or an exponent, and dates and times. Digits may
be separated by single underscores. No setting is a number, so it matters only that a number is
well formed and in range; it is kept as it is written.
-/

namespace Reenact.Toml

/-- Reads further digits of the base, single underscores between them. -/
def moreDigits (isDigit : Char → Bool) (read : List Char) :
    List Char → Option (List Char × List Char)
  | '_' :: c :: rest => if isDigit c then moreDigits isDigit (c :: read) rest else none
  | ['_'] => none
  | c :: rest =>
    if isDigit c then moreDigits isDigit (c :: read) rest else some (read.reverse, c :: rest)
  | [] => some (read.reverse, [])

/-- Reads digits of the base, at least one. -/
def digits? (isDigit : Char → Bool) : List Char → Option (List Char × List Char)
  | c :: rest => if isDigit c then moreDigits isDigit [c] rest else none
  | [] => none

/-- The digits of whole numbers. -/
def isDecimalDigit (c : Char) : Bool := c.isDigit

/-- Reads a sign, if there is one. -/
def sign? : List Char → Bool × List Char
  | '-' :: rest => (true, rest)
  | '+' :: rest => (false, rest)
  | input => (false, input)

/-- Reads the digits of a whole number, of which only a lone one may be zero in front. -/
def wholeDigits? : List Char → Option (List Char × List Char)
  | '0' :: rest => some (['0'], rest)
  | input => digits? isDecimalDigit input

/-- The number of digits of a base. -/
def valueOf (base : Nat) (digits : List Char) : Nat :=
  (Text.number? base digits).getD 0

/-- Reads a whole number of 64 bits. -/
def integer? (input : List Char) : Option (Int × List Char) :=
  let based (base : Nat) (rest : List Char) : Option (Int × List Char) := do
    let (digits, rest) ← digits? (fun c => (Text.digit? base c).isSome) rest
    let n := valueOf base digits
    if n < Nat.pow 2 63 then some ((n : Int), rest) else none
  match input with
  | '0' :: 'x' :: rest => based 16 rest
  | '0' :: 'o' :: rest => based 8 rest
  | '0' :: 'b' :: rest => based 2 rest
  | _ => do
    let (isNegative, rest) := sign? input
    let (digits, rest) ← wholeDigits? rest
    let n := valueOf 10 digits
    if isNegative then (if n ≤ Nat.pow 2 63 then some (-(n : Int), rest) else none)
    else if n < Nat.pow 2 63 then some ((n : Int), rest) else none

/-- Reads an exponent: its sign and digits. -/
def exponent? : List Char → Option ((Bool × List Char) × List Char)
  | c :: rest =>
    if c = 'e' || c = 'E' then do
      let (isNegative, rest) := sign? rest
      let (digits, rest) ← digits? isDecimalDigit rest
      return ((isNegative, digits), rest)
    else none
  | [] => none

/-- Whether the number `digits · 10^power` rounds to infinity as a double precision number: it is
no less than the midpoint between the greatest such number and the next power of two. -/
def isTooLarge (digits : Nat) (power : Int) : Bool :=
  match power with
  | .ofNat n =>
    digits != 0 &&
      (decide (400 < n) || decide (Nat.pow 2 1024 - Nat.pow 2 970 ≤ digits * Nat.pow 10 n))
  | .negSucc n =>
    decide (n < digits.log2) &&
      decide ((Nat.pow 2 1024 - Nat.pow 2 970) * Nat.pow 10 (n + 1) ≤ digits)

/-- Reads a number with a fraction or an exponent, or infinity, or what is no number. A positive
number that rounds to infinity is refused. -/
def float? (input : List Char) : Option (Unit × List Char) :=
  let (isNegative, rest) := sign? input
  match rest with
  | 'i' :: 'n' :: 'f' :: rest => some ((), rest)
  | 'n' :: 'a' :: 'n' :: rest => some ((), rest)
  | _ => do
    let (whole, rest) ← wholeDigits? rest
    let (fraction, rest) ←
      match rest with
      | '.' :: rest => digits? isDecimalDigit rest
      | _ => if (exponent? rest).isSome then some ([], rest) else none
    let startsExponent := rest.head?.any fun c => c == 'e' || c == 'E'
    let ((isDown, exponent), rest) ←
      if startsExponent then exponent? rest else some ((false, ['0']), rest)
    let power := (if isDown then -(valueOf 10 exponent : Int) else valueOf 10 exponent) -
      (fraction.length : Int)
    if !isNegative && isTooLarge (valueOf 10 (whole ++ fraction)) power then none
    else return ((), rest)

/-- Reads a number of exactly that many digits. -/
def fixed? (count : Nat) (input : List Char) : Option (Nat × List Char) :=
  let digits := input.take count
  if digits.length = count && digits.all Char.isDigit then
    some (valueOf 10 digits, input.drop count)
  else none

def expect? (c : Char) : List Char → Option (List Char)
  | d :: rest => if c = d then some rest else none
  | [] => none

/-- How many days the month has. -/
def daysIn (year month : Nat) : Nat :=
  if month = 2 then
    if year % 4 = 0 && (year % 100 != 0 || year % 400 = 0) then 29 else 28
  else if month = 4 || month = 6 || month = 9 || month = 11 then 30
  else 31

def date? (input : List Char) : Option (List Char) := do
  let (year, rest) ← fixed? 4 input
  let (month, rest) ← fixed? 2 (← expect? '-' rest)
  let (day, rest) ← fixed? 2 (← expect? '-' rest)
  if 1 ≤ month && month ≤ 12 && 1 ≤ day && day ≤ daysIn year month then some rest else none

/-- Reads a time of day. -/
def time? (input : List Char) : Option (List Char) := do
  let (hour, rest) ← fixed? 2 input
  let (minute, rest) ← fixed? 2 (← expect? ':' rest)
  let (second, rest) ← fixed? 2 (← expect? ':' rest)
  if hour ≤ 23 && minute ≤ 59 && second ≤ 60 then
    match rest with
    | '.' :: c :: rest => if c.isDigit then some (rest.dropWhile Char.isDigit) else none
    | _ => some rest
  else none

/-- Reads the distance of a time from the standard time. -/
def offset? : List Char → Option (List Char)
  | [] => none
  | c :: rest =>
    if c = 'Z' || c = 'z' then some rest
    else if c = '+' || c = '-' then do
      let (hour, rest) ← fixed? 2 rest
      let (minute, rest) ← fixed? 2 (← expect? ':' rest)
      if hour ≤ 23 && minute ≤ 59 then some rest else none
    else none

/-- Reads a date, a time, or both. -/
def dateTime? (input : List Char) : Option (Unit × List Char) :=
  match date? input with
  | some rest =>
    let afterTime :=
      match rest with
      | c :: rest => if c = 'T' || c = 't' || c = ' ' then time? rest else none
      | [] => none
    match afterTime with
    | some rest => some ((), (offset? rest).getD rest)
    | none => some ((), rest)
  | none => (time? input).map ((), ·)

end Reenact.Toml
