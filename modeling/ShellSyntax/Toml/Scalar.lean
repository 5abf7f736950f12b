import ShellSyntax.Toml.Value

/-!
Scalars other than strings, written without quotes.

* `Scalar.integer?`, `Scalar.isFloat`, `Scalar.isDateTime`: the forms, each for a whole text;
* `Scalar.read?`: the scalar a text starts with. It takes the longest run of characters that may
  stand in a scalar, and a time behind a date and a space.

Integers have 64 bits. A number with a fraction or exponent may not be too large for a double.
-/

namespace ShellSyntax.Toml.Scalar

/-! ### Digits -/

/-- The value of a digit in base sixteen or below. -/
def digitValue (c : Char) : Nat :=
  if c.isDigit then c.toNat - 0x30
  else if 'a' ≤ c ∧ c ≤ 'f' then c.toNat - 0x57
  else c.toNat - 0x37

/-- Whether a character is a digit in a base of at most sixteen. -/
def isDigitIn (base : Nat) (c : Char) : Bool :=
  (c.isDigit || decide ('a' ≤ c ∧ c ≤ 'f') || decide ('A' ≤ c ∧ c ≤ 'F')) && digitValue c < base

/-- The number that digits write. -/
def number (base : Nat) (digits : List Char) : Nat :=
  digits.foldl (fun n c => n * base + digitValue c) 0

/-- The digits of a text of at least one digit, with single underscores between digits. -/
def digits? (base : Nat) : Text → Option (List Char)
  | [] => none
  | [c] => if isDigitIn base c then some [c] else none
  | c :: '_' :: t => if isDigitIn base c then (digits? base t).map (c :: ·) else none
  | c :: t => if isDigitIn base c then (digits? base t).map (c :: ·) else none

/-- The digits of a decimal number, which starts with a zero only if it is zero. -/
def decimal? : Text → Option (List Char)
  | '0' :: _ :: _ => none
  | t => digits? 10 t

/-- A text without its sign, and whether that is a minus. -/
def unsign : Text → Bool × Text
  | '+' :: t => (false, t)
  | '-' :: t => (true, t)
  | t => (false, t)

/-! ### Numbers -/

/-- Whether an integer has at most 64 bits with its sign. -/
def fits (n : Int) : Bool := -0x8000000000000000 ≤ n && n ≤ 0x7FFFFFFFFFFFFFFF

/-- The integer of a text. Only decimal integers have a sign. -/
def integer? (t : Text) : Option Int :=
  let found : Option Int := match t with
    | '0' :: 'x' :: t => (digits? 16 t).map fun d => number 16 d
    | '0' :: 'o' :: t => (digits? 8 t).map fun d => number 8 d
    | '0' :: 'b' :: t => (digits? 2 t).map fun d => number 2 d
    | t =>
      let (negative, t) := unsign t
      (decimal? t).map fun d => if negative then -(number 10 d : Int) else number 10 d
  found.filter fits

/-- Whether `10 ^ up / 10 ^ down` times the number of the digits is too large for a double: it is at
least halfway from the largest one to the next power of two, which has 309 digits. The two first
tests keep the powers small. -/
def overflows (digits : List Char) (up down : Nat) : Bool :=
  let m := number 10 digits
  if digits.length + up ≤ 308 + down ∨ m = 0 then false
  else if 400 + down < up then true
  else (Nat.pow 2 1024 - Nat.pow 2 970) * Nat.pow 10 down ≤ m * Nat.pow 10 up

/-- The digits behind the decimal point of a number without exponent; a number without a point has
none. -/
def fraction? : Text → Option (List Char)
  | [] => some []
  | '.' :: t => digits? 10 t
  | _ => none

/-- The exponent of a number and whether it is negative; a number without one has the exponent
zero. -/
def exponent? : Text → Option (Bool × Nat)
  | [] => some (false, 0)
  | _ :: t =>
    let (negative, t) := unsign t
    (digits? 10 t).map fun d => (negative, number 10 d)

/-- Whether a text writes a number with a fraction or an exponent, or one of the two values that are
no number. -/
def isFloat (t : Text) : Bool :=
  let (negative, t) := unsign t
  if t = "inf".toList ∨ t = "nan".toList then true
  else
    let mark := fun c => c = 'e' || c = 'E'
    let mantissa := t.takeWhile (! mark ·)
    let exponent := t.dropWhile (! mark ·)
    let whole := mantissa.takeWhile (· ≠ '.')
    let rest := mantissa.dropWhile (· ≠ '.')
    match decimal? whole, fraction? rest, exponent? exponent with
    | some w, some f, some (small, e) =>
      (!rest.isEmpty || !exponent.isEmpty) &&
        (negative || !if small then overflows (w ++ f) 0 (f.length + e)
          else overflows (w ++ f) e f.length)
    | _, _, _ => false

/-! ### Dates and times -/

/-- The number of two digits. -/
def two? (a b : Char) : Option Nat :=
  if a.isDigit && b.isDigit then some (number 10 [a, b]) else none

/-- The number of days of a month. -/
def daysIn (year month : Nat) : Nat :=
  if month = 2 then
    if year % 4 = 0 ∧ (year % 100 ≠ 0 ∨ year % 400 = 0) then 29 else 28
  else if month = 4 ∨ month = 6 ∨ month = 9 ∨ month = 11 then 30
  else 31

/-- What follows a date that exists. -/
def afterDate? : Text → Option Text
  | y :: y' :: y'' :: y''' :: '-' :: m :: m' :: '-' :: d :: d' :: t =>
    match two? y y', two? y'' y''', two? m m', two? d d' with
    | some century, some year, some month, some day =>
      if 1 ≤ month ∧ month ≤ 12 ∧ 1 ≤ day ∧ day ≤ daysIn (century * 100 + year) month then some t
      else none
    | _, _, _, _ => none
  | _ => none

/-- What follows a time of day. The last second of a day may be a leap second. -/
def afterTime? : Text → Option Text
  | h :: h' :: ':' :: m :: m' :: ':' :: s :: s' :: t =>
    match two? h h', two? m m', two? s s' with
    | some hour, some minute, some second =>
      if hour ≤ 23 ∧ minute ≤ 59 ∧ second ≤ 60 then
        match t with
        | '.' :: f :: t => if f.isDigit then some (t.dropWhile Char.isDigit) else none
        | '.' :: [] => none
        | t => some t
      else none
    | _, _, _ => none
  | _ => none

/-- Whether a text is empty or an offset from universal time. -/
def isOffset : Text → Bool
  | [] => true
  | [c] => c = 'Z' || c = 'z'
  | [sign, h, h', ':', m, m'] =>
    (sign = '+' || sign = '-') &&
      match two? h h', two? m m' with
      | some hour, some minute => decide (hour ≤ 23 ∧ minute ≤ 59)
      | _, _ => false
  | _ => false

/-- Whether a text is a date, a time, or a date with a time and perhaps an offset. -/
def isDateTime (t : Text) : Bool :=
  match afterDate? t with
  | some [] => true
  | some (c :: t) =>
    (c = 'T' || c = 't' || c = ' ') && (afterTime? t).elim false isOffset
  | none => (afterTime? t).elim false List.isEmpty

/-! ### Scalars -/

/-- The characters that may stand in a scalar. -/
def mayStand (c : Char) : Bool :=
  c.isAlphanum || c = '_' || c = '+' || c = '-' || c = '.' || c = ':'

/-- The value of a whole text. -/
def value? (t : Text) : Option Value :=
  if t = "true".toList then some (.boolean true)
  else if t = "false".toList then some (.boolean false)
  else
    match integer? t with
    | some n => some (.integer n)
    | none =>
      if isFloat t then some (.float t)
      else if isDateTime t then some (.dateTime t)
      else none

/-- The scalar that a text starts with, and the text behind it. -/
def read? (t : Text) : Option (Value × Text) :=
  let run := t.takeWhile mayStand
  let rest := t.dropWhile mayStand
  let time := rest.tail.takeWhile mayStand
  if afterDate? run = some [] ∧ rest.head? = some ' ' ∧ time ≠ [] then
    (value? (run ++ ' ' :: time)).map (·, rest.tail.dropWhile mayStand)
  else (value? run).map (·, rest)

end ShellSyntax.Toml.Scalar
