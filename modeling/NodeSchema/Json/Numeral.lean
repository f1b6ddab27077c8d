import NodeSchema.Json.Basic

namespace NodeSchema.Json

open Text (Stop)

/-- A number as it is written: only a numeral with a point has digits in its fraction. -/
structure Numeral where
  negative : Bool
  whole : List Char
  fraction : List Char
  exponent : Option (Bool × List Char)

namespace Numeral

/-- The digits after a point, if there is one; a point needs at least one. -/
def readFraction (s : List Char) : Except (Stop Fault) (List Char × Tail s) :=
  match s with
  | '.' :: r =>
    if (r.takeWhile Char.isDigit).isEmpty then
      stopAt (if r.isEmpty then .endInValue else .invalidNumber) r
    else
      .ok (r.takeWhile Char.isDigit,
        ((Rest.ofCons '.' r).andTail (Tail.dropWhile Char.isDigit r)).toTail)
  | r => .ok ([], Tail.refl r)

/-- The digits of an exponent, at least one. -/
def readExponentDigits (s : List Char) : Except (Stop Fault) (List Char × Tail s) :=
  if (s.takeWhile Char.isDigit).isEmpty then
    stopAt (if s.isEmpty then .endInValue else .invalidNumber) s
  else .ok (s.takeWhile Char.isDigit, Tail.dropWhile Char.isDigit s)

/-- The sign of an exponent, true below zero; a plus may be left out. -/
def readExponentSign (s : List Char) : Bool × Tail s :=
  match s with
  | '-' :: r => (true, (Rest.ofCons '-' r).toTail)
  | '+' :: r => (false, (Rest.ofCons '+' r).toTail)
  | r => (false, Tail.refl r)

/-- An exponent, if there is one, with whether it is below zero. -/
def readExponent (s : List Char) : Except (Stop Fault) (Option (Bool × List Char) × Tail s) :=
  match s with
  | [] => .ok (none, Tail.refl [])
  | c :: r =>
    if c = 'e' || c = 'E' then do
      let (below, start) := readExponentSign r
      let (digits, rest) ← readExponentDigits start.1
      .ok (some (below, digits), ((Rest.ofCons c r).andTail (start.trans rest)).toTail)
    else .ok (none, Tail.refl (c :: r))

/-- Reads a numeral after its sign. A zero is not followed by further digits. -/
def read (negative : Bool) (s : List Char) : Except (Stop Fault) (Numeral × Rest s) :=
  match s with
  | [] => stopAt .endInValue []
  | d :: ds =>
    if !d.isDigit then stopAt .invalidNumber (d :: ds)
    else if d = '0' && ds.head?.any Char.isDigit then stopAt .invalidNumber ds
    else do
      let afterWhole := Tail.dropWhile Char.isDigit ds
      let (fraction, afterFraction) ← readFraction afterWhole.1
      let (exponent, rest) ← readExponent afterFraction.1
      .ok (⟨negative, d :: ds.takeWhile Char.isDigit, fraction, exponent⟩,
        (Rest.ofCons d ds).andTail (afterWhole.trans (afterFraction.trans rest)))

def digitValue (c : Char) : Nat := c.toNat - '0'.toNat

/-- The numbers below it fit into 64 bits. -/
def significandLimit : Nat := 0x10000000000000000

/-- Appends digits to a significand for as long as the result fits; answers also with the digits
that are left over. -/
def gather (significand : Nat) : List Char → Nat × List Char
  | [] => (significand, [])
  | d :: ds =>
    if significand * 10 + digitValue d < significandLimit then
      gather (significand * 10 + digitValue d) ds
    else (significand, d :: ds)

/-- A double times a power of ten, none if it becomes infinite. The powers up to 308 are single
factors; an exponent further down is reached in steps of 308. -/
def scale : Nat → Float → Int → Option Float
  | 0, f, _ => some f
  | steps + 1, f, exponent =>
    if 308 < exponent then if f == 0 then some f else none
    else if 0 ≤ exponent then
      let g := f * Float.ofScientific 1 false exponent.toNat
      if g.isInf then none else some g
    else if -308 ≤ exponent then some (f / Float.ofScientific 1 false (-exponent).toNat)
    else if f == 0 then some f
    else scale steps (f / Float.ofScientific 1 false 308) (exponent + 308)

/-- The numbers below it fit into 31 bits. -/
def exponentLimit : Nat := 0x80000000

/-- The value of an exponent's digits, or the digits after the first at which it no longer fits. -/
def exponentValue (n : Nat) : List Char → Except (List Char) Nat
  | [] => .ok n
  | d :: ds =>
    if n * 10 + digitValue d < exponentLimit then exponentValue (n * 10 + digitValue d) ds
    else .error ds

/-- The significand, and the exponent that the digits themselves bring. -/
def parts (n : Numeral) : Nat × Int :=
  let (whole, dropped) := gather 0 n.whole
  let (significand, unused) := gather whole n.fraction
  (significand, (dropped.length : Int) - ((n.fraction.length : Int) - unused.length))

def signed (n : Numeral) (f : Float) : Json := .real (if n.negative then -f else f)

/-- Two steps down turn every significand into zero, so that four are enough. -/
def double (n : Numeral) (exponent : Int) (rest : List Char) : Except (Stop Fault) Json :=
  match scale 4 (Float.ofNat n.parts.1) exponent with
  | some f => .ok (n.signed f)
  | none => .error ⟨.numberOutOfRange, rest, 0⟩

/-- The distance from zero of the least integer of 64 bits. -/
def leastInteger : Nat := 0x8000000000000000

/-- The value of a numeral that `rest` follows. Without fraction and exponent it is an integer if 64
bits can hold it, otherwise it is its significand as a double, times a power of ten. -/
def value (n : Numeral) (rest : List Char) : Except (Stop Fault) Json :=
  let (significand, shift) := n.parts
  match n.exponent with
  | some (below, digits) =>
    match exponentValue 0 digits with
    | .ok e => n.double (if below then shift - e else shift + e) rest
    | .error unread =>
      if significand ≠ 0 && !below then .error ⟨.numberOutOfRange, unread ++ rest, 0⟩
      else .ok (n.signed 0)
  | none =>
    if n.fraction.isEmpty && (gather 0 n.whole).2.isEmpty then
      if !n.negative then .ok (.integer significand)
      else if 0 < significand && significand ≤ leastInteger then .ok (.integer (-significand))
      else .ok (n.signed (Float.ofNat significand))
    else n.double shift rest

end Numeral

end NodeSchema.Json
