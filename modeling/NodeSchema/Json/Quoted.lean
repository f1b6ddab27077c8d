import NodeSchema.Json.Numeral

namespace NodeSchema.Json.Quoted

open Text (Stop byteSize)

/-- Characters that stand for themselves. -/
def isPlain (c : Char) : Bool := c != '"' && c != '\\' && 0x20 ≤ c.toNat

def hexDigit? (c : Char) : Option Nat :=
  if '0' ≤ c && c ≤ '9' then some (c.toNat - '0'.toNat)
  else if 'a' ≤ c && c ≤ 'f' then some (c.toNat - 'a'.toNat + 10)
  else if 'A' ≤ c && c ≤ 'F' then some (c.toNat - 'A'.toNat + 10)
  else none

/-- The number in four hexadecimal digits. -/
def hexNumber? (a b c d : Char) : Option Nat := do
  let a ← hexDigit? a
  let b ← hexDigit? b
  let c ← hexDigit? c
  let d ← hexDigit? d
  return ((a * 16 + b) * 16 + c) * 16 + d

/-- Four hexadecimal digits. Four bytes are looked at before any of them is judged. -/
def readHex (s : List Char) : Except (Stop Fault) (Nat × Rest s) :=
  match s with
  | a :: b :: c :: d :: r =>
    match hexNumber? a b c d with
    | some n => .ok (n, .cons a (.cons b (.cons c (.ofCons d r))))
    | none => .error ⟨.invalidEscape, a :: b :: c :: d :: r, 4⟩
  | r => if byteSize r < 4 then stopAt .endInString [] else .error ⟨.invalidEscape, r, 4⟩

def isLeading (n : Nat) : Bool := 0xD800 ≤ n && n ≤ 0xDBFF

def isTrailing (n : Nat) : Bool := 0xDC00 ≤ n && n ≤ 0xDFFF

/-- The character of a pair of surrogates. -/
def joinSurrogates (leading trailing : Nat) : Char :=
  Char.ofNat (0x10000 + (leading - 0xD800) * 0x400 + (trailing - 0xDC00))

/-- The second half of a pair of surrogates. -/
def readTrailing (leading : Nat) (s : List Char) : Except (Stop Fault) (Char × Rest s) :=
  match s with
  | [] => stopAt .endInString []
  | ['\\'] => stopAt .endInString []
  | '\\' :: 'u' :: r => do
    let (n, rest) ← readHex r
    if isTrailing n then .ok (joinSurrogates leading n, .cons '\\' (.cons 'u' rest))
    else .error ⟨.loneSurrogate, rest, 0⟩
  | '\\' :: r => stopAt .unfinishedSurrogatePair r
  | r => stopAt .unfinishedSurrogatePair r

/-- What follows `\u`. -/
def readCodePoint (s : List Char) : Except (Stop Fault) (Char × Rest s) := do
  let (n, afterHex) ← readHex s
  if isTrailing n then .error ⟨.loneSurrogate, afterHex, 0⟩
  else if isLeading n then
    let (c, rest) ← readTrailing n afterHex.1
    .ok (c, afterHex.trans rest)
  else .ok (Char.ofNat n, afterHex)

/-- The character that a letter after a backslash stands for. -/
def shortEscape? (c : Char) : Option Char :=
  match c with
  | '"' => some '"'
  | '\\' => some '\\'
  | '/' => some '/'
  | 'b' => some '\x08'
  | 'f' => some '\x0c'
  | 'n' => some '\n'
  | 'r' => some '\r'
  | 't' => some '\t'
  | _ => none

/-- What follows a backslash. -/
def readEscape (s : List Char) : Except (Stop Fault) (Char × Rest s) :=
  match s with
  | [] => stopAt .endInString []
  | c :: r =>
    if c = 'u' then do
      let (u, rest) ← readCodePoint r
      .ok (u, .cons c rest)
    else
      match shortEscape? c with
      | some e => .ok (e, .ofCons c r)
      | none => stopAt .invalidEscape (c :: r)

/-- What follows the opening quote, the closing quote included. -/
def read (s : List Char) : Except (Stop Fault) (List Char × Rest s) :=
  match Tail.dropWhile isPlain s with
  | ⟨[], _⟩ => stopAt .endInString []
  | ⟨c :: r, hr⟩ =>
    if c = '"' then .ok (s.takeWhile isPlain, ⟨r, hr⟩)
    else if c = '\\' then do
      let (e, afterEscape) ← readEscape r
      let (cs, rest) ← read afterEscape.1
      .ok (s.takeWhile isPlain ++ e :: cs,
        Rest.trans ⟨r, hr⟩ (afterEscape.trans rest))
    else stopAt .controlCharacter (c :: r)
termination_by s.length
decreasing_by exact Nat.lt_trans afterEscape.2 hr

end NodeSchema.Json.Quoted
