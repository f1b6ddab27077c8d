namespace NodeSchema.Decimal

/-- The number `significand · 2 ^ exponent`, where `afterGap` tells that the number below it is only
half as far away as the one above. -/
structure Binary where
  significand : Nat
  exponent : Int
  afterGap : Bool
deriving DecidableEq

/-- The number `digits · 10 ^ exponent`. -/
structure Scaled where
  digits : Nat
  exponent : Int
deriving DecidableEq

/-- The significand of a double has this bit unless the double is very small. -/
def leadingBit : Nat := 0x10000000000000

/-- The finite double with these bits, without its sign. -/
def Binary.ofBits (bits : Nat) : Binary :=
  let fraction := bits % leadingBit
  let biased := bits / leadingBit % 0x800
  if biased = 0 then ⟨fraction, -1074, false⟩
  else ⟨leadingBit + fraction, Int.subNatNat biased 1075, fraction == 0 && Nat.blt 1 biased⟩

/-- The fraction `b.numer k / b.denom k` is `2 ^ b.exponent / 10 ^ k`. -/
def Binary.numer (b : Binary) (k : Int) : Nat :=
  Nat.pow 2 b.exponent.toNat * Nat.pow 10 (-k).toNat

def Binary.denom (b : Binary) (k : Int) : Nat :=
  Nat.pow 2 (-b.exponent).toNat * Nat.pow 10 k.toNat

/-- Whether `d · 10 ^ k` rounds to the number. The interval reaches half way to the neighbours, in
quarters of the last binary place two up and two or one down; its ends belong to it when the
significand is even. -/
def Binary.admits (b : Binary) (k : Int) (d : Nat) : Bool :=
  let low := (b.significand * 4 - if b.afterGap then 1 else 2) * b.numer k
  let high := (b.significand * 4 + 2) * b.numer k
  let x := 4 * d * b.denom k
  if b.significand % 2 = 0 then Nat.ble low x && Nat.ble x high
  else Nat.blt low x && Nat.blt x high

/-- The multiple of `10 ^ k` for the number, if one rounds to it. -/
def Binary.onGrid? (b : Binary) (k : Int) : Option Nat :=
  let v := b.significand * 4 * b.numer k
  let unit := 4 * b.denom k
  let below := v / unit
  let above := below + 1
  match b.admits k below, b.admits k above with
  | true, true =>
    let down := v - below * unit
    let up := above * unit - v
    if Nat.blt down up || (down == up && below % 2 == 0) then some below else some above
  | true, false => some below
  | false, true => some above
  | false, false => none

/-- The first hit on the grids `10 ^ k`, `10 ^ (k - 1)`, … of which `count` are tried. -/
def Binary.search (b : Binary) : Nat → Int → Scaled
  | 0, k => ⟨b.significand, k⟩
  | count + 1, k =>
    match b.onGrid? k with
    | some d => ⟨d, k⟩
    | none => b.search count (k - 1)

/-- The exponent of the leading decimal digit. -/
def Binary.magnitude (b : Binary) : Int :=
  let v := b.significand * Nat.pow 2 b.exponent.toNat
  let one := Nat.pow 2 (-b.exponent).toNat
  if one ≤ v then (Nat.toDigits 10 (v / one)).length - 1
  else -((Nat.toDigits 10 ((one - 1) / v)).length : Int)

/-- The shortest decimal for a double. The double stands for every real that rounds to it; of the
decimals in that interval the one on the coarsest decimal grid is taken, of two on the same grid the
nearer, and at equal distance the even one. Seventeen digits are always enough. -/
def Binary.shortest (b : Binary) : Scaled := b.search 18 (b.magnitude + 1)

/-- The magnitudes that are written positionally. -/
structure Layout where
  least : Int
  greatest : Int

def zeros (n : Nat) : String := String.ofList (List.replicate n '0')

def Layout.positional (digits : List Char) (exponent : Int) : String :=
  let point := digits.length + exponent
  if 0 ≤ exponent then String.ofList digits ++ zeros exponent.toNat ++ ".0"
  else if 0 < point then
    String.ofList (digits.take point.toNat) ++ "." ++ String.ofList (digits.drop point.toNat)
  else "0." ++ zeros (-point).toNat ++ String.ofList digits

def Layout.scientific (digits : List Char) (magnitude : Int) : String :=
  let tail := digits.drop 1
  String.ofList (digits.take 1) ++ (if tail.isEmpty then "" else "." ++ String.ofList tail)
    ++ (if magnitude < 0 then "e-" else "e+") ++ toString magnitude.natAbs

def Layout.write (l : Layout) (x : Scaled) : String :=
  let digits := Nat.toDigits 10 x.digits
  let magnitude := digits.length + x.exponent - 1
  if l.least ≤ magnitude && magnitude ≤ l.greatest then Layout.positional digits x.exponent
  else Layout.scientific digits magnitude

/-- A finite double: its sign, also that of zero, and its shortest decimal. -/
def Layout.float (l : Layout) (x : Float) : String :=
  let bits := x.toBits.toNat
  let b := Binary.ofBits bits
  (if bits.testBit 63 then "-" else "") ++
    if b.significand = 0 then "0.0" else l.write b.shortest

end NodeSchema.Decimal
