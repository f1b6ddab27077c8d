namespace NodeSchema.Text

/-- The number of bytes of a text in UTF-8. -/
def byteSize (cs : List Char) : Nat := cs.foldr (fun c n => c.utf8Size + n) 0

/-- Why a reader stopped, what it had not read yet, and how many bytes of that it had seen. -/
structure Stop (ε : Type) where
  cause : ε
  rest : List Char
  seen : Nat

/-- Lines count from one, columns in bytes from the last line break. -/
structure Position where
  line : Nat
  column : Nat
deriving DecidableEq

/-- The position `bytes` further on in a text that starts at `p`. -/
def Position.advance (p : Position) : Nat → List Char → Position
  | _, [] => p
  | bytes, c :: cs =>
    if bytes = 0 then p
    else if c = '\n' then Position.advance ⟨p.line + 1, 0⟩ (bytes - 1) cs
    else if bytes ≤ c.utf8Size then ⟨p.line, p.column + bytes⟩
    else Position.advance ⟨p.line, p.column + c.utf8Size⟩ (bytes - c.utf8Size) cs

/-- A cause with its position in the text. -/
structure Located (ε : Type) where
  cause : ε
  position : Position

/-- What a reader had seen ends at the end of the text at the latest, which `advance` sees to. -/
def Stop.locate {ε : Type} (stop : Stop ε) (text : List Char) : Located ε :=
  ⟨stop.cause,
    Position.advance ⟨1, 0⟩ (byteSize text - byteSize stop.rest + stop.seen) text⟩

def Stop.map {ε δ : Type} (f : ε → δ) (stop : Stop ε) : Stop δ :=
  ⟨f stop.cause, stop.rest, stop.seen⟩

def Located.message {ε : Type} (describe : ε → String) (e : Located ε) : String :=
  describe e.cause ++ " at line " ++ toString e.position.line ++ " column "
    ++ toString e.position.column

end NodeSchema.Text
