/-!
# Reading UTF-8

A text is read from bytes strictly: the first sequence that does not encode a character is refused,
with the bytes that show it and the reason.
-/

namespace CodeAtlas.Text

/-- Why bytes encode no character. -/
inductive DecodeReason where
  /-- No sequence begins with the byte. -/
  | invalidStart
  /-- The next byte does not go on with the sequence. -/
  | invalidContinuation
  /-- The bytes end before the sequence does. -/
  | unexpectedEnd
deriving DecidableEq, Inhabited

/-- A sequence of bytes that encodes no character. -/
structure DecodeError where
  position : Nat
  first : UInt8
  count : Nat
  reason : DecodeReason
deriving DecidableEq, Inhabited

/-- The reason in words. -/
def DecodeReason.description : DecodeReason → String
  | invalidStart => "invalid start byte"
  | invalidContinuation => "invalid continuation byte"
  | unexpectedEnd => "unexpected end of data"

/-- The digits of a byte. -/
def byteDigits (b : UInt8) : String :=
  let ds := Nat.toDigits 16 b.toNat
  String.ofList (if ds.length < 2 then '0' :: ds else ds)

/-- The wording of the error. -/
def DecodeError.message (e : DecodeError) : String :=
  let place :=
    if e.count = 1 then
      "byte 0x" ++ byteDigits e.first ++ " in position " ++ toString e.position
    else
      "bytes in position " ++ toString e.position ++ "-" ++ toString (e.position + e.count - 1)
  "'utf-8' codec can't decode " ++ place ++ ": " ++ e.reason.description

/-- The length of the sequences that begin with a byte, and the least and the greatest second byte.
-/
def sequenceShape (n : Nat) : Option (Nat × Nat × Nat) :=
  if n < 0xc2 then none
  else if n < 0xe0 then some (2, 0x80, 0xbf)
  else if n = 0xe0 then some (3, 0xa0, 0xbf)
  else if n = 0xed then some (3, 0x80, 0x9f)
  else if n < 0xf0 then some (3, 0x80, 0xbf)
  else if n = 0xf0 then some (4, 0x90, 0xbf)
  else if n < 0xf4 then some (4, 0x80, 0xbf)
  else if n = 0xf4 then some (4, 0x80, 0x8f)
  else none

/-- The byte lies between two numbers. -/
def isByteIn (low high : Nat) (b : UInt8) : Bool := low ≤ b.toNat && b.toNat ≤ high

/-- The byte goes on with a sequence behind its second byte. -/
def isTail (b : UInt8) : Bool := isByteIn 0x80 0xbf b

/-- The six bits that a byte adds to a character. -/
def tailBits (b : UInt8) : Nat := b.toNat % 0x40

/-- Why a sequence with the given second, third and fourth bytes, as far as there are any, is none;
`length` bytes are needed and the second one has to lie between `low` and `high`. -/
def sequenceFault (length low high : Nat) : List UInt8 → Nat × DecodeReason
  | [] => (1, .unexpectedEnd)
  | b :: rest =>
    if !isByteIn low high b then (1, .invalidContinuation)
    else match rest with
      | [] => (2, .unexpectedEnd)
      | c :: rest =>
        if !isTail c then (2, .invalidContinuation)
        else match rest with
          | [] => (3, .unexpectedEnd)
          | _ :: _ => (min 3 (length - 1), .invalidContinuation)

/-- Reads the characters that bytes encode; `done` holds those before `position`, reversed. -/
def decodeFrom (position : Nat) (done : List Char) : List UInt8 → Except DecodeError (List Char)
  | [] => .ok done.reverse
  | a :: rest =>
    let fault (length low high : Nat) : Except DecodeError (List Char) :=
      let (count, reason) := sequenceFault length low high rest
      .error ⟨position, a, count, reason⟩
    if a.toNat < 0x80 then decodeFrom (position + 1) (Char.ofNat a.toNat :: done) rest
    else match sequenceShape a.toNat with
      | none => .error ⟨position, a, 1, .invalidStart⟩
      | some (2, low, high) =>
        match rest with
        | b :: rest =>
          if isByteIn low high b then
            decodeFrom (position + 2) (Char.ofNat (a.toNat % 0x20 * 0x40 + tailBits b) :: done) rest
          else fault 2 low high
        | _ => fault 2 low high
      | some (3, low, high) =>
        match rest with
        | b :: c :: rest =>
          if isByteIn low high b && isTail c then
            decodeFrom (position + 3)
              (Char.ofNat ((a.toNat % 0x10 * 0x40 + tailBits b) * 0x40 + tailBits c) :: done) rest
          else fault 3 low high
        | _ => fault 3 low high
      | some (length, low, high) =>
        match rest with
        | b :: c :: d :: rest =>
          if isByteIn low high b && isTail c && isTail d then
            decodeFrom (position + 4)
              (Char.ofNat (((a.toNat % 8 * 0x40 + tailBits b) * 0x40 + tailBits c) * 0x40
                + tailBits d) :: done) rest
          else fault length low high
        | _ => fault length low high

/-- The text that bytes encode. -/
def decode (bytes : ByteArray) : Except DecodeError String :=
  (decodeFrom 0 [] bytes.data.toList).map String.ofList

/-- A text in which every line end is a line feed: carriage returns with or without a line feed
behind them are replaced; `done` holds what comes before, reversed. -/
def unifyLineEndsFrom (done : List Char) : List Char → List Char
  | [] => done.reverse
  | '\r' :: '\n' :: rest => unifyLineEndsFrom ('\n' :: done) rest
  | '\r' :: rest => unifyLineEndsFrom ('\n' :: done) rest
  | c :: rest => unifyLineEndsFrom (c :: done) rest

/-- A text in which every line end is a line feed. -/
def unifyLineEnds (s : String) : String := String.ofList (unifyLineEndsFrom [] s.toList)

end CodeAtlas.Text
