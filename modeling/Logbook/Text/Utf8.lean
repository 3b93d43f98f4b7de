import Logbook.Bytes

/-!
# Reading UTF-8

Octets are cut into pieces: a piece is a character, or a stretch that no character starts with. Such a
stretch is as long as it can be while some character still starts with all its octets but the one that
follows, so the number of pieces is fixed by the octets alone. A strict reading refuses text with a bad
stretch; a lossy one puts one replacement character in place of each.
-/

namespace Logbook.Text.Utf8

/-- Octets that continue a character. -/
def isTail (b : UInt8) : Bool := 0x80 ≤ b && b ≤ 0xBF

/-- May `b` follow the first octet `lead` of a character of three octets? -/
def isSecondOfThree (lead b : UInt8) : Bool :=
  if lead == 0xE0 then 0xA0 ≤ b && b ≤ 0xBF
  else if lead == 0xED then 0x80 ≤ b && b ≤ 0x9F
  else isTail b

/-- May `b` follow the first octet `lead` of a character of four octets? -/
def isSecondOfFour (lead b : UInt8) : Bool :=
  if lead == 0xF0 then 0x90 ≤ b && b ≤ 0xBF
  else if lead == 0xF4 then 0x80 ≤ b && b ≤ 0x8F
  else isTail b

/-- The low six bits of a continuing octet. -/
def payload (b : UInt8) : Nat := b.toNat % 64

def ofTwo (a b : UInt8) : Char := Char.ofNat (a.toNat % 32 * 64 + payload b)

def ofThree (a b c : UInt8) : Char :=
  Char.ofNat (a.toNat % 16 * 4096 + payload b * 64 + payload c)

def ofFour (a b c d : UInt8) : Char :=
  Char.ofNat (a.toNat % 8 * 262144 + payload b * 4096 + payload c * 64 + payload d)

/-- The pieces of `bs`, put in front of `done` in reverse order; `none` is a bad stretch. -/
def piecesOnto (done : List (Option Char)) : Bytes → List (Option Char)
  | [] => done
  | a :: bs =>
    if a < 0x80 then piecesOnto (some (Char.ofNat a.toNat) :: done) bs
    else if 0xC2 ≤ a && a ≤ 0xDF then
      match bs with
      | [] => none :: done
      | b :: cs =>
        if isTail b then piecesOnto (some (ofTwo a b) :: done) cs
        else piecesOnto (none :: done) (b :: cs)
    else if 0xE0 ≤ a && a ≤ 0xEF then
      match bs with
      | [] => none :: done
      | b :: cs =>
        if isSecondOfThree a b then
          match cs with
          | [] => none :: done
          | c :: ds =>
            if isTail c then piecesOnto (some (ofThree a b c) :: done) ds
            else piecesOnto (none :: done) (c :: ds)
        else piecesOnto (none :: done) (b :: cs)
    else if 0xF0 ≤ a && a ≤ 0xF4 then
      match bs with
      | [] => none :: done
      | b :: cs =>
        if isSecondOfFour a b then
          match cs with
          | [] => none :: done
          | c :: ds =>
            if isTail c then
              match ds with
              | [] => none :: done
              | d :: es =>
                if isTail d then piecesOnto (some (ofFour a b c d) :: done) es
                else piecesOnto (none :: done) (d :: es)
            else piecesOnto (none :: done) (c :: ds)
        else piecesOnto (none :: done) (b :: cs)
    else piecesOnto (none :: done) bs

/-- The pieces of `bs` in order. -/
def pieces (bs : Bytes) : List (Option Char) := (piecesOnto [] bs).reverse

/-- The text that `bs` encodes, if every piece is a character. -/
def decode? (bs : Bytes) : Option String :=
  ((pieces bs).mapM id).map String.ofList

/-- The text of `bs` with U+FFFD for each bad stretch. -/
def lossy (bs : Bytes) : String :=
  String.ofList ((pieces bs).map (·.getD '�'))

end Logbook.Text.Utf8
