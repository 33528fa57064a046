import SwiftSource.Double.Shortest

namespace SwiftSource.Double

namespace Decimal

-- Written with a point among the digits, at least one digit on each side of it. The point
-- stands behind as many digits as `point` exceeds 324.
def positional (digits : List Char) (point : Nat) : List Char :=
  if point ≤ 324 then
    ['0', '.'] ++ List.replicate (324 - point) '0' ++ digits
  else
    let whole := point - 324
    if digits.length ≤ whole then
      digits ++ List.replicate (whole - digits.length) '0' ++ ['.', '0']
    else
      digits.take whole ++ '.' :: digits.drop whole

-- Written with one digit before the point and the power of ten behind. The point is left
-- out when no digit follows it.
def scientific (digits : List Char) (point : Nat) : List Char :=
  let power := (toString ((point : Int) - 325)).toList
  match digits with
  | [] => []
  | [first] => first :: 'e' :: power
  | first :: rest => first :: '.' :: rest ++ 'e' :: power

-- Positional from `10 ^ -4` up to, and without, `10 ^ 16`.
def numeral (d : Decimal) : List Char :=
  let digits := Nat.toDigits 10 d.digits
  let point := digits.length + d.exponent
  if 321 ≤ point ∧ point ≤ 340 then positional digits point else scientific digits point

end Decimal

def Magnitude.numeral (m : Magnitude) : List Char :=
  if m.significand = 0 then ['0', '.', '0'] else m.shortest.numeral

-- The numeral of a finite double, with the sign kept also on a zero.
def signedNumeral (isNegative : Bool) (m : Magnitude) : String :=
  String.ofList (if isNegative then '-' :: m.numeral else m.numeral)

end SwiftSource.Double
