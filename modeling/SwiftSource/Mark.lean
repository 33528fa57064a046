import SwiftSource.Tree.Fingerprint

namespace SwiftSource

-- A payload that can be written down: nothing, a truth value, a number or a text.
inductive Mark where
  | none
  | flag (value : Bool)
  | number (value : Int64)
  | text (value : String)
deriving DecidableEq

namespace Mark

instance : Fingerprint Mark where
  words
    | .none => [0]
    | .flag value => 1 :: Fingerprint.words value
    | .number value => [2, value.toUInt64.toNat]
    | .text value => 3 :: Fingerprint.words value

def shown : Mark → String
  | .none => "null"
  | .flag value => if value then "true" else "false"
  | .number value => toString value.toInt
  | .text value => value

-- The number of characters, zero for all but texts.
def length : Mark → Nat
  | .text value => value.length
  | _ => 0

def isEven : Mark → Bool
  | .number value => value.toInt % 2 == 0
  | _ => false

-- Arithmetic wraps at 64 bits and leaves marks other than numbers alone.
def onNumber (f : Int64 → Int64) : Mark → Mark
  | .number value => .number (f value)
  | mark => mark

end Mark

end SwiftSource
