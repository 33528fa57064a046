namespace SwiftSource.Text

def isControl (c : Char) : Bool :=
  c.toNat ≤ 0x1f || (0x7f ≤ c.toNat && c.toNat ≤ 0x9f)

-- A code point by its lowercase hexadecimal number.
def codePoint (c : Char) : List Char :=
  ['\\', 'u', '{'] ++ Nat.toDigits 16 c.toNat ++ ['}']

-- One character inside quotes. Six characters have a short escape. Any other character is
-- written by its number if `hidden` says so, and as it is otherwise.
def escapeChar (hidden : Char → Bool) (c : Char) : List Char :=
  if c = '\\' then ['\\', '\\']
  else if c = '"' then ['\\', '"']
  else if c = '\n' then ['\\', 'n']
  else if c = '\r' then ['\\', 'r']
  else if c = '\t' then ['\\', 't']
  else if c = '\x00' then ['\\', '0']
  else if hidden c then codePoint c
  else [c]

def escape (hidden : Char → Bool) (text : List Char) : List Char :=
  text.flatMap (escapeChar hidden)

@[simp]
theorem escape_nil (hidden : Char → Bool) : escape hidden [] = [] := rfl

@[simp]
theorem escape_cons (hidden : Char → Bool) (c : Char) (text : List Char) :
    escape hidden (c :: text) = escapeChar hidden c ++ escape hidden text := rfl

def quote (hidden : Char → Bool) (text : String) : String :=
  String.ofList ('"' :: escape hidden text.toList ++ ['"'])

-- A string literal of the language. Its control characters are the hidden ones.
def stringLiteral (text : String) : String :=
  quote isControl text

end SwiftSource.Text
