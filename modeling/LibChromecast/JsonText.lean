import LibChromecast.JsonMessage

/-!
# Reading and writing JSON texts

A reader and a writer that agree with RapidJSON on texts without fractions,
exponents and `\u` escapes: the root is an object or an array, nothing but
white space follows it, and a malformed text gives a null document.
-/

namespace LibChromecast

namespace JsonText

def isSpace (byte : UInt8) : Bool :=
  byte = 32 ∨ byte = 9 ∨ byte = 10 ∨ byte = 13

def isDigit (byte : UInt8) : Bool := 48 ≤ byte ∧ byte ≤ 57

def skipSpace (text : StdString) : StdString := text.dropWhile isSpace

/-! ## Writing -/

def escape (byte : UInt8) : StdString :=
  if byte = 34 then lit "\\\""
  else if byte = 92 then lit "\\\\"
  else if byte = 8 then lit "\\b"
  else if byte = 9 then lit "\\t"
  else if byte = 10 then lit "\\n"
  else if byte = 12 then lit "\\f"
  else if byte = 13 then lit "\\r"
  else if byte < 32 then
    lit "\\u00" ++ [48 + byte / 16,
      if byte % 16 < 10 then 48 + byte % 16 else 55 + byte % 16]
  else [byte]

def writeString (text : StdString) : StdString :=
  lit "\"" ++ text.flatMap escape ++ lit "\""

def writeNat : ℕ → ℕ → StdString
  | 0, _ => []
  | digits + 1, n =>
      if n < 10 then [UInt8.ofNat (48 + n)]
      else writeNat digits (n / 10) ++ [UInt8.ofNat (48 + n % 10)]

def separate : List StdString → StdString
  | [] => []
  | [text] => text
  | text :: rest => text ++ lit "," ++ separate rest

mutual

def write : Json → StdString
  | .null => lit "null"
  | .bool true => lit "true"
  | .bool false => lit "false"
  | .uint value => writeNat 20 value.toNat
  | .negInt magnitude => lit "-" ++ writeNat 20 magnitude.toNat
  | .double _ => lit "0"
  | .string text => writeString text
  | .array items => lit "[" ++ separate (writeItems items) ++ lit "]"
  | .object members =>
      lit "\x7b" ++ separate (writeMembers members) ++ lit "\x7d"

def writeItems : List Json → List StdString
  | [] => []
  | item :: rest => write item :: writeItems rest

def writeMembers : List (StdString × Json) → List StdString
  | [] => []
  | entry :: rest => writeMember entry :: writeMembers rest

def writeMember : StdString × Json → StdString
  | (name, value) => writeString name ++ lit ":" ++ write value

end

/-! ## Reading -/

def unescape (byte : UInt8) : Option UInt8 :=
  if byte = 34 ∨ byte = 92 ∨ byte = 47 then some byte
  else if byte = 98 then some 8
  else if byte = 116 then some 9
  else if byte = 110 then some 10
  else if byte = 102 then some 12
  else if byte = 114 then some 13
  else none

/-- The rest of a string whose opening quote is read. -/
def readString : StdString → Option (StdString × StdString)
  | [] => none
  | byte :: rest =>
      if byte = 34 then some ([], rest)
      else if byte = 92 then
        match rest with
        | [] => none
        | code :: rest => do
            let byte ← unescape code
            let (text, rest) ← readString rest
            pure (byte :: text, rest)
      else if byte < 32 then none
      else do
        let (text, rest) ← readString rest
        pure (byte :: text, rest)

/-- A number: no leading zeros, no fraction, 64 bits. -/
def readNat (text : StdString) : Option (ℕ × StdString) :=
  let digits := text.takeWhile isDigit
  let rest := text.dropWhile isDigit
  let value := digits.foldl (fun n byte => 10 * n + (byte.toNat - 48)) 0
  if digits = [] ∨ (digits.head? = some 48 ∧ 1 < digits.length) then none
  else if rest.head? = some 46 ∨ rest.head? = some 101 ∨
      rest.head? = some 69 then none
  else if value < 2 ^ 64 then some (value, rest)
  else none

def readWord (word : StdString) (value : Json) (text : StdString) :
    Option (Json × StdString) :=
  if word.isPrefixOf text then some (value, text.drop word.length) else none

mutual

/-- A value after white space; the fuel bounds the number of values. -/
def readValue : ℕ → StdString → Option (Json × StdString)
  | 0, _ => none
  | fuel + 1, text =>
      match skipSpace text with
      | [] => none
      | byte :: rest =>
          if byte = 123 then do
            let (members, rest) ← readMembers fuel true rest
            pure (.object members, rest)
          else if byte = 91 then do
            let (items, rest) ← readItems fuel true rest
            pure (.array items, rest)
          else if byte = 34 then do
            let (text, rest) ← readString rest
            pure (.string text, rest)
          else if byte = 45 then do
            let (n, rest) ← readNat rest
            if n ≤ 2 ^ 63 then
              pure (if n = 0 then .uint 0 else .negInt (UInt64.ofNat n),
                rest)
            else none
          else if byte = 116 then readWord (lit "rue") (.bool true) rest
          else if byte = 102 then readWord (lit "alse") (.bool false) rest
          else if byte = 110 then readWord (lit "ull") .null rest
          else do
            let (n, rest) ← readNat (byte :: rest)
            pure (.uint (UInt64.ofNat n), rest)

def readItems : ℕ → Bool → StdString → Option (List Json × StdString)
  | 0, _, _ => none
  | fuel + 1, first, text =>
      match skipSpace text with
      | [] => none
      | byte :: rest =>
          if byte = 93 then some ([], rest)
          else if first ∨ byte = 44 then do
            let (item, rest) ←
              readValue fuel (if first then byte :: rest else rest)
            let (items, rest) ← readItems fuel false rest
            pure (item :: items, rest)
          else none

def readMembers : ℕ → Bool → StdString →
    Option (List (StdString × Json) × StdString)
  | 0, _, _ => none
  | fuel + 1, first, text =>
      match skipSpace text with
      | [] => none
      | byte :: rest =>
          if byte = 125 then some ([], rest)
          else if first ∨ byte = 44 then
            match skipSpace (if first then byte :: rest else rest) with
            | [] => none
            | quote :: rest =>
                if quote = 34 then do
                  let (name, rest) ← readString rest
                  match skipSpace rest with
                  | [] => none
                  | colon :: rest =>
                      if colon = 58 then do
                        let (value, rest) ← readValue fuel rest
                        let (members, rest) ← readMembers fuel false rest
                        pure ((name, value) :: members, rest)
                      else none
                else none
          else none

end

def parse (text : StdString) : Json :=
  match readValue (text.length + 1) text with
  | some (.object members, rest) =>
      if skipSpace rest = [] then .object members else .null
  | some (.array items, rest) =>
      if skipSpace rest = [] then .array items else .null
  | _ => .null

end JsonText

def textJson : RapidJson where
  parse := JsonText.parse
  write := JsonText.write

end LibChromecast
