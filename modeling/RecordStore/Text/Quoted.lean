import RecordStore.Text.Unshown

/-! # Quoted text

Text inside a summary stands between double quotes. A quote, a backslash, and the commonest controls have short
escapes; any other character that would not be seen is written by its number in hexadecimal. -/

namespace RecordStore.Text

/-- A number in hexadecimal, with small letters. -/
def hexDigits (n : Nat) : String := String.ofList (Nat.toDigits 16 n)

/-- How one character is shown between quotes. -/
def escape (c : Char) : String :=
  match c with
  | '\x00' => "\\0"
  | '\t' => "\\t"
  | '\r' => "\\r"
  | '\n' => "\\n"
  | '"' => "\\\""
  | '\\' => "\\\\"
  | _ =>
    if c.toNat < 0x20 || (0x7F ≤ c.toNat && isUnshown c) then "\\u\x7b" ++ hexDigits c.toNat ++ "\x7d"
    else c.toString

def quoted (s : String) : String := "\"" ++ String.join (s.toList.map escape) ++ "\""

end RecordStore.Text
