import JobBroker.Text.Shapeless

/-!
# Quoted text

A text between double quotes, with everything in it that could not be read back by sight written
as an escape: a short one for the common controls, the quote and the backslash, and the number in
hexadecimal for every other character without a shape.
-/

namespace JobBroker.Quoted

def hexadecimal (c : Char) : List Char := Nat.toDigits 16 c.toNat

def escape (c : Char) : List Char :=
  match c with
  | '\x00' => ['\\', '0']
  | '\t' => ['\\', 't']
  | '\r' => ['\\', 'r']
  | '\n' => ['\\', 'n']
  | '\\' => ['\\', '\\']
  | '"' => ['\\', '"']
  | c => if Shapeless.contains c then ['\\', 'u', '\x7b'] ++ hexadecimal c ++ ['\x7d'] else [c]

def quote (text : String) : String :=
  String.ofList (['"'] ++ text.toList.flatMap escape ++ ['"'])

example : quote "it's \"so\"\n" = "\"it's \\\"so\\\"\\n\"" := by decide +kernel

example : quote "\x01\x7f" = "\"\\u\x7b1\x7d\\u\x7b7f\x7d\"" := by decide +kernel

end JobBroker.Quoted
