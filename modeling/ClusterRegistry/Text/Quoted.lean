import ClusterRegistry.Bytes

/-!
Text as it stands inside messages: quoted strings, keys and bytes in hexadecimal.
-/
namespace ClusterRegistry

/-- Two lower-case digits for each byte. -/
def Bytes.hex (bytes : Bytes) : String :=
  String.ofList (bytes.flatMap fun byte =>
    [Nat.digitChar (byte.toNat / 16), Nat.digitChar (byte.toNat % 16)])

namespace Quoted

def isControl (c : Char) : Bool :=
  c.toNat < 0x20 || (0x7f ≤ c.toNat && c.toNat < 0xa0)

/-- A quote, a backslash and a control character are escaped; all else stands for itself. -/
def escape (c : Char) : List Char :=
  match c with
  | '"' => ['\\', '"']
  | '\\' => ['\\', '\\']
  | '\n' => ['\\', 'n']
  | '\r' => ['\\', 'r']
  | '\t' => ['\\', 't']
  | '\x00' => ['\\', '0']
  | c =>
    if isControl c then
      ['\\', 'u', '\x7b'] ++ Nat.toDigits 16 c.toNat ++ ['\x7d']
    else [c]

def text (s : String) : String :=
  String.ofList ('"' :: (s.toList.flatMap escape ++ ['"']))

/-- A key is quoted where it is text and written in hexadecimal where it is not. -/
def key (k : Bytes) : String :=
  match Bytes.text? k with
  | some s => text s
  | none => "0x" ++ k.hex

def byteList (bytes : Bytes) : String :=
  "[" ++ ", ".intercalate (bytes.map fun byte => Bytes.hex [byte]) ++ "]"

end Quoted

end ClusterRegistry
