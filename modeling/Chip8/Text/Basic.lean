namespace Chip8

abbrev Text := List Char

namespace Text

def isBlank (c : Char) : Bool :=
  let n := c.toNat
  (0x09 ≤ n && n ≤ 0x0D) || (0x1C ≤ n && n ≤ 0x20) || n == 0x85 || n == 0xA0 || n == 0x1680 ||
    (0x2000 ≤ n && n ≤ 0x200A) || n == 0x2028 || n == 0x2029 || n == 0x202F || n == 0x205F ||
    n == 0x3000

def trimStart (t : Text) : Text := t.dropWhile isBlank

def trimEnd (t : Text) : Text := (t.reverse.dropWhile isBlank).reverse

def trim (t : Text) : Text := trimEnd (trimStart t)

def pieces (p : Char → Bool) : Text → List Text
  | [] => [[]]
  | c :: t =>
    if p c then [] :: pieces p t
    else
      match pieces p t with
      | [] => [[c]]
      | w :: ws => (c :: w) :: ws

def words (t : Text) : List Text := (pieces isBlank t).filter (fun w => !w.isEmpty)

def dropFinalFeed (t : Text) : Text :=
  if t.getLast? = some '\n' then t.dropLast else t

def isWordChar (c : Char) : Bool := c.isAlphanum || c == '_'

def lowerAscii (t : Text) : Text := t.map Char.toLower

end Text

end Chip8
