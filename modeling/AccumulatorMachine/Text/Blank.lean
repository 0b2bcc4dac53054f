/-! Source text is a list of characters, so that whatever reads it recurses on it.
Blank characters are those with the Unicode property White_Space. -/
namespace AccumulatorMachine

abbrev Text := List Char

namespace Text

def utf8Size (t : Text) : Nat := t.foldl (fun n c => n + c.utf8Size) 0

/-- The code points with the property White_Space, in ascending order. -/
def blankCodes : List Nat :=
  [0x9, 0xA, 0xB, 0xC, 0xD, 0x20, 0x85, 0xA0, 0x1680, 0x2000, 0x2001, 0x2002, 0x2003, 0x2004,
    0x2005, 0x2006, 0x2007, 0x2008, 0x2009, 0x200A, 0x2028, 0x2029, 0x202F, 0x205F, 0x3000]

def isBlank (c : Char) : Bool := blankCodes.contains c.toNat

def trimStart (t : Text) : Text := t.dropWhile isBlank

def trimEnd (t : Text) : Text := (t.reverse.dropWhile isBlank).reverse

def trim (t : Text) : Text := trimEnd (trimStart t)

end Text

end AccumulatorMachine
