import Descent.Text.Case
import Descent.Text.Mark

/-!
# Lower case of a whole text

Most characters have a lower case form of their own, whatever stands around them. There are two exceptions. A
dotted capital I becomes two characters, an `i` and a dot above. A capital sigma becomes a final sigma at the
end of a word: where a letter with case comes before it and none after it, marks and the like apart.
-/

namespace Descent.Text

/-- Characters apart from nonspacing marks that are looked past when the ends of a word are sought: modifiers,
format controls and the punctuation of words. -/
def wordJoinerRanges : List (Nat × Nat) :=
  [(39, 39), (46, 46), (58, 58), (94, 94), (96, 96), (168, 168), (173, 173), (175, 175),
   (180, 180), (183, 184), (688, 767), (884, 885), (890, 890), (900, 901), (903, 903),
   (1160, 1161), (1369, 1369), (1375, 1375), (1524, 1524), (1536, 1541), (1564, 1564),
   (1600, 1600), (1757, 1757), (1765, 1766), (1807, 1807), (2036, 2037), (2042, 2042),
   (2074, 2074), (2084, 2084), (2088, 2088), (2184, 2184), (2192, 2193), (2249, 2249),
   (2274, 2274), (2417, 2417), (3654, 3654), (3782, 3782), (4348, 4348), (6103, 6103),
   (6158, 6158), (6211, 6211), (6823, 6823), (6846, 6846), (7288, 7293), (7468, 7530),
   (7544, 7544), (7579, 7615), (8125, 8125), (8127, 8129), (8141, 8143), (8157, 8159),
   (8173, 8175), (8189, 8190), (8203, 8207), (8216, 8217), (8228, 8228), (8231, 8231),
   (8234, 8238), (8288, 8292), (8294, 8303), (8305, 8305), (8319, 8319), (8336, 8348),
   (8413, 8416), (8418, 8420), (11388, 11389), (11631, 11631), (11823, 11823), (12293, 12293),
   (12337, 12341), (12347, 12347), (12443, 12446), (12540, 12542), (40981, 40981), (42232, 42237),
   (42508, 42508), (42608, 42610), (42623, 42623), (42652, 42653), (42752, 42785), (42864, 42864),
   (42888, 42890), (42994, 42996), (43000, 43001), (43471, 43471), (43494, 43494), (43632, 43632),
   (43741, 43741), (43763, 43764), (43867, 43871), (43881, 43883), (64434, 64450), (65043, 65043),
   (65106, 65106), (65109, 65109), (65279, 65279), (65287, 65287), (65294, 65294), (65306, 65306),
   (65342, 65342), (65344, 65344), (65392, 65392), (65438, 65439), (65507, 65507), (65529, 65531),
   (67456, 67461), (67463, 67504), (67506, 67514), (69821, 69821), (69837, 69837), (78896, 78904),
   (92992, 92995), (94099, 94111), (94176, 94177), (94179, 94179), (110576, 110579),
   (110581, 110587), (110589, 110590), (113824, 113827), (119155, 119162), (123191, 123197),
   (125259, 125259), (127995, 127999), (917505, 917505), (917536, 917631)]

def titleRanges : List (Nat × Nat) :=
  [(453, 453), (456, 456), (459, 459), (498, 498), (8072, 8079), (8088, 8095), (8104, 8111),
   (8124, 8124), (8140, 8140), (8188, 8188)]

/-- A character that is looked past when the ends of a word are sought. -/
def isCaseIgnored (code : Nat) : Bool := isNonspacingMark code || inRanges wordJoinerRanges code

def hasCase (code : Nat) : Bool := isLower code || isUpper code || inRanges titleRanges code

/-- Whether a letter with case is next, past what is looked past. -/
def meetsCase (chars : List Char) : Bool :=
  ((chars.dropWhile fun c => isCaseIgnored c.toNat).head?.map fun c => hasCase c.toNat).getD false

/-- The lower case form of a character between what is before it, nearest first, and what is after it. -/
def lowerBetween (before : List Char) (c : Char) (after : List Char) : List Char :=
  if c = 'Σ' then if meetsCase before && !meetsCase after then ['ς'] else ['σ']
  else if c = 'İ' then ['i', '\u0307']
  else [Char.ofNat (lower c.toNat)]

def lowerText (text : List Char) : List Char := go [] text
where
  /-- Goes on after `before`, nearest first. -/
  go (before : List Char) : List Char → List Char
    | [] => []
    | c :: rest => lowerBetween before c rest ++ go (c :: before) rest

end Descent.Text
