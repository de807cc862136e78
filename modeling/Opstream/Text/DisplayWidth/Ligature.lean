import Opstream.Text.DisplayWidth.Single

/-!
Classes of letters that a script draws as one, and of the characters that may stand between.
-/

namespace Opstream.Text

def joiner : Nat := 0x200d

/-- Joiners and variation selectors between two letters leave their ligature whole. -/
def ligatureTransparentRanges : List (Nat × Nat) :=
   [(0x34f, 0x34f), (0x17b4, 0x17b5), (0x180b, 0x180d), (0x180f, 0x180f), (0x200d, 0x200d),
    (0xfe00, 0xfe0f), (0xe0100, 0xe01ef)]

def arabicAlefRanges : List (Nat × Nat) :=
   [(0x622, 0x623), (0x625, 0x625), (0x627, 0x627), (0x671, 0x673), (0x675, 0x675),
    (0x773, 0x774), (0x870, 0x882)]

def arabicLamRanges : List (Nat × Nat) :=
   [(0x644, 0x644), (0x6b5, 0x6b8), (0x76a, 0x76a), (0x8a6, 0x8a6), (0x8c7, 0x8c7)]

/-- Characters without width that Arabic letters do not join across. -/
def arabicBreakRanges : List (Nat × Nat) :=
   [(0x605, 0x605), (0x890, 0x891), (0x8e2, 0x8e2), (0x9be, 0x9be), (0x9d7, 0x9d7),
    (0xb3e, 0xb3e), (0xb57, 0xb57), (0xbbe, 0xbbe), (0xbd7, 0xbd7), (0xcc0, 0xcc0),
    (0xcc2, 0xcc2), (0xcc7, 0xcc8), (0xcca, 0xccb), (0xcd5, 0xcd6), (0xd3e, 0xd3e),
    (0xd4e, 0xd4e), (0xd57, 0xd57), (0xdcf, 0xdcf), (0xddf, 0xddf), (0x1160, 0x11ff),
    (0x180e, 0x180e), (0x1b35, 0x1b35), (0x1b3b, 0x1b3b), (0x1b3d, 0x1b3d), (0x1b43, 0x1b43),
    (0x200c, 0x200d), (0x2065, 0x2069), (0x302e, 0x302f), (0x3164, 0x3164), (0xa8fa, 0xa8fa),
    (0xd7b0, 0xd7c6), (0xd7cb, 0xd7fb), (0xff9e, 0xffa0), (0xfff0, 0xfff8), (0x111c2, 0x111c3),
    (0x1133e, 0x1133e), (0x11357, 0x11357), (0x114b0, 0x114b0), (0x114bd, 0x114bd),
    (0x115af, 0x115af), (0x11930, 0x11930), (0x1193f, 0x1193f), (0x11941, 0x11941),
    (0x11a3a, 0x11a3a), (0x11a84, 0x11a89), (0x11d46, 0x11d46), (0x11f02, 0x11f02),
    (0x1d165, 0x1d165), (0x1d16e, 0x1d172), (0xe0000, 0xe0000), (0xe0002, 0xe001f),
    (0xe0080, 0xe00ff), (0xe01f0, 0xe0fff)]

/-- Khmer consonants and independent vowels that have a form below another letter. -/
def khmerLetterRanges : List (Nat × Nat) :=
   [(0x1780, 0x1782), (0x1784, 0x1787), (0x1789, 0x178c), (0x178e, 0x1793), (0x1795, 0x1798),
    (0x179b, 0x179d), (0x17a0, 0x17a0), (0x17a2, 0x17a2), (0x17a7, 0x17a7), (0x17ab, 0x17ac),
    (0x17af, 0x17af)]

def isLigatureTransparent (code : Nat) : Bool := inRanges code ligatureTransparentRanges

def isArabicAlef (code : Nat) : Bool := inRanges code arabicAlefRanges

def isArabicLam (code : Nat) : Bool := inRanges code arabicLamRanges

def isArabicTransparent (code : Nat) : Bool :=
  isZeroWidth code && !inRanges code arabicBreakRanges

def hebrewAlef : Nat := 0x5d0

def hebrewLamed : Nat := 0x5dc

/-- The sign that puts the Khmer letter behind it below the one in front. -/
def khmerCoeng : Nat := 0x17d2

def isKhmerLetter (code : Nat) : Bool := inRanges code khmerLetterRanges

def bugineseYa : Nat := 0x1a10

def bugineseVowelI : Nat := 0x1a17

def bugineseLetterO : Nat := 0x1a15

def isTifinaghLetter (code : Nat) : Bool :=
  (0x2d31 ≤ code && code ≤ 0x2d65) || code = 0x2d6f

/-- It makes one letter of the two around it, and is drawn where it does not. -/
def tifinaghJoiner : Nat := 0x2d7f

/-- Of the six tones of Lisu, the last two may follow another and share its column. -/
def isLisuLastTone (code : Nat) : Bool := 0xa4fc ≤ code && code ≤ 0xa4fd

def isLisuFirstTone (code : Nat) : Bool := 0xa4f8 ≤ code && code ≤ 0xa4fb

def orkhonI : Nat := 0x10c03

def orkhonEc : Nat := 0x10c32

end Opstream.Text
