import Opstream.Text.DisplayWidth.Emoji
import Opstream.Text.DisplayWidth.Ligature

/-!
Clusters of characters that are drawn as one: ligatures, flags, and pictures composed of
others. A cluster grows to the left, since its last character decides what may join it.
-/

namespace Opstream.Text

/-- What a cluster may still grow into. The shapes of letters remember whether a joiner has
been met in front of them. -/
inductive Shape where
  | plain
  | arabicAlef
  | hebrewLamed (joined : Bool)
  | khmerLetter
  | bugineseYa (joined : Bool)
  | bugineseVowel
  | tifinaghLetter (joined : Bool)
  | tifinaghPair
  | lisuTone
  | orkhonI (joined : Bool)
  | emoji
  | skinTone
  | flag (letters : Nat)
  | joinedEmoji
  | joinedKeycap
  | joinedStyle
  | joinedFlag (letters : Nat)
  | tags (letters : Nat)
  | digitTags (digits : Nat)
  deriving DecidableEq, Repr

/-- The style that a selector asks of the character in front of it. -/
inductive Style where
  | unasked
  | emoji
  | text
  deriving DecidableEq, Repr

structure Cluster where
  width : Nat
  shape : Shape
  style : Style
  deriving DecidableEq, Repr

namespace Shape

def ofCharacter (code : Nat) : Shape :=
  if code = Text.hebrewLamed then .hebrewLamed false
  else if isArabicAlef code then .arabicAlef
  else if isKhmerLetter code then .khmerLetter
  else if code = Text.bugineseYa then .bugineseYa false
  else if isTifinaghLetter code then .tifinaghLetter false
  else if isLisuLastTone code then .lisuTone
  else if code = Text.orkhonI then .orkhonI false
  else if isFlagLetter code then .flag 1
  else if isSkinTone code then .skinTone
  else if isEmoji code then .emoji
  else .plain

/-- Letters of a ligature, which a style selector leaves as they are. -/
def isLetter : Shape → Bool
  | .arabicAlef | .hebrewLamed _ | .khmerLetter | .bugineseYa _ | .bugineseVowel
  | .tifinaghLetter _ | .tifinaghPair | .lisuTone | .orkhonI _ => true
  | _ => false

def joined : Shape → Shape
  | .hebrewLamed _ => .hebrewLamed true
  | .bugineseYa _ => .bugineseYa true
  | .tifinaghLetter _ => .tifinaghLetter true
  | .orkhonI _ => .orkhonI true
  | other => other

end Shape

namespace Cluster

def plain (width : Nat) : Cluster := ⟨width, .plain, .unasked⟩

def ofCharacter (code : Nat) : Cluster :=
  ⟨singleWidth code, .ofCharacter code, .unasked⟩

/-- A selector of the emoji style may also stand in the middle of a composed picture. -/
def askEmoji (cluster : Cluster) : Cluster :=
  match cluster.shape with
  | .joinedEmoji | .joinedKeycap => { cluster with shape := .joinedStyle }
  | shape => ⟨cluster.width, if shape.isLetter then shape else .plain, .emoji⟩

def askText (cluster : Cluster) : Cluster :=
  ⟨cluster.width, if cluster.shape.isLetter then cluster.shape else .plain, .text⟩

/-- A letter's cluster with one more character in front of it, if that belongs to it. -/
def growLetter? (code width : Nat) (shape : Shape) : Option Cluster :=
  match shape with
  | .arabicAlef =>
      if isArabicLam code then some (plain width)
      else if isArabicTransparent code then some ⟨width, .arabicAlef, .unasked⟩
      else none
  | .hebrewLamed true => if code = hebrewAlef then some (plain width) else none
  | .khmerLetter => if code = khmerCoeng then some (plain (width - 1)) else none
  | .bugineseYa true =>
      if code = bugineseVowelI then some ⟨width, .bugineseVowel, .unasked⟩ else none
  | .bugineseVowel => if code = bugineseLetterO then some (plain width) else none
  | .tifinaghLetter paired =>
      if code = tifinaghJoiner then some ⟨width + 1, .tifinaghPair, .unasked⟩
      else if paired && isTifinaghLetter code then some (plain width)
      else none
  | .tifinaghPair => if isTifinaghLetter code then some (plain (width - 1)) else none
  | .lisuTone => if isLisuFirstTone code then some (plain width) else none
  | .orkhonI true => if code = orkhonEc then some (plain width) else none
  | _ => none

/-- A picture's cluster with one more character in front of it, if that belongs to it. Flag
letters pair off from the left: in front of a joiner an even run ends in a flag, which is drawn
with the picture behind it, and an odd run ends in a letter by itself. -/
def growPicture? (code width : Nat) (shape : Shape) : Option Cluster :=
  let grown (width : Nat) (shape : Shape) := some (⟨width, shape, .unasked⟩ : Cluster)
  match shape with
  | .emoji => if code = joiner then grown width .joinedEmoji else none
  | .skinTone =>
      if takesSkinTone code then grown width .emoji
      else if code = joiner then grown width .joinedEmoji
      else none
  | .flag letters =>
      if isFlagLetter code then grown (width + 1) (.flag (letters + 1))
      else if code = joiner && 2 ≤ letters then grown width .joinedEmoji
      else none
  | .joinedEmoji =>
      if code = keycap then grown width .joinedKeycap
      else if isFlagLetter code then grown (width + 1) (.joinedFlag 1)
      else if isSkinTone code then grown width .skinTone
      else if code = cancelTag then grown width (.tags 0)
      else if isEmoji code then grown width .emoji
      else none
  | .joinedFlag letters =>
      if isFlagLetter code then
        let width := if letters % 2 = 0 then width + 3 else width - 1
        grown width (.joinedFlag (letters + 1))
      else if code = joiner && 2 ≤ letters then grown width .joinedEmoji
      else none
  | .joinedStyle => if takesEmojiStyle code then grown width .emoji else none
  | .tags letters =>
      if isTagLetter code && letters < 6 then grown width (.tags (letters + 1))
      else if isTagDigit code && letters < 5 then grown width (.digitTags 1)
      else if code = blackFlag && 3 ≤ letters then grown width .emoji
      else none
  | .digitTags digits =>
      if isTagDigit code && digits < 3 then grown width (.digitTags (digits + 1))
      else if code = blackFlag && digits = 3 then grown width .emoji
      else none
  | _ => none

/-- The cluster with one more character in front of it, if that belongs to it. A request for a
style has been met or dropped by then, unless the character is a selector itself. -/
def grow? (code : Nat) (cluster : Cluster) : Option Cluster :=
  if code = emojiStyle then some cluster.askEmoji
  else if code = textStyle then some cluster.askText
  else if !cluster.shape.isLetter then growPicture? code cluster.width cluster.shape
  else if cluster.shape ≠ .arabicAlef && isLigatureTransparent code then
    let shape := if code = joiner then cluster.shape.joined else cluster.shape
    some ⟨cluster.width, shape, .unasked⟩
  else growLetter? code cluster.width cluster.shape

/-- What the character is by itself, in the style that the cluster behind it asks for. -/
def ofStyled (code : Nat) (asked : Style) : Option Cluster :=
  match asked with
  | .unasked => none
  | .emoji => if takesEmojiStyle code then some ⟨2, .emoji, .unasked⟩ else none
  | .text => if takesTextStyle code then some (plain 1) else none

theorem grow_plain (code width : Nat) (asked : Style) :
    grow? code ⟨width, .plain, asked⟩ =
      if code = emojiStyle then some ⟨width, .plain, .emoji⟩
      else if code = textStyle then some ⟨width, .plain, .text⟩
      else none := rfl

set_option maxRecDepth 8000 in
theorem grow_blank (cluster : Cluster) : cluster.grow? ' '.toNat = none := by
  obtain ⟨width, shape, style⟩ := cluster
  cases shape with
  | hebrewLamed joined => cases joined <;> rfl
  | bugineseYa joined => cases joined <;> rfl
  | tifinaghLetter joined => cases joined <;> rfl
  | orkhonI joined => cases joined <;> rfl
  | _ => rfl

set_option maxRecDepth 8000 in
theorem styled_blank (asked : Style) : ofStyled ' '.toNat asked = none := by
  cases asked <;> rfl

theorem blank : ofCharacter ' '.toNat = plain 1 := rfl

end Cluster

end Opstream.Text
