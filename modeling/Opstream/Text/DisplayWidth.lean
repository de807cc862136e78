import Opstream.Text.DisplayWidth.Cluster

/-!
Columns that text takes on a terminal. Marks stand on the character before them and take none,
wide characters take two, and characters that are drawn as one count as one. Main statement: a
blank ends whatever stands before it, so the parts of a text around it are measured apart.
-/

namespace Opstream.Text

/-- A text measured from its end: the columns of its finished clusters, and the cluster that
the next character may still join. -/
structure Measure where
  finished : Nat
  pending : Cluster

namespace Measure

def start : Measure := ⟨0, .plain 0⟩

def total (measure : Measure) : Nat := measure.finished + measure.pending.width

def follow (measure : Measure) (cluster : Cluster) : Measure := ⟨measure.total, cluster⟩

def add (code : Nat) (measure : Measure) : Measure :=
  match Cluster.ofStyled code measure.pending.style with
  | some cluster => measure.follow cluster
  | none =>
      match measure.pending.grow? code with
      | some cluster => { measure with pending := cluster }
      | none => measure.follow (.ofCharacter code)

def ofText (text : List Char) : Measure :=
  text.foldr (fun char measure => measure.add char.toNat) start

/-- Both measures are to be continued alike, and one of them has that many columns more. -/
structure Beyond (columns : Nat) (less more : Measure) : Prop where
  total : more.total = less.total + columns
  shape : more.pending.shape = less.pending.shape
  style : more.pending.style = less.pending.style
  width : more.pending.width = less.pending.width ∨ less.pending.shape = .plain

theorem follow_beyond {columns : Nat} {less more : Measure} (beyond : Beyond columns less more)
    (cluster : Cluster) : Beyond columns (less.follow cluster) (more.follow cluster) := by
  refine ⟨?_, rfl, rfl, .inl rfl⟩
  change more.total + cluster.width = less.total + cluster.width + columns
  have total := beyond.total
  omega

theorem add_beyond {columns : Nat} {less more : Measure} (beyond : Beyond columns less more)
    (code : Nat) : Beyond columns (less.add code) (more.add code) := by
  obtain ⟨finished, width, shape, style⟩ := less
  obtain ⟨moreFinished, moreWidth, moreShape, moreStyle⟩ := more
  obtain ⟨total, sameShape, sameStyle, widths⟩ := id beyond
  dsimp only [Measure.total] at total sameShape sameStyle widths
  subst sameShape sameStyle
  simp only [add]
  split
  · exact follow_beyond beyond _
  · cases widths with
    | inl sameWidth =>
        subst sameWidth
        split
        · exact ⟨by dsimp only [Measure.total]; omega, rfl, rfl, .inl rfl⟩
        · exact follow_beyond beyond _
    | inr isPlain =>
        subst isPlain
        simp only [Cluster.grow_plain]
        by_cases emoji : code = emojiStyle
        · simp only [if_pos emoji]
          exact ⟨total, rfl, rfl, .inr rfl⟩
        · by_cases text : code = textStyle
          · simp only [if_neg emoji, if_pos text]
            exact ⟨total, rfl, rfl, .inr rfl⟩
          · simp only [if_neg emoji, if_neg text]
            exact follow_beyond beyond _

theorem foldr_beyond {columns : Nat} {less more : Measure} (beyond : Beyond columns less more)
    (text : List Char) :
    Beyond columns (text.foldr (fun char measure => measure.add char.toNat) less)
      (text.foldr (fun char measure => measure.add char.toNat) more) := by
  induction text with
  | nil => exact beyond
  | cons char rest ih => exact add_beyond ih char.toNat

theorem add_blank (measure : Measure) :
    measure.add ' '.toNat = measure.follow (.plain 1) := by
  simp only [add, Cluster.styled_blank, Cluster.grow_blank, Cluster.blank]

end Measure

def displayWidth (text : List Char) : Nat := (Measure.ofText text).total

theorem display_width_blank (left right : List Char) :
    displayWidth (left ++ ' ' :: right) = displayWidth left + 1 + displayWidth right := by
  have blank : Measure.ofText (' ' :: right) = (Measure.ofText right).follow (.plain 1) :=
    Measure.add_blank _
  have beyond : Measure.Beyond (displayWidth right + 1) .start (Measure.ofText (' ' :: right)) := by
    rw [blank]
    exact ⟨(Nat.zero_add _).symm, rfl, rfl, .inr rfl⟩
  have total := (Measure.foldr_beyond beyond left).total
  change _ = displayWidth left + (displayWidth right + 1) at total
  rw [displayWidth, Measure.ofText, List.foldr_append]
  refine total.trans ?_
  omega

end Opstream.Text
