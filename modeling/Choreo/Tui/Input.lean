import Choreo.Library.Utf8
import Choreo.Text

/-!
# The input buffer

The editing kernel that every text field of the terminal client shares
(`choreo-tui/src/state/input.rs`): a text and a cursor that counts the bytes before it. Every
operation that cuts the text at the cursor panics when the cursor is not between two characters.
-/

namespace Choreo

open List Option

/-! ### Cutting a text at a byte offset -/

/-- The text before and behind a byte offset, if the offset is between two characters. -/
def splitAt : List Char → ℕ → Option (List Char × List Char)
  | cs, 0 => some ([], cs)
  | [], _ + 1 => none
  | c :: cs, n + 1 =>
    if c.utf8Size ≤ n + 1 then (splitAt cs (n + 1 - c.utf8Size)).map fun p => (c :: p.1, p.2)
    else none

theorem splitAt_size (pre post : List Char) :
    splitAt (pre ++ post) (Utf8.size pre) = some (pre, post) := by
  induction pre with
  | nil => simp [splitAt]
  | cons c pre ih =>
    have hc := c.utf8Size_pos
    obtain ⟨n, hn⟩ : ∃ n, Utf8.size (c :: pre) = n + 1 :=
      ⟨c.utf8Size + Utf8.size pre - 1, by rw [Utf8.size_cons]; omega⟩
    have hle : c.utf8Size ≤ n + 1 := by rw [← hn, Utf8.size_cons]; omega
    have hrest : n + 1 - c.utf8Size = Utf8.size pre := by rw [← hn, Utf8.size_cons]; omega
    rw [hn, cons_append, splitAt, if_pos hle, hrest, ih]
    rfl

theorem eq_of_splitAt {cs : List Char} {n : ℕ} {pre post : List Char}
    (h : splitAt cs n = some (pre, post)) : cs = pre ++ post ∧ n = Utf8.size pre := by
  induction cs, n using splitAt.induct generalizing pre post with
  | case1 cs =>
    rw [splitAt] at h
    obtain ⟨rfl, rfl⟩ := Prod.mk.inj (some.inj h)
    exact ⟨rfl, rfl⟩
  | case2 n => rw [splitAt] at h; cases h
  | case3 c cs n hle ih =>
    rw [splitAt, if_pos hle] at h
    obtain ⟨⟨pre', post'⟩, hsplit, heq⟩ := map_eq_some_iff.1 h
    obtain ⟨rfl, rfl⟩ := Prod.mk.inj heq
    obtain ⟨rfl, hn⟩ := ih hsplit
    refine ⟨rfl, ?_⟩
    change n + 1 = c.utf8Size + Utf8.size pre'
    omega
  | case4 c cs n hle => rw [splitAt, if_neg hle] at h; cases h

theorem splitAt_eq_some {cs : List Char} {n : ℕ} {pre post : List Char} :
    splitAt cs n = some (pre, post) ↔ cs = pre ++ post ∧ n = Utf8.size pre :=
  ⟨eq_of_splitAt, fun h => by rw [h.1, h.2, splitAt_size]⟩

/-! ### The buffer -/

/-- A text with the cursor, as the number of bytes before it. -/
structure InputBuffer where
  text : List Char := []
  cursor : ℕ := 0
deriving DecidableEq

/-- What a key does to the buffer. A click, and a move by a line, put the cursor at the beginning of
some character or at the end: behind the given number of characters. -/
inductive Key
  | insert (text : List Char)
  | backspace
  | delete
  | left
  | right
  | home
  | endOfText
  | homeLine
  | endLine
  | wordLeft
  | wordRight
  | deleteWordBackward
  | deleteWordForward
  | deleteToStart
  | clear
  | place (chars : ℕ)
deriving DecidableEq

namespace InputBuffer

/-- The cursor is between two characters of the text, or at an end of it. -/
def OnBoundary (b : InputBuffer) : Prop :=
  ∃ pre post, b.text = pre ++ post ∧ b.cursor = Utf8.size pre

def between (p : List Char × List Char) : InputBuffer :=
  { text := p.1 ++ p.2, cursor := Utf8.size p.1 }

/-- Changes the texts before and behind the cursor. -/
def around (f : List Char → List Char → List Char × List Char) (b : InputBuffer) :
    Option InputBuffer :=
  (splitAt b.text b.cursor).map fun p => between (f p.1 p.2)

def atEnd (b : InputBuffer) : Bool := decide (Utf8.size b.text ≤ b.cursor)

/-- The white space that the last word before the cursor begins behind, and the text before that
white space. -/
def lastSpace (pre : List Char) : Option (List Char × Char) :=
  let trimmed := pre.reverse.dropWhile isWhitespace
  match trimmed.dropWhile fun c => !isWhitespace c with
  | [] => none
  | c :: rest => some (rest.reverse, c)

/-- The byte where the word before the cursor begins: one byte behind the last white space. -/
def wordLeftBoundary (pre : List Char) : ℕ :=
  match lastSpace pre with
  | none => 0
  | some (lead, _) => Utf8.size lead + 1

/-- What is behind the next word and the white space behind it: the characters passed over. -/
def wordRightPassed (post : List Char) : List Char :=
  let word := post.takeWhile fun c => !isWhitespace c
  word ++ (post.drop word.length).takeWhile isWhitespace

variable (graphemes : List Char → List (List Char))

/-- The length of the last character as the user sees it. -/
def lastGrapheme (pre : List Char) : ℕ := ((graphemes pre).getLast?.map List.length).getD 0

/-- The length of the first character as the user sees it. -/
def firstGrapheme (post : List Char) : ℕ := ((graphemes post).head?.map List.length).getD 0

/-- What a key does; `none` is a panic. -/
def handleKey : Key → InputBuffer → Option InputBuffer
  | .insert text, b => if text = [] then some b else b.around fun pre post => (pre ++ text, post)
  | .backspace, b =>
    if b.cursor = 0 then some b
    else b.around fun pre post => (pre.take (pre.length - lastGrapheme graphemes pre), post)
  | .delete, b =>
    if b.atEnd then some b
    else b.around fun pre post => (pre, post.drop (firstGrapheme graphemes post))
  | .left, b =>
    b.around fun pre post =>
      let n := pre.length - lastGrapheme graphemes pre
      (pre.take n, pre.drop n ++ post)
  | .right, b =>
    b.around fun pre post =>
      let n := firstGrapheme graphemes post
      (pre ++ post.take n, post.drop n)
  | .home, b => some { b with cursor := 0 }
  | .endOfText, b => some { b with cursor := Utf8.size b.text }
  | .homeLine, b =>
    b.around fun pre post =>
      let line := (pre.reverse.takeWhile (· != '\n')).reverse
      let n := pre.length - line.length
      (pre.take n, pre.drop n ++ post)
  | .endLine, b =>
    b.around fun pre post =>
      let n := (post.takeWhile (· != '\n')).length
      (pre ++ post.take n, post.drop n)
  | .wordLeft, b => (splitAt b.text b.cursor).map fun p =>
      { b with cursor := wordLeftBoundary p.1 }
  | .wordRight, b =>
    b.around fun pre post =>
      let n := (wordRightPassed post).length
      (pre ++ post.take n, post.drop n)
  | .deleteWordBackward, b =>
    if b.cursor = 0 then some b
    else (splitAt b.text b.cursor).bind fun p =>
      (splitAt p.1 (wordLeftBoundary p.1)).map fun q => between (q.1, p.2)
  | .deleteWordForward, b =>
    if b.atEnd then some b
    else b.around fun pre post => (pre, post.drop (wordRightPassed post).length)
  | .deleteToStart, b => b.around fun _ post => ([], post)
  | .clear, _ => some {}
  | .place chars, b => some (between (b.text.take chars, b.text.drop chars))

/-! ### Keeping the cursor between two characters -/

theorem onBoundary_between (p : List Char × List Char) : (between p).OnBoundary :=
  ⟨p.1, p.2, rfl, rfl⟩

theorem onBoundary_empty : ({} : InputBuffer).OnBoundary := ⟨[], [], rfl, rfl⟩

theorem onBoundary_of_around {f : List Char → List Char → List Char × List Char}
    {b b' : InputBuffer} (h : b.around f = some b') : b'.OnBoundary := by
  obtain ⟨p, -, rfl⟩ := map_eq_some_iff.1 h
  exact onBoundary_between _

theorem OnBoundary.exists_splitAt {b : InputBuffer} (hb : b.OnBoundary) :
    ∃ p, splitAt b.text b.cursor = some p := by
  obtain ⟨pre, post, htext, hcursor⟩ := hb
  exact ⟨(pre, post), splitAt_eq_some.2 ⟨htext, hcursor⟩⟩

theorem OnBoundary.eq_empty {b : InputBuffer} (hb : b.OnBoundary) (htext : b.text = []) :
    b = {} := by
  obtain ⟨pre, post, happ, hcursor⟩ := hb
  obtain ⟨rfl, rfl⟩ := append_eq_nil_iff.1 (happ.symm.trans htext)
  rcases b with ⟨text, cursor⟩
  subst htext hcursor
  rfl

theorem eq_append_of_lastSpace {pre lead : List Char} {c : Char}
    (h : lastSpace pre = some (lead, c)) : ∃ rest, pre = lead ++ c :: rest := by
  simp only [lastSpace] at h
  split at h
  · cases h
  · rename_i c' rest' hdrop
    obtain ⟨rfl, rfl⟩ := Prod.mk.inj (some.inj h)
    have hsuffix : c' :: rest' <:+ pre.reverse :=
      hdrop ▸ (dropWhile_suffix _).trans (dropWhile_suffix _)
    obtain ⟨front, hfront⟩ := hsuffix
    refine ⟨front.reverse, ?_⟩
    rw [← reverse_reverse pre, ← hfront]
    simp

theorem exists_wordLeftBoundary {pre : List Char}
    (hspace : ∀ p ∈ lastSpace pre, p.2.utf8Size = 1) :
    ∃ front rest, pre = front ++ rest ∧ wordLeftBoundary pre = Utf8.size front := by
  rw [wordLeftBoundary]
  rcases h : lastSpace pre with _ | ⟨lead, c⟩
  · exact ⟨[], pre, rfl, rfl⟩
  · obtain ⟨rest, hpre⟩ := eq_append_of_lastSpace h
    have hc : c.utf8Size = 1 := hspace (lead, c) h
    refine ⟨lead ++ [c], rest, by simp [hpre], ?_⟩
    simp only [Utf8.size_append, Utf8.size_cons, Utf8.size_nil]
    omega

/-- A key moves by a word to behind white space of several bytes. -/
def LandsInside (key : Key) (b : InputBuffer) : Prop :=
  (key = .wordLeft ∨ key = .deleteWordBackward) ∧
    ∃ p ∈ splitAt b.text b.cursor, ∃ q ∈ lastSpace p.1, q.2.utf8Size ≠ 1

/-- A key keeps the cursor between two characters. -/
theorem onBoundary_of_handleKey {key : Key} {b b' : InputBuffer} (hb : b.OnBoundary)
    (hkey : ¬ LandsInside key b) (h : handleKey graphemes key b = some b') : b'.OnBoundary := by
  have hspace : (key = .wordLeft ∨ key = .deleteWordBackward) →
      ∀ p ∈ splitAt b.text b.cursor, ∀ q ∈ lastSpace p.1, q.2.utf8Size = 1 := by
    intro hk p hp q hq
    by_contra hne
    exact hkey ⟨hk, p, hp, q, hq, hne⟩
  have hself (h : some b = some b') : b'.OnBoundary := some.inj h ▸ hb
  rcases key with text | _ | _ | _ | _ | _ | _ | _ | _ | _ | _ | _ | _ | _ | _ | chars <;>
    simp only [handleKey] at h
  case insert =>
    split at h
    · exact hself h
    · exact onBoundary_of_around h
  case backspace | delete | deleteWordForward =>
    split at h
    · exact hself h
    · exact onBoundary_of_around h
  case left | right | homeLine | endLine | wordRight | deleteToStart =>
    exact onBoundary_of_around h
  case home =>
    cases h
    exact ⟨[], b.text, rfl, rfl⟩
  case endOfText =>
    cases h
    exact ⟨b.text, [], by simp, rfl⟩
  case wordLeft =>
    obtain ⟨⟨pre, post⟩, hsplit, rfl⟩ := map_eq_some_iff.1 h
    obtain ⟨front, rest, hpre, hbound⟩ := exists_wordLeftBoundary (hspace (.inl rfl) _ hsplit)
    refine ⟨front, rest ++ post, ?_, hbound⟩
    rw [← append_assoc, ← hpre]
    exact (eq_of_splitAt hsplit).1
  case deleteWordBackward =>
    split at h
    · exact hself h
    · obtain ⟨p, -, hmap⟩ := bind_eq_some_iff.1 h
      obtain ⟨q, -, rfl⟩ := map_eq_some_iff.1 hmap
      exact onBoundary_between _
  case clear =>
    cases h
    exact onBoundary_empty
  case place =>
    cases h
    exact onBoundary_between _

end InputBuffer

end Choreo
