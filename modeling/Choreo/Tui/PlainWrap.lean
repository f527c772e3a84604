import Choreo.Tui.InputField
import Mathlib.Data.List.DropRight

/-!
# Wrapping plain text

Tool results are shown as they came, cut into rows at white space
(`choreo-tui/src/markdown_render.rs`). The wrapper takes a line grapheme by grapheme and remembers
the last white space of the open row. When a grapheme overflows the row, the row ends behind that
white space, and what is behind it is carried to the next row; without a white space that fits, the
row ends before the grapheme.
-/

namespace Choreo

open List

namespace PlainWrap

/-- A grapheme of white space. -/
def isBlank (g : List Char) : Bool := g.all isWhitespace

section Wrap

variable (width : List Char → ℕ) (maxWidth : ℕ)

/-- The columns of a row of graphemes. -/
def rowWidth (row : List (List Char)) : ℕ := (row.map width).sum

/-- The rows so far, and the open row with its width. The last white space of the open row is given
by the number of graphemes up to it, and by their width. -/
structure Wrapping where
  out : List (List (List Char)) := []
  buf : List (List Char) := []
  bufWidth : ℕ := 0
  lastSpace : Option (ℕ × ℕ) := none

/-- Where an overflowing row is cut, with the new grapheme or before it. -/
def cutOf (s : Wrapping) (lastSpace : Option (ℕ × ℕ)) : ℕ × ℕ :=
  match lastSpace with
  | some (b, w) => if w ≤ maxWidth then (b, w) else (s.buf.length, s.bufWidth)
  | none => (s.buf.length, s.bufWidth)

/-- One grapheme of the line. -/
def push (s : Wrapping) (g : List Char) : Wrapping :=
  let buf := s.buf ++ [g]
  let bufWidth := s.bufWidth + width g
  let lastSpace := if isBlank g then some (buf.length, bufWidth) else s.lastSpace
  if maxWidth < bufWidth then
    let cut := cutOf maxWidth s lastSpace
    if cut.1 = 0 then { out := s.out ++ [buf] }
    else
      { out := s.out ++ [buf.take cut.1], buf := buf.drop cut.1, bufWidth := bufWidth - cut.2 }
  else { s with buf := buf, bufWidth := bufWidth, lastSpace := lastSpace }

/-- The rows at the end of the line. -/
def Wrapping.rows (s : Wrapping) : List (List (List Char)) :=
  if s.buf ≠ [] ∨ s.out = [] then s.out ++ [s.buf] else s.out

/-- The chunks of a run without white space so far, and the open chunk with its width. -/
structure Chunking where
  chunks : List (List (List Char)) := []
  current : List (List Char) := []
  currentWidth : ℕ := 0

/-- Ends the open chunk. -/
def Chunking.flush (s : Chunking) : Chunking := { chunks := s.chunks ++ [s.current] }

/-- One grapheme of the run. -/
def pushChunk (floor : ℕ) (s : Chunking) (g : List Char) : Chunking :=
  let graphemeWidth := max (width g) floor
  let s := if s.current ≠ [] ∧ maxWidth < s.currentWidth + graphemeWidth then s.flush else s
  let s := { s with
    current := s.current ++ [g]
    currentWidth := s.currentWidth + graphemeWidth }
  if maxWidth ≤ s.currentWidth then s.flush else s

/-- Cuts a run without white space at graphemes. -/
def graphemeChunks (run : List (List Char)) (floor : ℕ) : List (List (List Char)) :=
  let s := run.foldl (pushChunk width (max maxWidth 1) floor) {}
  let chunks := if s.current ≠ [] then s.chunks ++ [s.current] else s.chunks
  if chunks = [] then [[]] else chunks

end Wrap

/-- How a row is joined to the row before it. -/
inductive LineJoin
  | lineBreak
  | space
  | join
deriving DecidableEq

section Lines

variable (seg : Segmentation) (width displayWidth : List Char → ℕ)

def wrapRows (line : List Char) (maxWidth : ℕ) : List (List (List Char)) :=
  let maxWidth := max maxWidth 1
  if displayWidth line ≤ maxWidth then [seg.graphemes line]
  else if line.any isWhitespace = false then graphemeChunks width maxWidth (seg.graphemes line) 0
  else ((seg.graphemes line).foldl (push width maxWidth) {}).rows

/-- The rows of a line as texts. -/
def wrapPlainLine (line : List Char) (maxWidth : ℕ) : List (List Char) :=
  (wrapRows seg width displayWidth line maxWidth).map List.flatten

/-- The first row begins a line of the text, the others continue it. -/
def joinedRows : List (List Char) → List (List Char × LineJoin)
  | [] => []
  | first :: rest => (first, .lineBreak) :: rest.map fun row => (row, .join)

def plainTextLinesJoined (text : List Char) (maxWidth : ℕ) : List (List Char × LineJoin) :=
  if text = [] then [([], .lineBreak)]
  else (text.splitOn '\n').flatMap fun raw =>
    joinedRows (wrapPlainLine seg width displayWidth raw maxWidth)

end Lines

/-- Joins a row to the text copied so far. -/
def joinRow (out : List Char) (row : List Char × LineJoin) : List Char :=
  match row.2 with
  | .lineBreak => out ++ '\n' :: row.1
  | .space => out.rdropWhile isWhitespace ++ ' ' :: row.1.dropWhile isWhitespace
  | .join => out ++ row.1

/-- The text that is copied from rows. -/
def joinRows : List (List Char × LineJoin) → List Char
  | [] => []
  | first :: rest => rest.foldl joinRow first.1

/-! ### Rows -/

section Rows

variable (width : List Char → ℕ) (maxWidth : ℕ)

/-- The graphemes up to the next white space. -/
def wordOf (graphemes : List (List Char)) : List (List Char) :=
  graphemes.takeWhile fun g => !isBlank g

/-- A break between two graphemes of a word that fits on a row. -/
def BreaksWord (before after : List (List Char)) : Prop :=
  wordOf before.reverse ≠ [] ∧ wordOf after ≠ [] ∧
    rowWidth width (wordOf before.reverse) + rowWidth width (wordOf after) ≤ maxWidth

/-- Rows of a line: they have its graphemes in order, no row is too wide, and no word that fits on a
row is broken. -/
structure Wraps (line : List (List Char)) (rows : List (List (List Char))) : Prop where
  flatten : rows.flatten = line
  width_le : ∀ row ∈ rows, rowWidth width row ≤ maxWidth
  words : ∀ before after, rows = before ++ after →
    ¬ BreaksWord width maxWidth before.flatten after.flatten

/-- What is behind the last white space of the row does not fit on the next row with the grapheme
that overflows. -/
def Overfills (s : Wrapping) (g : List Char) : Prop :=
  isBlank g = false ∧ ∃ p ∈ s.lastSpace, maxWidth + p.2 < s.bufWidth + width g

/-- A white space overflows the row, and the word behind it fits on a row, but not behind this white
space. -/
def Strands (s : Wrapping) (g : List Char) (rest : List (List Char)) : Prop :=
  isBlank g = true ∧ maxWidth < s.bufWidth + width g ∧
    (∃ first ∈ (wordOf rest).head?, width g + width first ≤ maxWidth) ∧
    rowWidth width (wordOf rest) ≤ maxWidth ∧ maxWidth < width g + rowWidth width (wordOf rest)

/-- No step overfills the next row or strands a white space. -/
def Intact : Wrapping → List (List Char) → Prop
  | _, [] => True
  | s, g :: rest => ¬ Overfills width maxWidth s g ∧ ¬ Strands width maxWidth s g rest ∧
    Intact (push width maxWidth s g) rest

instance (s : Wrapping) (g : List Char) : Decidable (Overfills width maxWidth s g) :=
  inferInstanceAs (Decidable
    (isBlank g = false ∧ ∃ p ∈ s.lastSpace, maxWidth + p.2 < s.bufWidth + width g))

instance (s : Wrapping) (g : List Char) (rest : List (List Char)) :
    Decidable (Strands width maxWidth s g rest) :=
  inferInstanceAs (Decidable (isBlank g = true ∧ maxWidth < s.bufWidth + width g ∧
    (∃ first ∈ (wordOf rest).head?, width g + width first ≤ maxWidth) ∧
    rowWidth width (wordOf rest) ≤ maxWidth ∧ maxWidth < width g + rowWidth width (wordOf rest)))

instance decidableIntact : ∀ (s : Wrapping) (rest : List (List Char)),
    Decidable (Intact width maxWidth s rest)
  | _, [] => isTrue trivial
  | s, g :: rest =>
    have := decidableIntact (push width maxWidth s g) rest
    inferInstanceAs (Decidable (¬ Overfills width maxWidth s g ∧
      ¬ Strands width maxWidth s g rest ∧ Intact width maxWidth (push width maxWidth s g) rest))

end Rows

section Steps

variable {width : List Char → ℕ} {maxWidth : ℕ}

@[simp] theorem rowWidth_nil : rowWidth width [] = 0 := rfl

@[simp]
theorem rowWidth_cons (g : List Char) (row : List (List Char)) :
    rowWidth width (g :: row) = width g + rowWidth width row := by
  rw [rowWidth, map_cons, sum_cons, rowWidth]

@[simp]
theorem rowWidth_append (row row' : List (List Char)) :
    rowWidth width (row ++ row') = rowWidth width row + rowWidth width row' := by
  rw [rowWidth, map_append, sum_append, rowWidth, rowWidth]

@[simp]
theorem rowWidth_reverse (row : List (List Char)) :
    rowWidth width row.reverse = rowWidth width row := by
  rw [rowWidth, map_reverse, sum_reverse, rowWidth]

variable {g : List Char}

theorem wordOf_cons_blank (hg : isBlank g = true) (rest : List (List Char)) :
    wordOf (g :: rest) = [] := by
  rw [wordOf, takeWhile_cons_of_neg (by simp [hg])]

theorem wordOf_cons (hg : isBlank g = false) (rest : List (List Char)) :
    wordOf (g :: rest) = g :: wordOf rest := by
  rw [wordOf, takeWhile_cons_of_pos (by simp [hg]), wordOf]

variable {word : List (List Char)}

theorem wordOf_append (hword : ∀ g ∈ word, isBlank g = false)
    (rest : List (List Char)) : wordOf (word ++ rest) = word ++ wordOf rest := by
  rw [wordOf, takeWhile_append_of_pos (by simpa using hword), wordOf]

theorem wordOf_of_forall (hword : ∀ g ∈ word, isBlank g = false) :
    wordOf word = word := by
  have h := wordOf_append hword []
  rw [append_nil] at h
  rw [h]
  exact append_nil word

theorem forall_concat
    (hword : ∀ g ∈ word, isBlank g = false) (hg : isBlank g = false) :
    ∀ g' ∈ word ++ [g], isBlank g' = false := by
  intro g' hg'
  rcases mem_append.1 hg' with hg' | hg'
  · exact hword g' hg'
  · rwa [mem_singleton.1 hg']

/-- What a grapheme does to the rows: it fits on the open row; or it overflows, and the row ends
before it; or the row ends behind its last white space. -/
inductive Pushed (width : List Char → ℕ) (maxWidth : ℕ) (s : Wrapping) (g : List Char) :
    Wrapping → Prop
  | fits (hfits : s.bufWidth + width g ≤ maxWidth) : Pushed width maxWidth s g
      { s with
        buf := s.buf ++ [g]
        bufWidth := s.bufWidth + width g
        lastSpace :=
          if isBlank g then some (s.buf.length + 1, s.bufWidth + width g) else s.lastSpace }
  | hard (hover : maxWidth < s.bufWidth + width g)
      (hcut : isBlank g = true ∨ s.lastSpace = none) (hbuf : s.buf ≠ []) : Pushed width maxWidth s g
      { out := s.out ++ [s.buf], buf := [g], bufWidth := width g }
  | space {front back : List (List Char)} {space : List Char}
      (hover : maxWidth < s.bufWidth + width g) (hg : isBlank g = false)
      (hbuf : s.buf = front ++ space :: back) (hspace : isBlank space = true)
      (hback : ∀ g ∈ back, isBlank g = false)
      (hlast : s.lastSpace = some (front.length + 1, rowWidth width (front ++ [space])))
      (hle : rowWidth width (front ++ [space]) ≤ maxWidth) : Pushed width maxWidth s g
      { out := s.out ++ [front ++ [space]], buf := back ++ [g],
        bufWidth := rowWidth width (back ++ [g]) }

/-- What the wrapper knows of the open row. -/
structure Tracked (width : List Char → ℕ) (maxWidth : ℕ) (s : Wrapping) : Prop where
  bufWidth_eq : s.bufWidth = rowWidth width s.buf
  lastSpace_eq : ∀ p, s.lastSpace = some p → ∃ front space back, s.buf = front ++ space :: back ∧
    isBlank space = true ∧ (∀ g ∈ back, isBlank g = false) ∧
      p = (front.length + 1, rowWidth width (front ++ [space])) ∧
        rowWidth width (front ++ [space]) ≤ maxWidth
  word_of_none : s.lastSpace = none → (∀ g ∈ s.buf, isBlank g = false) ∨
    ∃ space word, s.buf = space :: word ∧ isBlank space = true ∧ ∀ g ∈ word, isBlank g = false

theorem tracked_empty : Tracked width maxWidth {} :=
  ⟨rfl, fun p hp => (by cases hp), fun _ => .inl fun g hg => (by cases hg)⟩

variable {s : Wrapping}

theorem pushed_push (hwidth : ∀ g, width g ≤ maxWidth)
    (h : Tracked width maxWidth s) (g : List Char) :
    Pushed width maxWidth s g (push width maxWidth s g) := by
  rcases Nat.lt_or_ge maxWidth (s.bufWidth + width g) with hover | hfits
  · have hbuf : s.buf ≠ [] := by
      intro hnil
      have hzero : s.bufWidth = 0 := by rw [h.bufWidth_eq, hnil, rowWidth_nil]
      have := hwidth g
      omega
    have hlength : s.buf.length ≠ 0 := by
      rwa [ne_eq, length_eq_zero_iff]
    -- A cut before the grapheme, whatever the reason.
    have hhard : (cutOf maxWidth s
        (if isBlank g then some ((s.buf ++ [g]).length, s.bufWidth + width g) else s.lastSpace) =
          (s.buf.length, s.bufWidth)) →
        push width maxWidth s g =
          { out := s.out ++ [s.buf], buf := [g], bufWidth := width g } := by
      intro hcut
      simp only [push, if_pos hover, hcut, if_neg hlength, take_left, drop_left,
        Nat.add_sub_cancel_left]
    cases hg : isBlank g with
    | true =>
      rw [hhard ?_]
      · exact .hard hover (.inl hg) hbuf
      · rw [if_pos hg, cutOf, if_neg (by omega)]
    | false =>
      cases hlast : s.lastSpace with
      | none =>
        rw [hhard ?_]
        · exact .hard hover (.inr hlast) hbuf
        · rw [if_neg (by simp [hg]), hlast, cutOf]
      | some p =>
        obtain ⟨front, space, back, hsplit, hspace, hback, rfl, hle⟩ := h.lastSpace_eq p hlast
        have hpush : push width maxWidth s g =
            { out := s.out ++ [front ++ [space]], buf := back ++ [g],
              bufWidth := rowWidth width (back ++ [g]) } := by
          have hassoc : s.buf ++ [g] = (front ++ [space]) ++ (back ++ [g]) := by
            rw [hsplit]
            simp
          have hcount : front.length + 1 = (front ++ [space]).length := by simp
          have hcut : cutOf maxWidth s
              (if isBlank g then some ((s.buf ++ [g]).length, s.bufWidth + width g)
                else s.lastSpace) = (front.length + 1, rowWidth width (front ++ [space])) := by
            rw [if_neg (by simp [hg]), hlast, cutOf, if_pos hle]
          have hsum : s.bufWidth + width g - rowWidth width (front ++ [space]) =
              rowWidth width (back ++ [g]) := by
            rw [h.bufWidth_eq, hsplit]
            simp only [rowWidth_append, rowWidth_cons, rowWidth_nil]
            omega
          simp only [push, if_pos hover, hcut, if_neg (Nat.succ_ne_zero front.length), hsum]
          rw [hcount, hassoc, take_left, drop_left]
        rw [hpush]
        exact .space hover hg hsplit hspace hback hlast hle
  · have hpush : push width maxWidth s g =
        { s with
          buf := s.buf ++ [g]
          bufWidth := s.bufWidth + width g
          lastSpace :=
            if isBlank g then some (s.buf.length + 1, s.bufWidth + width g) else s.lastSpace } := by
      simp only [push, if_neg (Nat.not_lt.2 hfits), length_append, length_singleton]
    rw [hpush]
    exact .fits hfits

theorem Tracked.of_pushed {s s' : Wrapping} (h : Tracked width maxWidth s)
    (hpushed : Pushed width maxWidth s g s') : Tracked width maxWidth s' := by
  cases hpushed with
  | fits hfits =>
    have hsum : s.bufWidth + width g = rowWidth width (s.buf ++ [g]) := by
      rw [h.bufWidth_eq, rowWidth_append, rowWidth_cons, rowWidth_nil, Nat.add_zero]
    refine ⟨hsum, ?_, ?_⟩
    · intro p hp
      cases hg : isBlank g with
      | true =>
        rw [if_pos hg] at hp
        cases hp
        exact ⟨s.buf, g, [], rfl, hg, by simp, by rw [hsum], by rwa [← hsum]⟩
      | false =>
        rw [if_neg (by simp [hg])] at hp
        obtain ⟨front, space, back, hsplit, hspace, hback, hpair, hle⟩ := h.lastSpace_eq p hp
        exact ⟨front, space, back ++ [g], by simp [hsplit], hspace, forall_concat hback hg, hpair,
          hle⟩
    · intro hnone
      cases hg : isBlank g with
      | true =>
        rw [if_pos hg] at hnone
        cases hnone
      | false =>
        rw [if_neg (by simp [hg])] at hnone
        rcases h.word_of_none hnone with hall | ⟨space, word, hsplit, hspace, hword⟩
        · exact .inl (forall_concat hall hg)
        · exact .inr ⟨space, word ++ [g], by simp [hsplit], hspace, forall_concat hword hg⟩
  | hard hover hcut hbuf =>
    refine ⟨by simp, fun p hp => (by cases hp), fun _ => ?_⟩
    cases hg : isBlank g with
    | true => exact .inr ⟨g, [], rfl, hg, by simp⟩
    | false => exact .inl (by simpa using hg)
  | space hover hg hbuf hspace hback hlast hle =>
    exact ⟨rfl, fun p hp => (by cases hp), fun _ => .inl (forall_concat hback hg)⟩

/-- A grapheme adds rows and keeps the text. -/
theorem Pushed.exists_rows {s s' : Wrapping}
    (hpushed : Pushed width maxWidth s g s') :
    ∃ rows, s'.out = s.out ++ rows ∧ rows.flatten ++ s'.buf = s.buf ++ [g] := by
  cases hpushed with
  | fits hfits => exact ⟨[], by simp, by simp⟩
  | hard hover hcut hbuf => exact ⟨[s.buf], rfl, by simp⟩
  | @space front back space hover hg hbuf hspace hback hlast hle =>
    exact ⟨[front ++ [space]], rfl, by simp [hbuf]⟩

theorem exists_rows (hwidth : ∀ g, width g ≤ maxWidth) (rest : List (List Char))
    (h : Tracked width maxWidth s) :
    ∃ rows, (rest.foldl (push width maxWidth) s).rows = s.out ++ rows ∧
      rows.flatten = s.buf ++ rest := by
  induction rest generalizing s with
  | nil =>
    rw [foldl_nil, Wrapping.rows]
    split_ifs with hopen
    · exact ⟨[s.buf], rfl, by simp⟩
    · have hbuf : s.buf = [] := by
        by_contra hbuf
        exact hopen (.inl hbuf)
      exact ⟨[], by simp, by simp [hbuf]⟩
  | cons g rest ih =>
    have hpushed := pushed_push hwidth h g
    obtain ⟨rows, hrows, hflatten⟩ := ih (h.of_pushed hpushed)
    obtain ⟨ended, hended, hkeep⟩ := hpushed.exists_rows
    refine ⟨ended ++ rows, ?_, ?_⟩
    · rw [foldl_cons, hrows, hended, append_assoc]
    · rw [flatten_append, hflatten, ← append_assoc, hkeep, append_assoc,
        singleton_append]

/-! ### Intact lines -/

/-- A white space that begins the open row has the word behind it on its row as far as it goes: the
word fits behind it, or it fits on no row, or it begins on the next row. -/
def Placed (width : List Char → ℕ) (maxWidth : ℕ) (s : Wrapping) (rest : List (List Char)) : Prop :=
  ∀ space word, s.lastSpace = none → s.buf = space :: word → isBlank space = true →
    rowWidth width s.buf + rowWidth width (wordOf rest) ≤ maxWidth ∨
      maxWidth < rowWidth width word + rowWidth width (wordOf rest) ∨
        word = [] ∧ ∀ first ∈ (wordOf rest).head?, maxWidth < width space + width first

/-- What holds of the rows while the line is intact. -/
structure Settled (width : List Char → ℕ) (maxWidth : ℕ) (s : Wrapping) (rest : List (List Char)) :
    Prop where
  width_le : ∀ row ∈ s.out, rowWidth width row ≤ maxWidth
  bufWidth_le : s.bufWidth ≤ maxWidth
  words : ∀ before after, s.out = before ++ after →
    ¬ BreaksWord width maxWidth before.flatten (after.flatten ++ (s.buf ++ rest))
  placed : Placed width maxWidth s rest

/-- One more row breaks no word if its end does not. -/
theorem words_concat {out : List (List (List Char))} {row later : List (List Char)}
    (hout : ∀ before after, out = before ++ after →
      ¬ BreaksWord width maxWidth before.flatten (after.flatten ++ (row ++ later)))
    (hrow : ¬ BreaksWord width maxWidth (out.flatten ++ row) later) :
    ∀ before after, out ++ [row] = before ++ after →
      ¬ BreaksWord width maxWidth before.flatten (after.flatten ++ later) := by
  intro before after hsplit
  rcases eq_nil_or_concat after with rfl | ⟨front, last, rfl⟩
  · rw [append_nil] at hsplit
    rw [← hsplit]
    simpa using hrow
  · rw [concat_eq_append, ← append_assoc] at hsplit
    obtain ⟨hfront, hlast⟩ := append_inj' hsplit rfl
    obtain rfl := singleton_injective hlast
    have h := hout before front hfront
    simpa using h

theorem rowWidth_wordOf_le (hword : ∀ g ∈ word, isBlank g = false)
    (rest : List (List Char)) :
    rowWidth width word ≤ rowWidth width (wordOf (word ++ rest)) := by
  rw [wordOf_append hword, rowWidth_append]
  omega

variable {rest : List (List Char)}

/-- A row that ends before a grapheme of the word it is in ends in a word that is too wide. -/
theorem not_breaksWord_hard (h : Tracked width maxWidth s)
    (hplaced : Placed width maxWidth s (g :: rest))
    (hover : maxWidth < s.bufWidth + width g) (hcut : isBlank g = true ∨ s.lastSpace = none) :
    ¬ BreaksWord width maxWidth (s.out.flatten ++ s.buf) (g :: rest) := by
  rintro ⟨hbefore, hafter, hle⟩
  rcases hcut with hg | hnone
  · exact hafter (wordOf_cons_blank hg rest)
  cases hg : isBlank g with
  | true => exact hafter (wordOf_cons_blank hg rest)
  | false =>
    rw [reverse_append] at hbefore hle
    rcases h.word_of_none hnone with hall | ⟨space, word, hsplit, hspace, hword⟩
    · have hreverse : ∀ g ∈ s.buf.reverse, isBlank g = false := by simpa using hall
      have hwide : rowWidth width s.buf ≤
          rowWidth width (wordOf (s.buf.reverse ++ s.out.flatten.reverse)) := by
        have hle : rowWidth width s.buf.reverse ≤
            rowWidth width (wordOf (s.buf.reverse ++ s.out.flatten.reverse)) :=
          rowWidth_wordOf_le hreverse _
        rwa [rowWidth_reverse] at hle
      rw [wordOf_cons hg, rowWidth_cons] at hle
      rw [h.bufWidth_eq] at hover
      omega
    · have hreverse : ∀ g ∈ word.reverse, isBlank g = false := by simpa using hword
      have hword' : wordOf (s.buf.reverse ++ s.out.flatten.reverse) = word.reverse := by
        rw [hsplit, reverse_cons, append_assoc, wordOf_append hreverse,
          singleton_append, wordOf_cons_blank hspace, append_nil]
      rw [hword'] at hbefore hle
      rw [rowWidth_reverse] at hle
      rcases hplaced space word hnone hsplit hspace with hfits | hwide | ⟨rfl, -⟩
      · rw [wordOf_cons hg, rowWidth_cons] at hfits
        rw [h.bufWidth_eq] at hover
        omega
      · omega
      · exact hbefore rfl

theorem Placed.of_fits (h : Tracked width maxWidth s)
    (hplaced : Placed width maxWidth s (g :: rest))
    (hfits : s.bufWidth + width g ≤ maxWidth) :
    Placed width maxWidth
      { s with
        buf := s.buf ++ [g]
        bufWidth := s.bufWidth + width g
        lastSpace :=
          if isBlank g then some (s.buf.length + 1, s.bufWidth + width g) else s.lastSpace }
      rest := by
  intro space word hnone hsplit hspace
  cases hg : isBlank g with
  | true =>
    rw [if_pos hg] at hnone
    cases hnone
  | false =>
    rw [if_neg (by simp [hg])] at hnone
    cases hbuf : s.buf with
    | nil =>
      rw [hbuf, nil_append] at hsplit
      obtain ⟨rfl, -⟩ := cons.inj hsplit
      rw [hg] at hspace
      cases hspace
    | cons space' word' =>
      rw [hbuf, cons_append] at hsplit
      obtain ⟨rfl, rfl⟩ := cons.inj hsplit
      rw [h.bufWidth_eq, hbuf] at hfits
      have hcases := hplaced space' word' hnone hbuf hspace
      rw [wordOf_cons hg, hbuf] at hcases
      rcases hcases with hle | hlt | ⟨rfl, hfirst⟩
      · refine .inl ?_
        simp only [rowWidth_append, rowWidth_cons, rowWidth_nil] at hle ⊢
        omega
      · refine .inr (.inl ?_)
        simp only [rowWidth_append, rowWidth_cons, rowWidth_nil] at hlt ⊢
        omega
      · have hwide := hfirst g rfl
        simp only [rowWidth_cons, rowWidth_nil] at hfits
        omega

theorem Placed.of_hard
    (hover : maxWidth < s.bufWidth + width g) (hstrands : ¬ Strands width maxWidth s g rest)
    (out : List (List (List Char))) :
    Placed width maxWidth { out := out, buf := [g], bufWidth := width g } rest := by
  intro space word _ hsplit hspace
  obtain ⟨rfl, rfl⟩ := cons.inj hsplit
  simp only [rowWidth_cons, rowWidth_nil]
  by_contra hnot
  have hfirst : ∃ first ∈ (wordOf rest).head?, width g + width first ≤ maxWidth := by
    by_contra hwide
    exact hnot (.inr (.inr ⟨trivial, fun first hmem =>
      Nat.lt_of_not_le fun hle => hwide ⟨first, hmem, hle⟩⟩))
  refine hstrands ⟨hspace, hover, hfirst, ?_, ?_⟩
  · by_contra hlt
    exact hnot (.inr (.inl (by omega)))
  · by_contra hle
    exact hnot (.inl (by omega))

theorem Settled.of_pushed (hwidth : ∀ g, width g ≤ maxWidth) {s s' : Wrapping}
    (h : Tracked width maxWidth s)
    (hs : Settled width maxWidth s (g :: rest)) (hpushed : Pushed width maxWidth s g s')
    (hoverfills : ¬ Overfills width maxWidth s g) (hstrands : ¬ Strands width maxWidth s g rest) :
    Settled width maxWidth s' rest := by
  have hout : ∀ {row}, rowWidth width row ≤ maxWidth →
      ∀ row' ∈ s.out ++ [row], rowWidth width row' ≤ maxWidth := by
    intro row hrow row' hrow'
    rcases mem_append.1 hrow' with hrow' | hrow'
    · exact hs.width_le row' hrow'
    · rwa [mem_singleton.1 hrow']
  cases hpushed with
  | fits hfits =>
    refine ⟨hs.width_le, hfits, fun before after hsplit => ?_, hs.placed.of_fits h hfits⟩
    have hwords := hs.words before after hsplit
    rwa [append_cons] at hwords
  | hard hover hcut hbuf =>
    refine ⟨hout (h.bufWidth_eq ▸ hs.bufWidth_le), hwidth g, ?_, .of_hard hover hstrands _⟩
    exact words_concat hs.words (not_breaksWord_hard h hs.placed hover hcut)
  | @space front back space hover hg hbuf hspace hback hlast hle =>
    refine ⟨hout hle, ?_, ?_, ?_⟩
    · by_contra hwide
      refine hoverfills ⟨hg, _, hlast, ?_⟩
      rw [h.bufWidth_eq, hbuf]
      simp only [rowWidth_append, rowWidth_cons, rowWidth_nil] at hwide ⊢
      omega
    · refine words_concat ?_ ?_
      · intro before after hsplit
        have hwords := hs.words before after hsplit
        rw [hbuf] at hwords
        simpa using hwords
      · rintro ⟨hbefore, -⟩
        refine hbefore ?_
        rw [reverse_append, reverse_append, reverse_singleton,
          singleton_append, cons_append, wordOf_cons_blank hspace]
    · intro space' word _ hsplit hspace'
      have hmem : space' ∈ back ++ [g] := by
        change back ++ [g] = space' :: word at hsplit
        rw [hsplit]
        exact mem_cons_self
      rw [forall_concat hback hg space' hmem] at hspace'
      cases hspace'

theorem settled_rows (hwidth : ∀ g, width g ≤ maxWidth) (rest : List (List Char))
    (h : Tracked width maxWidth s) (hs : Settled width maxWidth s rest)
    (hintact : Intact width maxWidth s rest) :
    (∀ row ∈ (rest.foldl (push width maxWidth) s).rows, rowWidth width row ≤ maxWidth) ∧
      ∀ before after, (rest.foldl (push width maxWidth) s).rows = before ++ after →
        ¬ BreaksWord width maxWidth before.flatten after.flatten := by
  induction rest generalizing s with
  | nil =>
    rw [foldl_nil, Wrapping.rows]
    split_ifs with hopen
    · refine ⟨?_, ?_⟩
      · intro row hrow
        rcases mem_append.1 hrow with hrow | hrow
        · exact hs.width_le row hrow
        · rw [mem_singleton.1 hrow, ← h.bufWidth_eq]
          exact hs.bufWidth_le
      · have hwords : ∀ before after, s.out ++ [s.buf] = before ++ after →
            ¬ BreaksWord width maxWidth before.flatten (after.flatten ++ []) :=
          words_concat hs.words fun hbreaks => hbreaks.2.1 rfl
        simpa using hwords
    · have hbuf : s.buf = [] := by
        by_contra hbuf
        exact hopen (.inl hbuf)
      have hwords := hs.words
      rw [hbuf] at hwords
      exact ⟨hs.width_le, by simpa using hwords⟩
  | cons g rest ih =>
    obtain ⟨hoverfills, hstrands, hrest⟩ := hintact
    have hpushed := pushed_push hwidth h g
    exact ih (h.of_pushed hpushed) (hs.of_pushed hwidth h hpushed hoverfills hstrands) hrest

/-! ### Lines that are not intact -/

/-- An open row that is too wide stays so: the next grapheme ends it. -/
theorem exists_wide_row (hwidth : ∀ g, width g ≤ maxWidth) (rest : List (List Char))
    (h : Tracked width maxWidth s) (hnone : s.lastSpace = none)
    (hwide : maxWidth < rowWidth width s.buf) :
    ∃ row ∈ (rest.foldl (push width maxWidth) s).rows, maxWidth < rowWidth width row := by
  cases rest with
  | nil =>
    have hopen : s.buf ≠ [] := by
      intro hnil
      rw [hnil, rowWidth_nil] at hwide
      omega
    rw [foldl_nil, Wrapping.rows, if_pos (.inl hopen)]
    exact ⟨s.buf, by simp, hwide⟩
  | cons g rest =>
    have hpushed := pushed_push hwidth h g
    obtain ⟨rows, hrows, -⟩ := exists_rows hwidth rest (h.of_pushed hpushed)
    rw [foldl_cons, hrows]
    generalize push width maxWidth s g = s' at hpushed ⊢
    cases hpushed with
    | fits hfits =>
      rw [h.bufWidth_eq] at hfits
      omega
    | hard hover hcut hbuf => exact ⟨s.buf, by simp, hwide⟩
    | space hover hg hbuf hspace hback hlast hle =>
      rw [hnone] at hlast
      cases hlast

theorem exists_wide_row_of_overfills (hwidth : ∀ g, width g ≤ maxWidth) (rest : List (List Char))
    (h : Tracked width maxWidth s)
    (hoverfills : Overfills width maxWidth s g) :
    ∃ row ∈ (rest.foldl (push width maxWidth) (push width maxWidth s g)).rows,
      maxWidth < rowWidth width row := by
  obtain ⟨hg, p, hp, hlt⟩ := hoverfills
  have hpushed := pushed_push hwidth h g
  have htracked := h.of_pushed hpushed
  generalize push width maxWidth s g = s' at hpushed htracked ⊢
  cases hpushed with
  | fits hfits => omega
  | hard hover hcut hbuf =>
    rcases hcut with hblank | hnone
    · rw [hg] at hblank
      cases hblank
    · rw [hnone] at hp
      cases hp
  | @space front back space hover _ hbuf hspace hback hlast hle =>
    refine exists_wide_row hwidth rest htracked rfl ?_
    rw [hlast] at hp
    cases hp
    rw [h.bufWidth_eq, hbuf] at hlt
    simp only [rowWidth_append, rowWidth_cons, rowWidth_nil] at hlt ⊢
    omega

/-- Behind a white space that begins the open row, a word that does not fit there is broken. -/
theorem exists_break (hwidth : ∀ g, width g ≤ maxWidth) (rest : List (List Char))
    (h : Tracked width maxWidth s) (hnone : s.lastSpace = none) (hle : s.bufWidth ≤ maxWidth)
    {space : List Char} (hsplit : s.buf = space :: word)
    (hspace : isBlank space = true) (hword : ∀ g ∈ word, isBlank g = false)
    (hfits : rowWidth width word + rowWidth width (wordOf rest) ≤ maxWidth)
    (hover : maxWidth < rowWidth width s.buf + rowWidth width (wordOf rest))
    (hfirst : word = [] → ∀ first ∈ (wordOf rest).head?, width space + width first ≤ maxWidth) :
    ∃ before after, (rest.foldl (push width maxWidth) s).rows = before ++ after ∧
      BreaksWord width maxWidth before.flatten after.flatten := by
  induction rest generalizing s word with
  | nil =>
    rw [← h.bufWidth_eq, wordOf, takeWhile_nil, rowWidth_nil] at hover
    omega
  | cons g rest ih =>
    cases hg : isBlank g with
    | true =>
      rw [wordOf_cons_blank hg, rowWidth_nil, ← h.bufWidth_eq] at hover
      omega
    | false =>
      rw [wordOf_cons hg] at hfits hover hfirst
      have hpushed := pushed_push hwidth h g
      have htracked := h.of_pushed hpushed
      rw [foldl_cons]
      generalize push width maxWidth s g = s' at hpushed htracked ⊢
      cases hpushed with
      | fits hrow =>
        refine ih htracked ?_ hrow ?_ (forall_concat hword hg) ?_ ?_ ?_
        · rwa [if_neg (by simp [hg])]
        · simp [hsplit]
        · simp only [rowWidth_append, rowWidth_cons, rowWidth_nil] at hfits ⊢
          omega
        · simp only [rowWidth_append, rowWidth_cons, rowWidth_nil] at hover ⊢
          omega
        · intro hnil
          cases word <;> cases hnil
      | hard hrow hcut hbuf =>
        have hnonempty : word ≠ [] := by
          rintro rfl
          have := hfirst rfl g rfl
          rw [h.bufWidth_eq, hsplit, rowWidth_cons, rowWidth_nil] at hrow
          omega
        obtain ⟨rows, hrows, hflatten⟩ := exists_rows hwidth rest htracked
        have hreverse : ∀ g ∈ word.reverse, isBlank g = false := by simpa using hword
        have hbefore : wordOf (s.out ++ [s.buf]).flatten.reverse = word.reverse := by
          rw [flatten_append, flatten_singleton, reverse_append, hsplit,
            reverse_cons, append_assoc, wordOf_append hreverse, singleton_append,
            wordOf_cons_blank hspace, append_nil]
        refine ⟨s.out ++ [s.buf], rows, hrows, ?_, ?_, ?_⟩
        · rw [hbefore]
          exact fun hnil => hnonempty (reverse_eq_nil_iff.1 hnil)
        · rw [hflatten, singleton_append, wordOf_cons hg]
          exact cons_ne_nil _ _
        · rwa [hbefore, hflatten, singleton_append, wordOf_cons hg, rowWidth_reverse]
      | space hrow hg' hbuf hspace' hback hlast hle' =>
        rw [hnone] at hlast
        cases hlast

theorem exists_break_of_strands (hwidth : ∀ g, width g ≤ maxWidth) (rest : List (List Char))
    (h : Tracked width maxWidth s)
    (hstrands : Strands width maxWidth s g rest) :
    ∃ before after, (rest.foldl (push width maxWidth) (push width maxWidth s g)).rows =
      before ++ after ∧ BreaksWord width maxWidth before.flatten after.flatten := by
  obtain ⟨hg, hover, ⟨first, hmem, hfirst⟩, hle, hlt⟩ := hstrands
  have hpushed := pushed_push hwidth h g
  have htracked := h.of_pushed hpushed
  generalize push width maxWidth s g = s' at hpushed htracked ⊢
  cases hpushed with
  | fits hfits => omega
  | hard _ hcut hbuf =>
    refine exists_break hwidth rest htracked rfl (hwidth g) rfl hg (by simp) ?_ ?_ ?_
    · simpa using hle
    · simpa using hlt
    · intro _ first' hmem'
      obtain rfl : first = first' := Option.some.inj (hmem.symm.trans hmem')
      exact hfirst
  | space _ hg' hbuf hspace hback hlast hle' =>
    rw [hg] at hg'
    cases hg'

theorem intact_of_rows (hwidth : ∀ g, width g ≤ maxWidth) (rest : List (List Char))
    (h : Tracked width maxWidth s)
    (hrows : ∀ row ∈ (rest.foldl (push width maxWidth) s).rows, rowWidth width row ≤ maxWidth)
    (hwords : ∀ before after, (rest.foldl (push width maxWidth) s).rows = before ++ after →
      ¬ BreaksWord width maxWidth before.flatten after.flatten) : Intact width maxWidth s rest := by
  induction rest generalizing s with
  | nil => trivial
  | cons g rest ih =>
    refine ⟨fun hoverfills => ?_, fun hstrands => ?_,
      ih (h.of_pushed (pushed_push hwidth h g)) hrows hwords⟩
    · obtain ⟨row, hrow, hwide⟩ := exists_wide_row_of_overfills hwidth rest h hoverfills
      have := hrows row hrow
      omega
    · obtain ⟨before, after, hsplit, hbreaks⟩ := exists_break_of_strands hwidth rest h hstrands
      exact hwords before after hsplit hbreaks

/-- A line that is cut at white space is wrapped as it should be if and only if it is intact. -/
theorem wraps_rows_iff (hwidth : ∀ g, width g ≤ maxWidth) (line : List (List Char)) :
    Wraps width maxWidth line (line.foldl (push width maxWidth) {}).rows ↔
      Intact width maxWidth {} line := by
  constructor
  · exact fun h => intact_of_rows hwidth line tracked_empty h.width_le h.words
  · intro hintact
    obtain ⟨rows, hrows, hflatten⟩ := exists_rows hwidth line
      (tracked_empty : Tracked width maxWidth {})
    have hsettled : Settled width maxWidth {} line := by
      refine ⟨fun row hrow => (by cases hrow), Nat.zero_le _, ?_, ?_⟩
      · rintro before after hsplit ⟨hbefore, -⟩
        obtain ⟨rfl, -⟩ := append_eq_nil_iff.1 hsplit.symm
        exact hbefore rfl
      · intro space word _ hsplit
        cases hsplit
    obtain ⟨hwide, hwords⟩ := settled_rows hwidth line tracked_empty hsettled hintact
    refine ⟨?_, hwide, hwords⟩
    rw [hrows]
    exact hflatten

/-! ### Runs without white space -/

/-- Chunks of a run: in order, and none too wide. -/
structure Chunked (width : List Char → ℕ) (maxWidth : ℕ) (run : List (List Char)) (s : Chunking) :
    Prop where
  flatten : s.chunks.flatten ++ s.current = run
  width_le : ∀ chunk ∈ s.chunks, rowWidth width chunk ≤ maxWidth
  currentWidth_eq : s.currentWidth = rowWidth width s.current
  currentWidth_le : s.currentWidth ≤ maxWidth

variable {run : List (List Char)} {s : Chunking}

theorem Chunked.flush (h : Chunked width maxWidth run s) :
    Chunked width maxWidth run s.flush := by
  refine ⟨?_, ?_, rfl, Nat.zero_le _⟩
  · rw [← h.flatten]
    simp [Chunking.flush]
  · intro chunk hchunk
    rcases mem_append.1 hchunk with hchunk | hchunk
    · exact h.width_le chunk hchunk
    · rw [mem_singleton.1 hchunk, ← h.currentWidth_eq]
      exact h.currentWidth_le

theorem Chunked.add (h : Chunked width maxWidth run s)
    (hfits : s.currentWidth + width g ≤ maxWidth) :
    Chunked width maxWidth (run ++ [g])
      { s with current := s.current ++ [g], currentWidth := s.currentWidth + width g } := by
  refine ⟨?_, h.width_le, ?_, hfits⟩
  · rw [← h.flatten, append_assoc]
  · rw [h.currentWidth_eq, rowWidth_append, rowWidth_cons, rowWidth_nil, Nat.add_zero]

theorem Chunked.pushChunk
    (h : Chunked width maxWidth run s) (hg : width g ≤ maxWidth) :
    Chunked width maxWidth (run ++ [g]) (pushChunk width maxWidth 0 s g) := by
  have hbefore : ∃ s', Chunked width maxWidth run s' ∧ s'.currentWidth + width g ≤ maxWidth ∧
      (if s.current ≠ [] ∧ maxWidth < s.currentWidth + width g then s.flush else s) = s' := by
    split_ifs with hover
    · refine ⟨_, h.flush, ?_, rfl⟩
      rw [Chunking.flush, Nat.zero_add]
      exact hg
    · refine ⟨s, h, ?_, rfl⟩
      by_contra hwide
      have hnil : s.current = [] := by
        by_contra hnonempty
        exact hover ⟨hnonempty, by omega⟩
      rw [h.currentWidth_eq, hnil, rowWidth_nil] at hwide
      omega
  obtain ⟨s', hs', hfits, heq⟩ := hbefore
  simp only [PlainWrap.pushChunk, Nat.max_zero, heq]
  split_ifs
  · exact (hs'.add hfits).flush
  · exact hs'.add hfits

theorem chunked_foldl (hwidth : ∀ g, width g ≤ maxWidth) (rest run : List (List Char))
    (h : Chunked width maxWidth run s) :
    Chunked width maxWidth (run ++ rest) (rest.foldl (PlainWrap.pushChunk width maxWidth 0) s) := by
  induction rest generalizing run s with
  | nil => rwa [append_nil]
  | cons g rest ih =>
    rw [append_cons]
    exact ih _ (h.pushChunk (hwidth g))

theorem graphemeChunks_spec (hwidth : ∀ g, width g ≤ maxWidth) (hpos : 1 ≤ maxWidth)
    (run : List (List Char)) :
    (graphemeChunks width maxWidth run 0).flatten = run ∧
      ∀ chunk ∈ graphemeChunks width maxWidth run 0, rowWidth width chunk ≤ maxWidth := by
  have h : Chunked width maxWidth run (run.foldl (PlainWrap.pushChunk width maxWidth 0) {}) :=
    chunked_foldl hwidth run [] ⟨rfl, fun chunk hchunk => (by cases hchunk), rfl, Nat.zero_le _⟩
  have hall := h.flush
  rw [graphemeChunks, Nat.max_eq_left hpos]
  generalize run.foldl (PlainWrap.pushChunk width maxWidth 0) {} = s at h hall
  have hchunks : ∀ chunks : List (List (List Char)), chunks.flatten = run →
      (∀ chunk ∈ chunks, rowWidth width chunk ≤ maxWidth) →
        (if chunks = [] then [[]] else chunks).flatten = run ∧
          ∀ chunk ∈ (if chunks = [] then [[]] else chunks), rowWidth width chunk ≤ maxWidth := by
    intro chunks hflatten hwide
    split_ifs with hnil
    · subst hnil
      exact ⟨hflatten, by simp⟩
    · exact ⟨hflatten, hwide⟩
  refine hchunks _ ?_ ?_
  · rw [← h.flatten]
    split_ifs with hopen
    · simp
    · simp [not_not.1 hopen]
  · split_ifs with hopen
    · exact hall.width_le
    · exact h.width_le

theorem wraps_graphemeChunks (hwidth : ∀ g, width g ≤ maxWidth) (hpos : 1 ≤ maxWidth)
    (hrun : ∀ g ∈ run, isBlank g = false)
    (hwide : maxWidth < rowWidth width run) :
    Wraps width maxWidth run (graphemeChunks width maxWidth run 0) := by
  obtain ⟨hflatten, hle⟩ := graphemeChunks_spec hwidth hpos run
  refine ⟨hflatten, hle, ?_⟩
  rintro before after hsplit ⟨-, -, hfits⟩
  rw [hsplit, flatten_append] at hflatten
  have hbefore : ∀ g ∈ before.flatten.reverse, isBlank g = false := fun g hg =>
    hrun g (hflatten ▸ mem_append_left _ (mem_reverse.1 hg))
  have hafter : ∀ g ∈ after.flatten, isBlank g = false := fun g hg =>
    hrun g (hflatten ▸ mem_append_right _ hg)
  rw [wordOf_of_forall hbefore, wordOf_of_forall hafter, rowWidth_reverse] at hfits
  rw [← hflatten, rowWidth_append] at hwide
  omega

end Steps

/-! ### Texts -/

section Lines

variable {seg : Segmentation} {width displayWidth : List Char → ℕ}

theorem joinedRows_append_join (rows : List (List Char)) (out : List Char) :
    (rows.map fun row => (row, LineJoin.join)).foldl joinRow out = out ++ rows.flatten := by
  induction rows generalizing out with
  | nil => simp
  | cons row rows ih =>
    rw [map_cons, foldl_cons, ih, joinRow, flatten_cons, append_assoc]

theorem joinRows_joinedRows {rows : List (List Char)} (hrows : rows ≠ [])
    (later : List (List Char × LineJoin)) :
    joinRows (joinedRows rows ++ later) = later.foldl joinRow rows.flatten := by
  obtain ⟨first, rest, rfl⟩ := exists_cons_of_ne_nil hrows
  rw [joinedRows, cons_append, joinRows, foldl_append, joinedRows_append_join,
    flatten_cons]

theorem foldl_joinedRows {rows : List (List Char)} (hrows : rows ≠ []) (out : List Char) :
    (joinedRows rows).foldl joinRow out = out ++ '\n' :: rows.flatten := by
  obtain ⟨first, rest, rfl⟩ := exists_cons_of_ne_nil hrows
  rw [joinedRows, foldl_cons, joinedRows_append_join, joinRow, flatten_cons,
    append_assoc, cons_append]

theorem joinRows_flatMap {rows : List Char → List (List Char)} (hrows : ∀ line, rows line ≠ [])
    (hflatten : ∀ line, (rows line).flatten = line) {lines : List (List Char)}
    (hlines : lines ≠ []) :
    joinRows (lines.flatMap fun line => joinedRows (rows line)) =
      List.intercalate ['\n'] lines := by
  have hlater : ∀ (later : List (List Char)) (out : List Char),
      (later.flatMap fun line => joinedRows (rows line)).foldl joinRow out =
        out ++ later.flatMap fun line => '\n' :: line := by
    intro later
    induction later with
    | nil => simp
    | cons line later ih =>
      intro out
      rw [flatMap_cons, foldl_append, foldl_joinedRows (hrows line), hflatten, ih,
        flatMap_cons, append_assoc]
  obtain ⟨first, later, rfl⟩ := exists_cons_of_ne_nil hlines
  rw [flatMap_cons, joinRows_joinedRows (hrows first), hlater, hflatten]
  induction later generalizing first with
  | nil => simp [List.intercalate]
  | cons line later ih =>
    rw [flatMap_cons, cons_append, ih line (cons_ne_nil _ _)]
    simp [List.intercalate]

theorem Wrapping.rows_ne_nil (s : Wrapping) : s.rows ≠ [] := by
  rw [Wrapping.rows]
  split_ifs with hopen
  · exact append_ne_nil_of_right_ne_nil _ (cons_ne_nil _ _)
  · exact fun hout => hopen (.inr hout)

theorem graphemeChunks_ne_nil (run : List (List Char)) (maxWidth : ℕ) :
    graphemeChunks width maxWidth run 0 ≠ [] := by
  simp only [graphemeChunks]
  split_ifs with hopen hnil hnil
  · exact cons_ne_nil _ _
  · exact hnil
  · exact cons_ne_nil _ _
  · exact hnil

theorem wrapRows_ne_nil (line : List Char) (maxWidth : ℕ) :
    wrapRows seg width displayWidth line maxWidth ≠ [] := by
  rw [wrapRows]
  split_ifs
  · exact cons_ne_nil _ _
  · exact graphemeChunks_ne_nil _ _
  · exact Wrapping.rows_ne_nil _

/-- A line is wrapped as it should be: it fits by the widths of its graphemes if it fits as a whole,
and if it is cut at white space, it is intact. -/
def LineIntact (seg : Segmentation) (width displayWidth : List Char → ℕ) (maxWidth : ℕ)
    (line : List Char) : Prop :=
  if displayWidth line ≤ maxWidth then rowWidth width (seg.graphemes line) ≤ maxWidth
  else line.any isWhitespace = true → Intact width maxWidth {} (seg.graphemes line)

theorem wraps_singleton_iff {maxWidth : ℕ} (line : List (List Char)) :
    Wraps width maxWidth line [line] ↔ rowWidth width line ≤ maxWidth := by
  constructor
  · exact fun h => h.width_le line mem_cons_self
  · intro hle
    refine ⟨by simp, by simpa using hle, ?_⟩
    rintro before after hsplit ⟨hbefore, hafter, -⟩
    rcases before with - | ⟨row, before⟩
    · exact hbefore rfl
    · obtain ⟨-, hnil⟩ := cons.inj hsplit
      obtain ⟨-, rfl⟩ := append_eq_nil_iff.1 hnil.symm
      exact hafter rfl

theorem wraps_wrapRows_iff (hgraphemes : ∀ text, ∀ g ∈ seg.graphemes text, g ≠ [])
    {maxWidth : ℕ} (hmax : 1 ≤ maxWidth) (hwidth : ∀ g, width g ≤ maxWidth) {line : List Char}
    (hdisplay : displayWidth line ≤ rowWidth width (seg.graphemes line)) :
    Wraps width maxWidth (seg.graphemes line) (wrapRows seg width displayWidth line maxWidth) ↔
      LineIntact seg width displayWidth maxWidth line := by
  rw [wrapRows, LineIntact, Nat.max_eq_left hmax]
  split_ifs with hfits hspace
  · exact wraps_singleton_iff _
  · have hrun : ∀ g ∈ seg.graphemes line, isBlank g = false := by
      intro g hg
      obtain ⟨c, rest, rfl⟩ := exists_cons_of_ne_nil (hgraphemes line g hg)
      have hc : c ∈ line := by
        rw [← seg.flatten_graphemes line]
        exact mem_flatten.2 ⟨_, hg, mem_cons_self⟩
      rw [any_eq_false] at hspace
      rw [isBlank, all_cons, Bool.eq_false_iff.2 (hspace c hc), Bool.false_and]
    refine iff_of_true (wraps_graphemeChunks hwidth hmax hrun (by omega)) fun htrue => ?_
    rw [hspace] at htrue
    cases htrue
  · rw [wraps_rows_iff hwidth]
    exact ⟨fun h _ => h, fun h => h (by simpa using hspace)⟩

theorem flatten_wrapPlainLine {maxWidth : ℕ} (hmax : 1 ≤ maxWidth)
    (hwidth : ∀ g, width g ≤ maxWidth) (line : List Char) :
    (wrapPlainLine seg width displayWidth line maxWidth).flatten = line := by
  have hrows : (wrapRows seg width displayWidth line maxWidth).flatten = seg.graphemes line := by
    rw [wrapRows, Nat.max_eq_left hmax]
    split_ifs
    · simp
    · exact (graphemeChunks_spec hwidth hmax _).1
    · obtain ⟨rows, hrows, hflatten⟩ := exists_rows hwidth (seg.graphemes line)
        (tracked_empty : Tracked width maxWidth {})
      rw [hrows]
      exact hflatten
  rw [wrapPlainLine, ← flatten_flatten, hrows, seg.flatten_graphemes]

/-- The rows of a text join to it, and a line has rows that are not too wide and break no word that
fits on a row if and only if it is intact. -/
theorem wraps_iff_intact (seg : Segmentation) (width displayWidth : List Char → ℕ)
    (hgraphemes : ∀ text, ∀ g ∈ seg.graphemes text, g ≠ []) (hwidth : ∀ g, width g ≤ 2)
    (hdisplay : ∀ text, displayWidth text ≤ rowWidth width (seg.graphemes text)) {maxWidth : ℕ}
    (hmax : 2 ≤ maxWidth) :
    (∀ text, joinRows (plainTextLinesJoined seg width displayWidth text maxWidth) = text) ∧
      ∀ line, (wrapPlainLine seg width displayWidth line maxWidth).flatten = line ∧
        (Wraps width maxWidth (seg.graphemes line)
            (wrapRows seg width displayWidth line maxWidth) ↔
          LineIntact seg width displayWidth maxWidth line) := by
  have hle : ∀ g, width g ≤ maxWidth := fun g => (hwidth g).trans hmax
  have hflatten : ∀ line, (wrapPlainLine seg width displayWidth line maxWidth).flatten = line :=
    flatten_wrapPlainLine (by omega) hle
  refine ⟨fun text => ?_, fun line => ⟨hflatten line,
    wraps_wrapRows_iff hgraphemes (by omega) hle (hdisplay line)⟩⟩
  rw [plainTextLinesJoined]
  split_ifs with htext
  · rw [htext]
    rfl
  · rw [joinRows_flatMap ?_ hflatten ?_, intercalate_splitOn]
    · intro line hnil
      exact wrapRows_ne_nil line maxWidth (map_eq_nil_iff.1 hnil)
    · exact splitOn_ne_nil _ _

end Lines

/-- Columns of a grapheme: two from the wide scripts on, else one. -/
def columns (g : List Char) : ℕ := if g.any fun c => 0x1100 ≤ c.toNat then 2 else 1

def textColumns (text : List Char) : ℕ := rowWidth columns (InputField.perCharacter.graphemes text)

theorem columns_le (g : List Char) : columns g ≤ 2 := by
  rw [columns]
  split_ifs <;> omega

theorem perCharacter_ne_nil (text : List Char) :
    ∀ g ∈ InputField.perCharacter.graphemes text, g ≠ [] := by
  intro g hg
  obtain ⟨c, -, rfl⟩ := mem_map.1 hg
  exact cons_ne_nil _ _

/-- Two words on rows of three columns. -/
theorem wraps_twoWords :
    joinRows (plainTextLinesJoined InputField.perCharacter columns textColumns
        ['a', 'b', ' ', 'c', 'd'] 3) = ['a', 'b', ' ', 'c', 'd'] ∧
      Wraps columns 3 [['a'], ['b'], [' '], ['c'], ['d']]
        (wrapRows InputField.perCharacter columns textColumns ['a', 'b', ' ', 'c', 'd'] 3) := by
  have h := wraps_iff_intact InputField.perCharacter columns textColumns perCharacter_ne_nil
    columns_le (fun text => Nat.le_refl _) (show 2 ≤ 3 by decide)
  have hintact : LineIntact InputField.perCharacter columns textColumns 3
      ['a', 'b', ' ', 'c', 'd'] := by
    rw [LineIntact, if_neg (by decide)]
    intro _
    decide
  exact ⟨h.1 _, (h.2 _).2.2 hintact⟩

/-- A wide grapheme behind a space and two letters makes a row of four columns out of three. A space
that overflows a row of four columns leaves no room for a word of four letters, which is broken
though it fits on a row. -/
theorem not_wraps_wideGrapheme :
    (wrapPlainLine InputField.perCharacter columns textColumns
        [' ', 'a', 'b', Char.ofNat 0x597D] 3 = [[' '], ['a', 'b', Char.ofNat 0x597D]] ∧
      ¬ Wraps columns 3 [[' '], ['a'], ['b'], [Char.ofNat 0x597D]]
        (wrapRows InputField.perCharacter columns textColumns
          [' ', 'a', 'b', Char.ofNat 0x597D] 3)) ∧
    (wrapPlainLine InputField.perCharacter columns textColumns
        ['a', 'b', 'c', 'd', ' ', 'e', 'f', 'g', 'h'] 4 =
          [['a', 'b', 'c', 'd'], [' ', 'e', 'f', 'g'], ['h']] ∧
      ¬ Wraps columns 4 [['a'], ['b'], ['c'], ['d'], [' '], ['e'], ['f'], ['g'], ['h']]
        (wrapRows InputField.perCharacter columns textColumns
          ['a', 'b', 'c', 'd', ' ', 'e', 'f', 'g', 'h'] 4)) := by
  refine ⟨⟨by decide, fun h => ?_⟩, by decide, fun h => ?_⟩
  · have hwide := h.width_le [['a'], ['b'], [Char.ofNat 0x597D]] (by decide)
    revert hwide
    decide
  · refine h.words [[['a'], ['b'], ['c'], ['d']], [[' '], ['e'], ['f'], ['g']]] [[['h']]]
      (by decide) ⟨by decide, by decide, by decide⟩

end PlainWrap

end Choreo
