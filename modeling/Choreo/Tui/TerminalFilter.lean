import Choreo.Tools.ReadFile

/-!
# The terminal filter

Before the terminal client shows the output of a tool, it escapes what could control the terminal
(`sanitize_for_terminal` of `choreo-tui/src/markdown_render.rs`). Only color sequences are kept. The
tabs of what is left are then expanded to spaces (`expand_tabs`).
-/

namespace Choreo

open List

variable (unicode : FormatCategory)

/-! ### The filter -/

/-- The escape character. -/
def esc : Char := '\u001b'

variable (c : Char)

/-- Whether a character is shown as it is. -/
def terminalKeeps : Bool :=
  c == '\t' || c == '\n' || (c.toNat < 0x80 && (0x20 ≤ c.toNat && c.toNat ≤ 0x7E)) ||
    (!(c.toNat < 0x80) && !(c.toNat < 0xA0) && !isUnsafeUnicode unicode c)

/-- A parameter byte of a control sequence. -/
def isParam : Bool := 0x30 ≤ c.toNat && c.toNat ≤ 0x3F

/-- A final byte of a control sequence. -/
def isFinal : Bool := 0x40 ≤ c.toNat && c.toNat ≤ 0x7E

/-- Reads a control sequence behind its bracket: the parameters and the final byte, whether it is a
color sequence, and what follows. -/
def scanSequence : Text → Text × Bool × Text
  | [] => ([], false, [])
  | c :: rest =>
    if isParam c then
      let scanned := scanSequence rest
      (c :: scanned.1, scanned.2)
    else if isFinal c then ([c], c == 'm', rest)
    else ([], false, c :: rest)

theorem length_scanSequence (text : Text) : (scanSequence text).2.2.length ≤ text.length := by
  induction text with
  | nil => exact Nat.le_refl _
  | cons c rest ih =>
    rw [scanSequence]
    split_ifs
    · exact Nat.le_succ_of_le ih
    · exact Nat.le_succ _
    · exact Nat.le_refl _

/-- Keeps color sequences and harmless characters, and escapes the others. -/
def sanitizeForTerminal : Text → Text
  | [] => []
  | c :: rest =>
    if c = '\r' ∧ rest.head? = some '\n' then '\n' :: sanitizeForTerminal rest.tail
    else if c = esc ∧ rest.head? = some '[' then
      let scanned := scanSequence rest.tail
      (if scanned.2.1 then esc :: '[' :: scanned.1
        else "\\u\x7b1b\x7d".toList ++ '[' :: scanned.1) ++ sanitizeForTerminal scanned.2.2
    else (if terminalKeeps unicode c then [c] else escapeDefault c) ++ sanitizeForTerminal rest
termination_by text => text.length
decreasing_by
  all_goals
    have := length_scanSequence rest.tail
    simp only [length_tail, length_cons] at *
    omega

/-! ### Tabs -/

/-- The distance of the tab stops. -/
def tabStop : ℕ := 4

/-- Reads a sequence to its final byte, and what follows. -/
def copySequence : Text → Text × Text
  | [] => ([], [])
  | c :: rest =>
    if isFinal c then ([c], rest)
    else
      let copied := copySequence rest
      (c :: copied.1, copied.2)

theorem length_copySequence (text : Text) : (copySequence text).2.length ≤ text.length := by
  induction text with
  | nil => exact Nat.le_refl _
  | cons c rest ih =>
    rw [copySequence]
    split_ifs
    · exact Nat.le_succ _
    · exact Nat.le_succ_of_le ih

variable (width : Char → ℕ)

/-- Expands the tabs of a text that begins at a column. -/
def expandFrom (col : ℕ) : Text → Text
  | [] => []
  | c :: rest =>
    if c = '\t' then
      let pad := tabStop - col % tabStop
      List.replicate pad ' ' ++ expandFrom (col + pad) rest
    else if c = '\n' then '\n' :: expandFrom 0 rest
    else if c = esc then
      if rest.head? = some '[' then
        let copied := copySequence rest.tail
        esc :: '[' :: copied.1 ++ expandFrom col copied.2
      else esc :: expandFrom col rest
    else c :: expandFrom (col + width c) rest
termination_by text => text.length
decreasing_by
  all_goals
    have := length_copySequence rest.tail
    simp only [length_tail, length_cons] at *
    omega

def expandTabs (text : Text) : Text :=
  if '\t' ∉ text then text else expandFrom width 0 text

/-! ### Inert texts -/

/-- A text of kept characters and complete color sequences. -/
inductive Inert : Text → Prop
  | nil : Inert []
  | kept {c : Char} {rest : Text} : terminalKeeps unicode c = true → Inert rest → Inert (c :: rest)
  | color {params rest : Text} : (∀ c ∈ params, isParam c = true) → Inert rest →
      Inert (esc :: '[' :: (params ++ 'm' :: rest))

variable {unicode}

theorem not_terminalKeeps_return : terminalKeeps unicode '\r' = false := by
  simp [terminalKeeps, Char.toNat]

theorem not_terminalKeeps_esc : terminalKeeps unicode esc = false := by
  simp [terminalKeeps, esc, Char.toNat]

/-- Kept characters in front of an inert text. -/
theorem Inert.append {kept rest : Text} (hkept : ∀ c ∈ kept, terminalKeeps unicode c = true)
    (h : Inert unicode rest) : Inert unicode (kept ++ rest) := by
  induction kept with
  | nil => exact h
  | cons c kept ih =>
    obtain ⟨hc, hkept⟩ := forall_mem_cons.1 hkept
    exact .kept hc (ih hkept)

variable {text : Text}

theorem not_isFinal_of_isParam {c : Char} (h : isParam c = true) : isFinal c = false := by
  rw [isParam, Bool.and_eq_true, decide_eq_true_iff, decide_eq_true_iff] at h
  rw [isFinal, Bool.and_eq_false_iff, decide_eq_false_iff_not, decide_eq_false_iff_not]
  omega

theorem scanSequence_color {params : Text} (h : ∀ c ∈ params, isParam c = true) (rest : Text) :
    scanSequence (params ++ 'm' :: rest) = (params ++ ['m'], true, rest) := by
  induction params with
  | nil => rfl
  | cons c params ih =>
    obtain ⟨hc, hparams⟩ := forall_mem_cons.1 h
    rw [cons_append, scanSequence, if_pos hc, ih hparams]
    rfl

/-- The filter leaves inert texts alone. -/
theorem Inert.sanitizeForTerminal (h : Inert unicode text) :
    sanitizeForTerminal unicode text = text := by
  induction h with
  | nil => rw [Choreo.sanitizeForTerminal]
  | @kept c rest hc _ ih =>
    rw [Choreo.sanitizeForTerminal, if_neg, if_neg, if_pos hc, ih]
    · rfl
    · rintro ⟨rfl, -⟩
      rw [not_terminalKeeps_esc] at hc
      cases hc
    · rintro ⟨rfl, -⟩
      rw [not_terminalKeeps_return] at hc
      cases hc
  | @color params rest hparams _ ih =>
    rw [Choreo.sanitizeForTerminal, if_neg (by rintro ⟨h, -⟩; revert h; decide),
      if_pos ⟨rfl, rfl⟩, tail_cons, scanSequence_color hparams]
    dsimp only
    rw [if_pos rfl, ih]
    simp

/-- The control characters. -/
def isControl : Bool := c.toNat < 0x20 || (0x7F ≤ c.toNat && c.toNat < 0xA0)

/-- The only control characters in inert texts are tabs, newlines, and escape characters that begin
a color sequence. -/
theorem Inert.control (h : Inert unicode text) {before after : Text} {c : Char}
    (htext : text = before ++ c :: after) (hc : isControl c = true) :
    c = '\t' ∨ c = '\n' ∨ c = esc ∧ ∃ params rest, after = '[' :: (params ++ 'm' :: rest) ∧
      ∀ d ∈ params, isParam d = true := by
  induction h generalizing before with
  | nil => simp at htext
  | @kept d rest hd _ ih =>
    rcases before with - | ⟨first, before⟩
    · obtain ⟨rfl, -⟩ := cons.inj htext
      simp only [terminalKeeps, isControl, Bool.or_eq_true, Bool.and_eq_true, beq_iff_eq,
        decide_eq_true_eq, Bool.not_eq_true', decide_eq_false_iff_not] at hd hc
      rcases hd with ((h | h) | h) | h
      · exact .inl h
      · exact .inr (.inl h)
      · omega
      · omega
    · exact ih (cons.inj htext).2
  | @color params rest hparams _ ih =>
    rcases before with - | ⟨first, - | ⟨second, before⟩⟩
    · obtain ⟨rfl, rfl⟩ := cons.inj htext
      exact .inr (.inr ⟨rfl, params, rest, rfl, hparams⟩)
    · obtain ⟨-, htext⟩ := cons.inj htext
      obtain ⟨rfl, -⟩ := cons.inj htext
      exact absurd hc (by decide)
    · obtain ⟨-, htext⟩ := cons.inj htext
      obtain ⟨-, htext⟩ := cons.inj htext
      rcases append_eq_append_iff.1 htext with ⟨between, hbefore, hrest⟩ |
        ⟨between, hsplit, hafter⟩
      · rcases between with - | ⟨d, between⟩
        · obtain ⟨rfl, -⟩ := cons.inj hrest
          exact absurd hc (by decide)
        · exact ih (cons.inj hrest).2
      · rcases between with - | ⟨d, between⟩
        · obtain ⟨rfl, -⟩ := cons.inj hafter
          exact absurd hc (by decide)
        · obtain ⟨rfl, -⟩ := cons.inj hafter
          have hparam := hparams c (by rw [hsplit]; simp)
          rw [isParam, Bool.and_eq_true, decide_eq_true_iff, decide_eq_true_iff] at hparam
          simp only [isControl, Bool.or_eq_true, Bool.and_eq_true, decide_eq_true_eq] at hc
          omega

/-! ### Columns -/

/-- A text without its control sequences. The flag says that it begins inside of one, behind the
bracket. -/
def visible : Bool → Text → Text
  | _, [] => []
  | true, c :: rest => visible (!isFinal c) rest
  | false, c :: rest =>
    if c = esc then
      match rest with
      | '[' :: rest => visible true rest
      | rest => visible false rest
    else c :: visible false rest

/-- The column behind a text that begins at a column: the width of what is visible of the last
line. -/
def column (width : Char → ℕ) (col : ℕ) (text : Text) : ℕ :=
  (visible false text).foldl (fun col c => if c = '\n' then 0 else col + width c) col

/-- A text arises from another, behind what is done already, when each tab is replaced by spaces up
to the next tab stop. -/
inductive TabsSpaced (width : Char → ℕ) : Text → Text → Text → Prop
  | nil {done : Text} : TabsSpaced width done [] []
  | char {done text out : Text} {c : Char} : c ≠ '\t' → TabsSpaced width (done ++ [c]) text out →
      TabsSpaced width done (c :: text) (c :: out)
  | tab {done text out : Text} {pad : ℕ} : 0 < pad → pad ≤ tabStop →
      column width 0 (done ++ List.replicate pad ' ') = column width 0 done + pad →
      tabStop ∣ column width 0 (done ++ List.replicate pad ' ') →
      TabsSpaced width (done ++ List.replicate pad ' ') text out →
      TabsSpaced width done ('\t' :: text) (List.replicate pad ' ' ++ out)

theorem TabsSpaced.plain {width : Char → ℕ} {plain : Text} (hplain : '\t' ∉ plain)
    {done text out : Text} (h : TabsSpaced width (done ++ plain) text out) :
    TabsSpaced width done (plain ++ text) (plain ++ out) := by
  induction plain generalizing done with
  | nil => rwa [append_nil] at h
  | cons c plain ih =>
    rw [mem_cons, not_or] at hplain
    exact .char (Ne.symm hplain.1) (ih hplain.2 (by rwa [append_assoc, singleton_append]))

theorem copySequence_color {params : Text} (h : ∀ c ∈ params, isParam c = true) (rest : Text) :
    copySequence (params ++ 'm' :: rest) = (params ++ ['m'], rest) := by
  induction params with
  | nil => rfl
  | cons c params ih =>
    obtain ⟨hc, hparams⟩ := forall_mem_cons.1 h
    rw [cons_append, copySequence, not_isFinal_of_isParam hc, ih hparams]
    rfl

theorem visible_color {params : Text} (h : ∀ c ∈ params, isParam c = true) (rest : Text) :
    visible true (params ++ 'm' :: rest) = visible false rest := by
  induction params with
  | nil => rfl
  | cons c params ih =>
    obtain ⟨hc, hparams⟩ := forall_mem_cons.1 h
    rw [cons_append, visible, not_isFinal_of_isParam hc]
    exact ih hparams

section Columns

variable {width : Char → ℕ}

theorem column_color {params : Text} (h : ∀ c ∈ params, isParam c = true) (col : ℕ)
    (rest : Text) : column width col (esc :: '[' :: (params ++ 'm' :: rest)) =
      column width col rest := by
  have hvisible : visible false (esc :: '[' :: (params ++ 'm' :: rest)) = visible false rest := by
    rw [visible, if_pos rfl]
    exact visible_color h rest
  rw [column, hvisible, column]

theorem column_cons {c : Char} (h : c ≠ esc) (col : ℕ) (rest : Text) :
    column width col (c :: rest) = column width (if c = '\n' then 0 else col + width c) rest := by
  have hvisible : visible false (c :: rest) = c :: visible false rest := by
    conv_lhs => unfold visible
    exact if_neg h
  rw [column, hvisible]
  rfl

theorem column_spaces (hspace : width ' ' = 1) (pad col : ℕ) (rest : Text) :
    column width col (List.replicate pad ' ' ++ rest) = column width (col + pad) rest := by
  induction pad generalizing col with
  | zero => rfl
  | succ pad ih =>
    rw [replicate_succ, cons_append, column_cons (by decide), if_neg (by decide), hspace,
      ih, Nat.add_assoc, Nat.add_comm 1]

theorem Inert.tabsSpaced (hspace : width ' ' = 1) {text : Text} (h : Inert unicode text)
    (done : Text) (col : ℕ)
    (hdone : ∀ after, column width 0 (done ++ after) = column width col after) :
    TabsSpaced width done text (expandFrom width col text) ∧ '\t' ∉ expandFrom width col text := by
  induction h generalizing done col with
  | nil =>
    rw [expandFrom]
    exact ⟨.nil, not_mem_nil⟩
  | @kept c text hc _ ih =>
    have hesc : c ≠ esc := by
      rintro rfl
      rw [not_terminalKeeps_esc] at hc
      cases hc
    rw [expandFrom]
    by_cases htab : c = '\t'
    · subst htab
      have hmod : col % tabStop < tabStop := Nat.mod_lt _ (by decide)
      obtain ⟨pad, hpad⟩ : ∃ pad, pad = tabStop - col % tabStop := ⟨_, rfl⟩
      have hbehind : column width 0 (done ++ List.replicate pad ' ') = col + pad := by
        have hspaces := column_spaces hspace pad col []
        rw [append_nil] at hspaces
        rw [hdone, hspaces]
        rfl
      have hcol : column width 0 done = col := by
        have hhere := hdone []
        rwa [append_nil] at hhere
      obtain ⟨hspaced, hnone⟩ := ih (done ++ List.replicate pad ' ') (col + pad)
        fun after => by rw [append_assoc, hdone, column_spaces hspace]
      rw [if_pos rfl, ← hpad]
      refine ⟨.tab (by omega) (by omega) (by rw [hbehind, hcol]) ?_ hspaced, ?_⟩
      · have hdiv := Nat.div_add_mod col tabStop
        rw [hbehind]
        exact ⟨col / tabStop + 1, by rw [Nat.mul_add]; omega⟩
      · rw [mem_append, not_or]
        exact ⟨fun hmem => absurd (eq_of_mem_replicate hmem) (by decide), hnone⟩
    · have hnext : TabsSpaced width done (c :: text)
            (c :: expandFrom width (if c = '\n' then 0 else col + width c) text) ∧
          '\t' ∉ c :: expandFrom width (if c = '\n' then 0 else col + width c) text := by
        obtain ⟨hspaced, hnone⟩ := ih (done ++ [c]) _ fun after => by
          rw [append_assoc, hdone, singleton_append, column_cons hesc]
        exact ⟨.char htab hspaced, not_mem_cons_of_ne_of_not_mem (Ne.symm htab) hnone⟩
      rw [if_neg htab]
      split_ifs with hline
      · subst hline
        exact hnext
      · rwa [if_neg hline] at hnext
  | @color params text hparams _ ih =>
    have hstep : expandFrom width col (esc :: '[' :: (params ++ 'm' :: text)) =
        esc :: '[' :: (params ++ ['m']) ++ expandFrom width col text := by
      rw [expandFrom, if_neg (by decide), if_neg (by decide), if_pos rfl,
        List.head?_cons, if_pos rfl, tail_cons, copySequence_color hparams]
    have hplain : '\t' ∉ esc :: '[' :: (params ++ ['m']) := by
      have hparam : '\t' ∉ params := fun hmem => absurd (hparams _ hmem) (by decide)
      simp [hparam, esc]
    have hsplit (text : Text) : esc :: '[' :: (params ++ 'm' :: text) =
        (esc :: '[' :: (params ++ ['m'])) ++ text := by simp
    obtain ⟨hspaced, hnone⟩ := ih (done ++ esc :: '[' :: (params ++ ['m'])) col fun after => by
      rw [append_assoc, hdone, ← hsplit, column_color hparams]
    rw [hstep, hsplit]
    exact ⟨hspaced.plain hplain, by rw [mem_append, not_or]; exact ⟨hplain, hnone⟩⟩

end Columns

/-! ### The result -/

/-- The tabs of a text are expanded: there are none left, nothing else is changed, and what follows
a tab stands at the next multiple of the distance of the tab stops. -/
structure Expanded (width : Char → ℕ) (text out : Text) : Prop where
  noTab : '\t' ∉ out
  spaced : TabsSpaced width [] text out

theorem Inert.expanded {width : Char → ℕ} (hspace : width ' ' = 1)
    (h : Inert unicode text) : Expanded width text (expandTabs width text) := by
  rw [expandTabs]
  by_cases htab : '\t' ∉ text
  · rw [if_pos htab]
    refine ⟨htab, ?_⟩
    have hspaced : TabsSpaced width [] (text ++ []) (text ++ []) := .plain htab .nil
    simpa using hspaced
  · rw [if_neg htab]
    obtain ⟨hspaced, hnone⟩ := h.tabsSpaced hspace [] 0 fun _ => rfl
    exact ⟨hnone, hspaced⟩

end Choreo
