import Choreo.Library.Utf8
import Choreo.Proto

/-!
# Tool output: escaping and the byte budget

What every tool shares before its output is recorded: the escaping of format characters, the cap
of the recorded text, and the budget of a streamed output. The table of Unicode categories comes
from a package of its own; here it is a parameter with the two facts that are used.
-/

namespace Choreo

open List

/-- Text as its characters. -/
abbrev Text := List Char

/-- The characters whose general category is Format. No ASCII character and not the replacement
character is among them. -/
structure FormatCategory where
  isFormat : Char → Bool
  ascii : ∀ c : Char, c.toNat < 0x80 → isFormat c = false
  replacement : isFormat Utf8.replacement = false

/-- The format characters as ranges of code points. -/
def formatRanges : List (ℕ × ℕ) :=
  [(0xAD, 0xAD), (0x600, 0x605), (0x61C, 0x61C), (0x6DD, 0x6DD), (0x70F, 0x70F), (0x890, 0x891),
    (0x8E2, 0x8E2), (0x180E, 0x180E), (0x200B, 0x200F), (0x202A, 0x202E), (0x2060, 0x2064),
    (0x2066, 0x206F), (0xFEFF, 0xFEFF), (0xFFF9, 0xFFFB), (0x110BD, 0x110BD), (0x110CD, 0x110CD),
    (0x13430, 0x1343F), (0x1BCA0, 0x1BCA3), (0x1D173, 0x1D17A), (0xE0001, 0xE0001),
    (0xE0020, 0xE007F)]

/-- The category as Unicode lists it. -/
def FormatCategory.listed : FormatCategory where
  isFormat c := formatRanges.any fun range => range.1 ≤ c.toNat && c.toNat ≤ range.2
  ascii c hc := by
    have hlow : ∀ range ∈ formatRanges, 0x80 ≤ range.1 := by decide
    rw [any_eq_false]
    intro range hrange
    have := hlow range hrange
    simp only [Bool.and_eq_true, decide_eq_true_eq]
    omega
  replacement := by decide

/-- The limit of a tool's output. -/
def maxToolOutputBytes : ℕ := 128 * 1024

/-- The marker that stands where output was cut. -/
def truncationSuffix : Text := "\n...[truncated]".toList

/-! ### Escaping -/

variable (unicode : FormatCategory) (c : Char)

def isNonJoinerFormatChar : Bool :=
  unicode.isFormat c && !(c == '\u200c' || c == '\u200d')

/-- The escaped form of a character. -/
def escapeDefault : Text :=
  if c = '\t' then ['\\', 't']
  else if c = '\r' then ['\\', 'r']
  else if c = '\n' then ['\\', 'n']
  else if c = '\'' ∨ c = '\"' ∨ c = '\\' then ['\\', c]
  else if 0x20 ≤ c.toNat ∧ c.toNat ≤ 0x7e then [c]
  else ['\\', 'u', '\x7b'] ++ Nat.toDigits 16 c.toNat ++ ['\x7d']

/-- A byte that needs no look at its character. -/
def isPlainByte (b : UInt8) : Bool :=
  b.toNat < 0x80 && (0x20 ≤ b.toNat || b == 0x0A || b == 0x09 || b == 0x0D)

def escapeChar : Text :=
  if isNonJoinerFormatChar unicode c then escapeDefault c else [c]

/-- Escapes the format characters of a text. -/
def sanitizeTranscript (text : Text) : Text :=
  if (Utf8.encode text).all isPlainByte then text else text.flatMap (escapeChar unicode)

/-! ### Caps -/

/-- Cuts a text at a number of bytes, at the end of a character, and marks the cut. -/
def truncateToolOutputAt (content : Text) (cap : ℕ) : Text :=
  if Utf8.size content ≤ cap then content else Utf8.floorPrefix cap content ++ truncationSuffix

/-- Cuts a text at the limit of a tool's output. -/
def truncateToolOutput (content : Text) : Text := truncateToolOutputAt content maxToolOutputBytes

/-- Cuts a body so that the marker after it and a cut's own marker have room. -/
def finishToolOutput (body : Text) (marker : Option Text) : Text :=
  match marker with
  | none => truncateToolOutput body
  | some marker =>
    let tail := '\n' :: marker
    let bodyCap := maxToolOutputBytes - (Utf8.size tail + Utf8.size truncationSuffix)
    truncateToolOutputAt body bodyCap ++ tail

/-- Escapes a body and cuts it. -/
def finishToolOutputSanitized (body : Text) (marker : Option Text) :
    Text :=
  finishToolOutput (sanitizeTranscript unicode body) marker

def recordedContent (content : Text) : Text :=
  truncateToolOutput (sanitizeTranscript unicode content)

/-! ### The budget of a stream -/

/-- The bytes a stream may have, those it had, and whether it was cut and marked. -/
structure ByteBudget where
  limit : ℕ
  used : ℕ := 0
  truncated : Bool := false
  markerSent : Bool := false
deriving Repr, DecidableEq

namespace ByteBudget

/-- How many bytes of a chunk may be forwarded. -/
def fit (budget : ByteBudget) (len : ℕ) : ℕ × ByteBudget :=
  if budget.limit ≤ budget.used then (0, { budget with truncated := true })
  else
    let remaining := budget.limit - budget.used
    if remaining < len then
      (remaining, { budget with used := budget.limit, truncated := true })
    else (len, { budget with used := budget.used + len })

/-- The marker, once the budget was crossed and only once. -/
def takeMarker (budget : ByteBudget) : Option Text × ByteBudget :=
  if budget.truncated && !budget.markerSent then
    (some truncationSuffix, { budget with markerSent := true })
  else (none, budget)

end ByteBudget

/-! ### Escaping character by character -/

variable (unicode : FormatCategory)

/-- A text without characters to escape. -/
def Clean (text : Text) : Prop := ∀ c ∈ text, isNonJoinerFormatChar unicode c = false

variable {unicode}

theorem isNonJoinerFormatChar_of_ascii {c : Char} (hc : c.toNat < 0x80) :
    isNonJoinerFormatChar unicode c = false := by
  rw [isNonJoinerFormatChar, unicode.ascii c hc, Bool.false_and]

variable {text : Text}

theorem clean_of_ascii (hascii : ∀ c ∈ text, c.toNat < 0x80) :
    Clean unicode text := fun c hc => isNonJoinerFormatChar_of_ascii (hascii c hc)

theorem clean_append {text text' : Text} :
    Clean unicode (text ++ text') ↔ Clean unicode text ∧ Clean unicode text' :=
  forall_mem_append

theorem flatMap_escapeChar (h : Clean unicode text) :
    text.flatMap (escapeChar unicode) = text := by
  induction text with
  | nil => rfl
  | cons c text ih =>
    have hc : escapeChar unicode c = [c] := by
      rw [escapeChar, h c mem_cons_self, if_neg Bool.false_ne_true]
    rw [flatMap_cons, hc, ih fun d hd => h d (mem_cons_of_mem c hd),
      singleton_append]

/-- A character with an ASCII byte is that byte. -/
theorem toNat_lt_of_mem_encodeChar {c : Char} {b : UInt8} (hb : b ∈ String.utf8EncodeChar c)
    (hplain : b.toNat < 0x80) : c.toNat < 0x80 := by
  rw [String.utf8EncodeChar] at hb
  change c.val.toNat < 0x80
  set v := c.val.toNat
  split_ifs at hb with h1 h2 h3
  · omega
  all_goals
    simp only [mem_cons, not_mem_nil, or_false] at hb
    rcases hb with rfl | rfl | rfl | rfl <;>
      simp only [UInt8.toNat_ofNat'] at hplain <;> omega

theorem ascii_of_all_plain (h : (Utf8.encode text).all isPlainByte = true) :
    ∀ c ∈ text, c.toNat < 0x80 := by
  intro c hc
  have hne : String.utf8EncodeChar c ≠ [] := by
    rw [← length_pos_iff, String.length_utf8EncodeChar]
    exact c.utf8Size_pos
  obtain ⟨b, bs, hbytes⟩ := exists_cons_of_ne_nil hne
  have hb : b ∈ String.utf8EncodeChar c := hbytes ▸ mem_cons_self
  have hplain : isPlainByte b = true :=
    all_eq_true.1 h b (mem_flatMap.2 ⟨c, hc, hb⟩)
  simp only [isPlainByte, Bool.and_eq_true, decide_eq_true_eq] at hplain
  exact toNat_lt_of_mem_encodeChar hb hplain.1

/-- The fast path for plain text changes nothing. -/
theorem sanitizeTranscript_eq_flatMap (text : Text) :
    sanitizeTranscript unicode text = text.flatMap (escapeChar unicode) := by
  rw [sanitizeTranscript]
  split_ifs with hplain
  · exact (flatMap_escapeChar (clean_of_ascii (ascii_of_all_plain hplain))).symm
  · rfl

theorem sanitizeTranscript_append (text text' : Text) :
    sanitizeTranscript unicode (text ++ text') =
      sanitizeTranscript unicode text ++ sanitizeTranscript unicode text' := by
  simp only [sanitizeTranscript_eq_flatMap, flatMap_append]

theorem Clean.sanitizeTranscript (h : Clean unicode text) :
    sanitizeTranscript unicode text = text := by
  rw [sanitizeTranscript_eq_flatMap, flatMap_escapeChar h]

theorem digitChar_ascii (n : ℕ) : n.digitChar.toNat < 0x80 := by
  by_cases hn : n < 16
  · interval_cases n <;> decide
  · rw [Nat.digitChar_eq_star.2 (by omega)]
    decide

theorem toDigits_ascii {base : ℕ} (hbase : 1 < base) (n : ℕ) :
    ∀ d ∈ Nat.toDigits base n, d.toNat < 0x80 := by
  induction n using Nat.strong_induction_on with
  | _ n ih =>
    intro d hd
    rw [Nat.toDigits_eq_if hbase] at hd
    split_ifs at hd with hn
    · rw [mem_singleton.1 hd]
      exact digitChar_ascii n
    · rcases mem_append.1 hd with hd | hd
      · exact ih (n / base) (Nat.div_lt_self (by omega) hbase) d hd
      · rw [mem_singleton.1 hd]
        exact digitChar_ascii _

theorem escapeDefault_ascii : ∀ d ∈ escapeDefault c, d.toNat < 0x80 := by
  have hopen : ∀ d ∈ ['\\', 'u', '\x7b'], d.toNat < 0x80 := Utf8.ascii_of_all (by decide)
  have hclose : ∀ d ∈ ['\x7d'], d.toNat < 0x80 := Utf8.ascii_of_all (by decide)
  rw [escapeDefault]
  split_ifs with h1 h2 h3 h4 h5
  · exact Utf8.ascii_of_all (by decide)
  · exact Utf8.ascii_of_all (by decide)
  · exact Utf8.ascii_of_all (by decide)
  · rcases h4 with rfl | rfl | rfl <;> exact Utf8.ascii_of_all (by decide)
  · simp only [mem_singleton, forall_eq]
    omega
  · intro d hd
    rcases mem_append.1 hd with hd | hd
    · rcases mem_append.1 hd with hd | hd
      · exact hopen d hd
      · exact toDigits_ascii (by norm_num) _ d hd
    · exact hclose d hd

theorem escapeDefault_ne_nil : escapeDefault c ≠ [] := by
  rw [escapeDefault]
  split_ifs <;> simp

theorem escapeChar_ne_nil : escapeChar unicode c ≠ [] := by
  rw [escapeChar]
  split_ifs
  · exact escapeDefault_ne_nil c
  · simp

theorem sanitizeTranscript_ne_nil (h : text ≠ []) :
    Choreo.sanitizeTranscript unicode text ≠ [] := by
  obtain ⟨c, text, rfl⟩ := exists_cons_of_ne_nil h
  rw [sanitizeTranscript_eq_flatMap, flatMap_cons]
  exact append_ne_nil_of_left_ne_nil (escapeChar_ne_nil c) _

/-- Escaped text has nothing left to escape. -/
theorem clean_sanitizeTranscript (text : Text) :
    Clean unicode (Choreo.sanitizeTranscript unicode text) := by
  intro d hd
  rw [sanitizeTranscript_eq_flatMap] at hd
  obtain ⟨c, -, hd⟩ := mem_flatMap.1 hd
  rw [escapeChar] at hd
  split_ifs at hd with hc
  · exact isNonJoinerFormatChar_of_ascii (escapeDefault_ascii c d hd)
  · rw [mem_singleton.1 hd]
    exact Bool.eq_false_iff.2 hc

end Choreo
