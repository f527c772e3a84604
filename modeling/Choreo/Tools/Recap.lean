import Choreo.Library.Utf8Floor
import Choreo.Tools.Sanitize

/-!
# Recording what was capped before

The content of every tool is escaped and capped again when it is recorded. A text that ends at the
cap exactly, with its marker behind it, is cut at the same place again. A text that is cut below
the cap, because a character lies across it, is not treated here.
-/

namespace Choreo

open List

variable {unicode : FormatCategory}

theorem truncateToolOutputAt_of_size_le {content : Text} {cap : ℕ} (h : Utf8.size content ≤ cap) :
    truncateToolOutputAt content cap = content := by
  rw [truncateToolOutputAt, if_pos h]

theorem truncateToolOutputAt_append {content rest : Text} {cap : ℕ} (h : Utf8.size content = cap)
    (hrest : rest ≠ []) : truncateToolOutputAt (content ++ rest) cap =
      content ++ truncationSuffix := by
  have hpos : rest.length ≠ 0 := fun hlen => hrest (length_eq_zero_iff.1 hlen)
  have hlen := Utf8.length_le_size rest
  have hlong : ¬Utf8.size (content ++ rest) ≤ cap := by
    rw [Utf8.size_append]
    omega
  rw [truncateToolOutputAt, if_neg hlong, ← h, Utf8.floorPrefix_append_of_size]

theorem truncateToolOutput_idem {content : Text} (h : Utf8.CutsWhole maxToolOutputBytes content) :
    truncateToolOutput (truncateToolOutput content) = truncateToolOutput content := by
  by_cases hfits : Utf8.size content ≤ maxToolOutputBytes
  · rw [truncateToolOutput, truncateToolOutput, truncateToolOutputAt_of_size_le hfits,
      truncateToolOutputAt_of_size_le hfits]
  · have hcut := h.resolve_left hfits
    have hcapped : truncateToolOutput content =
        Utf8.floorPrefix maxToolOutputBytes content ++ truncationSuffix := by
      rw [truncateToolOutput, truncateToolOutputAt, if_neg hfits]
    rw [hcapped, truncateToolOutput,
      truncateToolOutputAt_append hcut (by decide)]

theorem clean_truncationSuffix : Clean unicode truncationSuffix :=
  clean_of_ascii (Utf8.ascii_of_all (by decide))

theorem Clean.truncateToolOutputAt {content : Text} (h : Clean unicode content) (cap : ℕ) :
    Clean unicode (truncateToolOutputAt content cap) := by
  rw [Choreo.truncateToolOutputAt]
  split_ifs
  · exact h
  · refine clean_append.2 ⟨fun c hc => h c ?_, clean_truncationSuffix⟩
    exact (Utf8.floorPrefix_isPrefix _ _).subset hc

theorem Clean.truncateToolOutput {content : Text} (h : Clean unicode content) :
    Clean unicode (truncateToolOutput content) := h.truncateToolOutputAt _

theorem clean_recordedContent (content : Text) : Clean unicode (recordedContent unicode content) :=
  (clean_sanitizeTranscript content).truncateToolOutput

/-- Recording changes nothing more in what it cut at a whole character, and nothing in a content
that the tool capped at a whole character, unless it has format characters, which are escaped. -/
theorem recordedContent_capped (unicode : FormatCategory) (content : Text) :
    (Utf8.CutsWhole maxToolOutputBytes (sanitizeTranscript unicode content) →
      recordedContent unicode (recordedContent unicode content) =
        recordedContent unicode content) ∧
    (Utf8.CutsWhole maxToolOutputBytes content →
      (recordedContent unicode (truncateToolOutput content) = truncateToolOutput content ↔
        Clean unicode (truncateToolOutput content))) := by
  refine ⟨fun hcut => ?_, fun hcut => ⟨fun heq => ?_, fun hclean => ?_⟩⟩
  · have hclean := @clean_recordedContent unicode content
    calc recordedContent unicode (recordedContent unicode content)
        = truncateToolOutput (recordedContent unicode content) := by
          rw [recordedContent, hclean.sanitizeTranscript]
      _ = recordedContent unicode content := truncateToolOutput_idem hcut
  · rw [← heq]
    exact clean_recordedContent _
  · rw [recordedContent, hclean.sanitizeTranscript, truncateToolOutput_idem hcut]

/-- A long output of one-byte characters is recorded once and for all. -/
theorem recordedContent_capped_ascii :
    recordedContent .listed (recordedContent .listed (List.replicate 140000 'a')) =
      recordedContent .listed (List.replicate 140000 'a') := by
  have hascii : ∀ c ∈ List.replicate 140000 'a', c.toNat < 0x80 := by
    intro c hc
    rw [eq_of_mem_replicate hc]
    decide
  refine (recordedContent_capped .listed (List.replicate 140000 'a')).1 ?_
  rw [(clean_of_ascii hascii).sanitizeTranscript]
  exact Utf8.cutsWhole_of_ascii hascii _

theorem size_replicate_char (n : ℕ) (c : Char) :
    Utf8.size (List.replicate n c) = n * c.utf8Size := by
  induction n with
  | zero => simp
  | succ n ih => rw [replicate_succ, Utf8.size_cons, ih, Nat.succ_mul, Nat.add_comm]

theorem clean_replicate {c : Char} (h : isNonJoinerFormatChar unicode c = false) (n : ℕ) :
    Clean unicode (List.replicate n c) := by
  intro d hd
  rwa [eq_of_mem_replicate hd]

/-- A text capped at the tool begins with a character that is escaped: it grows, and is cut a
second time. -/
theorem recordedContent_bidi :
    truncateToolOutput ('\u202e' :: List.replicate 131072 'a') =
        '\u202e' :: List.replicate 131069 'a' ++ truncationSuffix ∧
      recordedContent .listed ('\u202e' :: List.replicate 131069 'a' ++ truncationSuffix) =
        ['\\', 'u', '\x7b', '2', '0', '2', 'e', '\x7d'] ++ List.replicate 131064 'a' ++
          truncationSuffix := by
  have hbidi : '\u202e'.utf8Size = 3 := by decide
  have ha : 'a'.utf8Size = 1 := by decide
  have hescaped : escapeChar .listed '\u202e' =
      ['\\', 'u', '\x7b', '2', '0', '2', 'e', '\x7d'] := by decide +kernel
  have hclean : Clean .listed (List.replicate 131069 'a') := clean_replicate (by decide) _
  constructor
  · have hsize : Utf8.size ('\u202e' :: List.replicate 131069 'a') = maxToolOutputBytes := by
      rw [Utf8.size_cons, size_replicate_char, hbidi, ha, maxToolOutputBytes]
    have h := truncateToolOutputAt_append hsize
      (show List.replicate 3 'a' ≠ [] by simp)
    have hlen : 131069 + 3 = 131072 := rfl
    rw [cons_append, ← replicate_add, hlen] at h
    rw [truncateToolOutput, h, cons_append]
  · have hsize : Utf8.size (['\\', 'u', '\x7b', '2', '0', '2', 'e', '\x7d'] ++
        List.replicate 131064 'a') = maxToolOutputBytes := by
      rw [Utf8.size_append, size_replicate_char, ha, maxToolOutputBytes]
      decide
    have h := truncateToolOutputAt_append hsize
      (show List.replicate 5 'a' ++ truncationSuffix ≠ [] by simp)
    have hlen : 131064 + 5 = 131069 := rfl
    rw [append_assoc, ← append_assoc (List.replicate _ _), ← replicate_add,
      hlen] at h
    rw [recordedContent, sanitizeTranscript_append, clean_truncationSuffix.sanitizeTranscript,
      sanitizeTranscript_eq_flatMap, flatMap_cons, hescaped, flatMap_escapeChar hclean,
      append_assoc, truncateToolOutput, h]

/-- A character lies across the cap: the second cut takes one byte of the marker and marks it
again. -/
theorem recordedContent_accents :
    recordedContent .listed ('a' :: List.replicate 65536 'é') =
        'a' :: List.replicate 65535 'é' ++ truncationSuffix ∧
      recordedContent .listed ('a' :: List.replicate 65535 'é' ++ truncationSuffix) =
        'a' :: List.replicate 65535 'é' ++ ['\n'] ++ truncationSuffix := by
  have ha : 'a'.utf8Size = 1 := by decide
  have he : 'é'.utf8Size = 2 := by decide
  have hn : Utf8.size ['\n'] = 1 := by decide
  have hclean (n : ℕ) : Clean .listed ('a' :: List.replicate n 'é') :=
    clean_append.2 ⟨clean_replicate (c := 'a') (by decide) 1, clean_replicate (by decide) n⟩
  have hsize : Utf8.size ('a' :: List.replicate 65535 'é') + 1 = maxToolOutputBytes := by
    rw [Utf8.size_cons, size_replicate_char, ha, he, maxToolOutputBytes]
  constructor
  · have hfloor := Utf8.floorPrefix_append ('a' :: List.replicate 65535 'é')
      (show 1 < 'é'.utf8Size by decide) []
    have hlong : ¬Utf8.size ('a' :: List.replicate 65536 'é') ≤ maxToolOutputBytes := by
      rw [Utf8.size_cons, size_replicate_char, ha, he, maxToolOutputBytes]
      norm_num
    rw [hsize, cons_append, ← replicate_succ'] at hfloor
    rw [recordedContent, (hclean _).sanitizeTranscript, truncateToolOutput, truncateToolOutputAt,
      if_neg hlong, hfloor]
  · have hsize' : Utf8.size ('a' :: List.replicate 65535 'é' ++ ['\n']) = maxToolOutputBytes := by
      rw [Utf8.size_append, hn, hsize]
    have h := truncateToolOutputAt_append hsize'
      (show "...[truncated]".toList ≠ [] by decide)
    rw [recordedContent,
      (clean_append.2 ⟨hclean 65535, clean_truncationSuffix⟩).sanitizeTranscript]
    rw [append_assoc] at h
    exact h

/-- Recording a capped output cuts further bytes of it, and recording a recorded output changes
it. -/
theorem not_recordedContent_idem :
    ¬(∀ content, recordedContent .listed (recordedContent .listed content) =
        recordedContent .listed content) ∧
      ¬∀ content, recordedContent .listed (truncateToolOutput content) =
        truncateToolOutput content := by
  constructor
  · intro h
    have heq := h ('a' :: List.replicate 65536 'é')
    rw [recordedContent_accents.1, recordedContent_accents.2, append_assoc] at heq
    have hmarker := append_cancel_left heq
    exact absurd hmarker (by decide)
  · intro h
    have hclean := @clean_recordedContent .listed
      (truncateToolOutput ('\u202e' :: List.replicate 131072 'a'))
    rw [h, recordedContent_bidi.1] at hclean
    have hbidi : isNonJoinerFormatChar .listed '\u202e' = true := by decide
    exact Bool.false_ne_true ((hclean '\u202e' mem_cons_self).symm.trans hbidi)

end Choreo
