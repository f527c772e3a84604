import Choreo.Library.Utf8Cuts
import Choreo.Tools.Shell

/-!
# What a drain forwards

A drain cuts the output of a child into lines, folds the two bytes of a line ending into one, and
flushes an unfinished line that grows too long. The chunks it emits are the whole folded stream,
and each of them decodes on its own: a flush holds back the bytes of an unfinished character, so
that the client, who decodes each chunk alone, sees the text of the whole.

A drain is followed byte by byte. What it emitted is followed by bytes that may be decoded apart:
either no character is unfinished at the end of the last chunk, or the bytes kept begin with a
byte that continues none.
-/

namespace Choreo

open List

/-- A stream with each carriage return and line feed folded into the line feed. -/
def foldCrlf : Bytes → Bytes
  | [] => []
  | [b] => [b]
  | b :: c :: bytes =>
    if b = 0x0D ∧ c = 0x0A then c :: foldCrlf bytes else b :: foldCrlf (c :: bytes)

/-- Bytes without the carriage return at their end, if the next byte is a line feed. -/
def foldedBefore (bytes : Bytes) (b : UInt8) : Bytes :=
  if b = 0x0A ∧ bytes.getLast? = some 0x0D then bytes.dropLast else bytes

theorem foldedBefore_cons (c : UInt8) {bytes : Bytes} (hne : bytes ≠ []) (b : UInt8) :
    foldedBefore (c :: bytes) b = c :: foldedBefore bytes b := by
  obtain ⟨d, bytes, rfl⟩ := exists_cons_of_ne_nil hne
  rw [foldedBefore, foldedBefore, List.getLast?_cons_cons]
  split_ifs
  · rw [dropLast_cons_cons]
  · rfl

theorem foldCrlf_ne_nil {bytes : Bytes} (hne : bytes ≠ []) : foldCrlf bytes ≠ [] := by
  induction bytes using foldCrlf.induct with
  | case1 => exact absurd rfl hne
  | case2 b => simp [foldCrlf]
  | case3 b c bytes hfold ih | case4 b c bytes hfold ih => simp [foldCrlf, hfold]

theorem foldCrlf_concat (bytes : Bytes) (b : UInt8) :
    foldCrlf (bytes ++ [b]) = foldedBefore (foldCrlf bytes) b ++ [b] := by
  induction bytes using foldCrlf.induct with
  | case1 => simp [foldCrlf, foldedBefore]
  | case2 c =>
    by_cases h : c = 0x0D ∧ b = 0x0A
    · simp [foldCrlf, foldedBefore, h]
    · have h' : ¬(b = 0x0A ∧ c = 0x0D) := fun hb => h hb.symm
      simp [foldCrlf, foldedBefore, h, h']
  | case3 c d bytes hfold ih =>
    rw [cons_append, cons_append, foldCrlf, if_pos hfold, foldCrlf, if_pos hfold, ih]
    by_cases hbytes : bytes = []
    · have hd : d ≠ 0x0D := by
        rw [hfold.2]
        decide
      simp [hbytes, foldCrlf, foldedBefore, hd]
    · rw [foldedBefore_cons d (foldCrlf_ne_nil hbytes), cons_append]
  | case4 c d bytes hfold ih =>
    rw [cons_append, cons_append, foldCrlf, if_neg hfold, foldCrlf, if_neg hfold,
      ← cons_append, ih, foldedBefore_cons c (foldCrlf_ne_nil (by simp)), cons_append]

/-! ### Where an unfinished line is flushed -/

theorem isContinuation_iff (b : UInt8) : isContinuation b = true ↔ Utf8.IsTail b := by
  rw [isContinuation, Bool.and_eq_true, decide_eq_true_eq, decide_eq_true_eq, Utf8.IsTail]

theorem exists_continuations (bytes : Bytes) :
    ∃ start tails, bytes = start ++ tails ∧ (∀ b ∈ tails, Utf8.IsTail b) ∧
      (∀ b ∈ start.getLast?, ¬Utf8.IsTail b) ∧
      (bytes.reverse.takeWhile isContinuation).length = tails.length ∧
      bytes.reverse.drop tails.length = start.reverse := by
  have hsplit := @takeWhile_append_dropWhile _ isContinuation bytes.reverse
  refine ⟨(bytes.reverse.dropWhile isContinuation).reverse,
    (bytes.reverse.takeWhile isContinuation).reverse, ?_, ?_, ?_, ?_, ?_⟩
  · rw [← reverse_append, hsplit, reverse_reverse]
  · intro b hb
    have hmem := mem_reverse.1 hb
    exact (isContinuation_iff b).1 (all_eq_true.1 all_takeWhile b hmem)
  · intro b hb
    rw [List.getLast?_reverse] at hb
    have hhead := List.head?_dropWhile_not isContinuation bytes.reverse
    rw [Option.mem_def.1 hb] at hhead
    rw [← isContinuation_iff]
    simpa using hhead
  · rw [length_reverse]
  · rw [length_reverse, reverse_reverse]
    exact (congrArg _ hsplit.symm).trans drop_left

theorem exists_body (pending : Bytes) :
    ∃ body cr, pending = body ++ cr ∧ (cr = [] ∨ cr = [0x0D]) ∧
      (pending.getLast? = some 0x0D → cr ≠ []) ∧
      (if pending.getLast? = some 0x0D then 1 else 0) = cr.length := by
  by_cases h : pending.getLast? = some 0x0D
  · obtain ⟨body, rfl⟩ := List.getLast?_eq_some_iff.1 h
    exact ⟨body, [0x0D], rfl, .inr rfl, by simp, by simp⟩
  · exact ⟨pending, [], by simp, .inl rfl, fun h' => absurd h' h, by simp [h]⟩

/-- A flush ends between two characters, or before a byte that continues none. It keeps a carriage
return. -/
theorem take_drop_partialTail (pending : Bytes) :
    ∃ flushed kept, pending = flushed ++ kept ∧ kept.length = partialTailLen pending ∧
      (Utf8.stateAfter none flushed = none ∨ kept ≠ [] ∧ Utf8.StartsApart kept) ∧
      (pending.getLast? = some 0x0D → kept ≠ []) := by
  obtain ⟨body, cr, hpending, hcr, hlast, hlen⟩ := exists_body pending
  obtain ⟨start, tails, hbody, htails, hstart, hcount, hback⟩ := exists_continuations body
  have htake : pending.take (pending.length - cr.length) = body := by
    rw [hpending, length_append, Nat.add_sub_cancel, take_left]
  rcases eq_nil_or_concat' start with rfl | ⟨init, lead, rfl⟩
  · have htail : partialTailLen pending = cr.length := by
      rw [partialTailLen, hlen, htake, hcount, hback]
      rfl
    refine ⟨body, cr, hpending, htail.symm, .inl ?_, hlast⟩
    rw [hbody, nil_append]
    exact Utf8.stateAfter_tails htails
  · have hlead : ¬Utf8.IsTail lead := hstart lead (by simp)
    have htail : partialTailLen pending =
        if tails.length < Utf8.expectedTails lead then tails.length + 1 + cr.length
        else cr.length := by
      rw [partialTailLen, hlen, htake, hcount, hback, reverse_concat]
      rfl
    split_ifs at htail with hshort
    · refine ⟨init, lead :: tails ++ cr, ?_, ?_, .inr ⟨by simp, ?_⟩, by simp⟩
      · rw [hpending, hbody]
        simp
      · rw [htail, length_append, length_cons]
      · intro b hb
        cases hb
        exact hlead
    · refine ⟨body, cr, hpending, htail.symm, .inl ?_, hlast⟩
      rw [hbody, append_assoc, singleton_append, Utf8.stateAfter_append]
      exact Utf8.stateAfter_complete (Utf8.properState_none.stateAfter init) hlead htails
        (Nat.le_of_not_lt hshort)

/-! ### Byte by byte -/

/-- Chunks whose texts, with that of the bytes after them, are the text of the whole. -/
def DecodesApart (lines : List Bytes) (rest : Bytes) : Prop :=
  Utf8.decodeLossy (lines.flatten ++ rest) =
    lines.flatMap Utf8.decodeLossy ++ Utf8.decodeLossy rest

theorem decodesApart_concat {lines : List Bytes} {line rest : Bytes}
    (h : DecodesApart lines (line ++ rest))
    (hcut : Utf8.decodeLossy (line ++ rest) = Utf8.decodeLossy line ++ Utf8.decodeLossy rest) :
    DecodesApart (lines ++ [line]) rest := by
  rw [DecodesApart] at h ⊢
  rw [flatten_concat, append_assoc, h, hcut]
  simp

namespace LineDrain

/-- The unfinished line with one byte more, before a flush. -/
def grown (d : LineDrain) (b : UInt8) : Bytes := foldedBefore d.pending b ++ [b]

theorem forwardByte_eq (d : LineDrain) (b : UInt8) :
    d.forwardByte b =
      if b = 0x0A then { pending := [], lines := d.lines ++ [d.grown b] }
      else if maxPendingLineBytes ≤ (d.grown b).length then
        flushPartialLine { d with pending := d.grown b }
      else { d with pending := d.grown b } :=
  rfl

/-- A drain after some bytes: what it emitted and keeps is the folded stream, it keeps the
carriage return of a line ending that may follow and less than a long line, and what it emitted
decodes apart from what it keeps and from what comes. -/
structure Forwards (d : LineDrain) (bytes : Bytes) : Prop where
  stream : d.lines.flatten ++ d.pending = foldCrlf bytes
  ending : d.pending = [] → d.lines.flatten.getLast? ≠ some 0x0D
  bounded : d.pending.length < maxPendingLineBytes
  decoded : (∀ rest, DecodesApart d.lines rest) ∨
    d.pending ≠ [] ∧ Utf8.StartsApart d.pending ∧
      ∀ rest, Utf8.StartsApart rest → DecodesApart d.lines rest

theorem forwards_empty : Forwards {} [] where
  stream := rfl
  ending _ := by simp
  bounded := by
    rw [maxPendingLineBytes]
    norm_num
  decoded := .inl fun _ => rfl

variable {d : LineDrain} {bytes : Bytes}

theorem Forwards.foldedBefore (h : d.Forwards bytes) (b : UInt8) :
    Choreo.foldedBefore (foldCrlf bytes) b =
      d.lines.flatten ++ Choreo.foldedBefore d.pending b := by
  rw [← h.stream]
  by_cases hpending : d.pending = []
  · have hlast := h.ending hpending
    rw [hpending, append_nil, Choreo.foldedBefore, if_neg fun hb => hlast hb.2]
    simp [Choreo.foldedBefore]
  · rw [Choreo.foldedBefore, Choreo.foldedBefore, List.getLast?_append_of_ne_nil _ hpending]
    split_ifs
    · rw [dropLast_append_of_ne_nil hpending]
    · rfl

theorem Forwards.stream_grown (h : d.Forwards bytes) (b : UInt8) :
    d.lines.flatten ++ d.grown b = foldCrlf (bytes ++ [b]) := by
  rw [foldCrlf_concat, h.foldedBefore, grown, append_assoc]

theorem Forwards.length_grown_le (h : d.Forwards bytes) (b : UInt8) :
    (d.grown b).length ≤ maxPendingLineBytes := by
  have hbound := h.bounded
  rw [grown, length_append, length_singleton, Choreo.foldedBefore]
  split_ifs
  · rw [length_dropLast]
    omega
  · omega

theorem startsApart_grown (hne : d.pending ≠ []) (h : Utf8.StartsApart d.pending) (b : UInt8) :
    Utf8.StartsApart (d.grown b) := by
  obtain ⟨c, cs, hpending⟩ := exists_cons_of_ne_nil hne
  rw [hpending] at h
  rw [grown, hpending]
  by_cases hcs : cs = []
  · rw [hcs, Choreo.foldedBefore]
    split_ifs with hfold
    · rw [hfold.1]
      intro x hx
      cases hx
      exact fun htail => absurd htail.1 (by decide)
    · exact h
  · rw [foldedBefore_cons c hcs]
    exact h

theorem grown_ne_nil (d : LineDrain) (b : UInt8) : d.grown b ≠ [] := by
  rw [grown]
  exact append_ne_nil_of_right_ne_nil _ (cons_ne_nil b [])

theorem Forwards.decodesApart_part (h : d.Forwards bytes) {b : UInt8} {part kept : Bytes}
    (hgrown : d.grown b = part ++ kept) (hne : part ≠ []) (rest : Bytes) :
    DecodesApart d.lines (part ++ rest) := by
  rcases h.decoded with hclosed | ⟨hpending, hstarts, hheld⟩
  · exact hclosed _
  · have hpart := startsApart_grown hpending hstarts b
    obtain ⟨c, cs, rfl⟩ := exists_cons_of_ne_nil hne
    rw [hgrown] at hpart
    exact hheld _ hpart

/-- One byte keeps it. -/
theorem Forwards.forwardByte (h : d.Forwards bytes) (b : UInt8) :
    (d.forwardByte b).Forwards (bytes ++ [b]) := by
  have hstream := h.stream_grown b
  have hlen := h.length_grown_le b
  rw [forwardByte_eq]
  split_ifs with hnewline hlong
  · -- a whole line ends between two characters
    have hstate : Utf8.stateAfter none (d.grown b) = none := by
      rw [hnewline]
      exact Utf8.stateAfter_concat_ascii Utf8.properState_none _ (by decide)
    refine ⟨?_, fun _ => ?_, ?_, .inl fun rest => ?_⟩
    · rw [append_nil, flatten_concat, hstream]
    · rw [flatten_concat, grown, ← append_assoc, List.getLast?_concat, hnewline]
      decide
    · rw [maxPendingLineBytes]
      norm_num
    · exact decodesApart_concat
        (h.decodesApart_part (append_nil _).symm (d.grown_ne_nil b) rest)
        (Utf8.decodeLossy_append_of_stateAfter hstate rest)
  · -- a flush
    obtain ⟨flushed, kept, hgrown, hkept, hcut, hreturn⟩ := take_drop_partialTail (d.grown b)
    have hsplit : (d.grown b).length - partialTailLen (d.grown b) = flushed.length := by
      rw [← hkept, hgrown, length_append, Nat.add_sub_cancel]
    have hflush : flushPartialLine { d with pending := d.grown b } =
        { pending := kept, lines := d.lines ++ [flushed] } := by
      rw [flushPartialLine]
      dsimp only
      rw [hsplit, hgrown, drop_left, take_left]
    have htail := partialTailLen_le (d.grown b)
    have hflushed : flushed ≠ [] := by
      rintro rfl
      rw [maxPendingLineBytes, hgrown, nil_append, hkept] at hlong
      omega
    rw [hflush]
    have hpart := h.decodesApart_part hgrown hflushed
    rw [hgrown] at hstream hreturn
    refine ⟨?_, fun hkept hlast => ?_, ?_, ?_⟩
    · rw [flatten_concat, append_assoc, hstream]
    · have hempty : kept = [] := hkept
      rw [flatten_concat, List.getLast?_append_of_ne_nil _ hflushed] at hlast
      rw [hempty, append_nil] at hreturn
      exact hreturn hlast rfl
    · dsimp only
      rw [hkept, maxPendingLineBytes]
      omega
    · rcases hcut with hstate | ⟨hne, hstarts⟩
      · exact .inl fun rest => decodesApart_concat (hpart rest)
          (Utf8.decodeLossy_append_of_stateAfter hstate rest)
      · exact .inr ⟨hne, hstarts, fun rest hrest => decodesApart_concat (hpart rest)
          (Utf8.decodeLossy_append_of_head flushed hrest)⟩
  · refine ⟨hstream, fun hempty => absurd hempty (d.grown_ne_nil b), Nat.lt_of_not_le hlong, ?_⟩
    exact h.decoded.imp_right fun hheld =>
      ⟨d.grown_ne_nil b, startsApart_grown hheld.1 hheld.2.1 b, hheld.2.2⟩

theorem Forwards.forwardCompleteLines (h : d.Forwards bytes) (chunk : Bytes) :
    (d.forwardCompleteLines chunk).Forwards (bytes ++ chunk) := by
  rw [LineDrain.forwardCompleteLines]
  induction chunk generalizing d bytes with
  | nil => rwa [append_nil]
  | cons b chunk ih =>
    have hstep := ih (h.forwardByte b)
    rwa [append_assoc, singleton_append] at hstep

theorem Forwards.foldl (h : d.Forwards bytes) (chunks : List Bytes) :
    (chunks.foldl LineDrain.forwardCompleteLines d).Forwards (bytes ++ chunks.flatten) := by
  induction chunks generalizing d bytes with
  | nil => rwa [flatten_nil, append_nil]
  | cons chunk chunks ih =>
    have hchunk := ih (h.forwardCompleteLines chunk)
    rwa [append_assoc, ← flatten_cons] at hchunk

/-- The last flush, when the stream ends. -/
theorem Forwards.finish (h : d.Forwards bytes) :
    (d.lines ++ [d.pending]).flatten = foldCrlf bytes ∧
      (d.lines ++ [d.pending]).flatMap Utf8.decodeLossy =
        Utf8.decodeLossy (foldCrlf bytes) := by
  have hstream := h.stream
  have hdecoded : DecodesApart d.lines d.pending := by
    rcases h.decoded with hclosed | ⟨-, hstarts, hheld⟩
    · exact hclosed _
    · exact hheld _ hstarts
  rw [DecodesApart, hstream] at hdecoded
  constructor
  · rw [flatten_concat, hstream]
  · rw [hdecoded]
    simp

end LineDrain

/-- However a stream is cut into chunks: the chunks a drain emits are the folded stream, none of
them is empty, the unfinished line never grows beyond its bound, after whatever chunks and
whatever part of one, and the texts of the emitted chunks are the text of the whole. -/
theorem drainLines_forwards (chunks : List Bytes) :
    (drainLines chunks).flatten = foldCrlf chunks.flatten ∧
      (∀ line ∈ drainLines chunks, line ≠ []) ∧
      (∀ (before : List Bytes) (read : Bytes) (b : UInt8),
        let d := (before.foldl LineDrain.forwardCompleteLines {}).forwardCompleteLines read
        (d.grown b).length ≤ maxPendingLineBytes ∧
          (d.forwardByte b).pending.length ≤ maxPendingLineBytes) ∧
      (drainLines chunks).flatMap Utf8.decodeLossy =
        Utf8.decodeLossy (foldCrlf chunks.flatten) := by
  have hforwards := LineDrain.forwards_empty.foldl chunks
  obtain ⟨hflatten, hdecoded⟩ := hforwards.finish
  rw [nil_append] at hflatten hdecoded
  refine ⟨?_, drainLines_ne_nil chunks, ?_, ?_⟩
  · rw [drainLines]
    split_ifs with hempty
    · rw [← hflatten, List.isEmpty_iff.1 hempty]
      simp
    · exact hflatten
  · intro before read b
    have hread := (LineDrain.forwards_empty.foldl before).forwardCompleteLines read
    exact ⟨hread.length_grown_le b, (hread.forwardByte b).bounded.le⟩
  · rw [drainLines]
    split_ifs with hempty
    · rw [← hdecoded, List.isEmpty_iff.1 hempty]
      simp
    · exact hdecoded

end Choreo
